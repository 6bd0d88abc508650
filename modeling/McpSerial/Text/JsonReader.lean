import Mathlib.Data.List.TakeWhile
import McpSerial.Text.Json

/-! Reading back the compact text form of JSON: strings, integers, and lists in brackets for
any reader of their parts. A reader returns what it read and the text behind it. -/

namespace Json

abbrev Reader (α : Type) := List Char → Option (α × List Char)

/-! ## Strings -/

def hexValue (c : Char) : Option Nat :=
  if c.isDigit then some (c.toNat - 48)
  else if 97 ≤ c.toNat ∧ c.toNat ≤ 102 then some (c.toNat - 87)
  else none

def hexNumber (cs : List Char) : Option Nat :=
  cs.foldl (fun acc c => acc.bind fun n => (hexValue c).map (n * 16 + ·)) (some 0)

def unescape : Char → Option Char
  | '"' => some '"'
  | '\\' => some '\\'
  | '/' => some '/'
  | 'b' => some '\x08'
  | 'f' => some '\x0c'
  | 'n' => some '\n'
  | 'r' => some '\r'
  | 't' => some '\t'
  | _ => none

def readString : Reader (List Char)
  | [] => none
  | '"' :: rest => some ([], rest)
  | '\\' :: 'u' :: a :: b :: c :: d :: rest =>
    (hexNumber [a, b, c, d]).bind fun n =>
      if n.isValidChar then (readString rest).map fun p => (Char.ofNat n :: p.1, p.2) else none
  | '\\' :: c :: rest =>
    (unescape c).bind fun e => (readString rest).map fun p => (e :: p.1, p.2)
  | c :: rest => if c.toNat < 32 then none else (readString rest).map fun p => (c :: p.1, p.2)

theorem hexValue_digitChar : ∀ d < 16, hexValue (Nat.digitChar d) = some d := by decide

theorem readString_escape (c : Char) (rest : List Char) :
    readString (escape c ++ rest) = (readString rest).map fun p => (c :: p.1, p.2) := by
  unfold escape
  split_ifs with hquote hslash hb hf hn hr ht hcontrol
  · subst hquote; rfl
  · subst hslash; rfl
  · subst hb; rfl
  · subst hf; rfl
  · subst hn; rfl
  · subst hr; rfl
  · subst ht; rfl
  · have hhigh := hexValue_digitChar (c.toNat / 16) (by omega)
    have hlow := hexValue_digitChar (c.toNat % 16) (by omega)
    have hnumber : hexNumber ['0', '0', Nat.digitChar (c.toNat / 16),
        Nat.digitChar (c.toNat % 16)] = some c.toNat := by
      have hzero : hexValue '0' = some 0 := rfl
      simp only [hexNumber, List.foldl_cons, List.foldl_nil, Option.bind_some, hzero, hhigh, hlow,
        Option.map_some]
      congr 1
      omega
    have hvalid : c.toNat.isValidChar := c.valid
    simp only [List.cons_append, List.nil_append, readString, hnumber, Option.bind_some, hvalid,
      if_true, Char.ofNat_toNat]
  · rw [List.singleton_append, readString.eq_def]
    split
    · next heq => cases heq
    · next heq => exact absurd (List.cons.inj heq).1 hquote
    · next heq => exact absurd (List.cons.inj heq).1 hslash
    · next heq => exact absurd (List.cons.inj heq).1 hslash
    · next heq =>
      obtain ⟨rfl, rfl⟩ := List.cons.inj heq
      exact if_neg hcontrol

theorem readString_escaped (cs rest : List Char) :
    readString (escaped cs ++ '"' :: rest) = some (cs, rest) := by
  induction cs with
  | nil => rfl
  | cons c cs ih =>
    rw [escaped_cons, List.append_assoc, readString_escape, ih]
    rfl

/-! ## Integers -/

def isNumberChar (c : Char) : Bool := c.isDigit || c == '-'

def digits (ds : List Char) : Option Nat :=
  if ds ≠ [] ∧ ds.all Char.isDigit then some (Nat.ofDigitChars 10 ds 0) else none

def integer : List Char → Option Int
  | '-' :: ds => (digits ds).map fun (n : Nat) => -(n : Int)
  | ds => (digits ds).map fun (n : Nat) => (n : Int)

def readInteger : Reader Int := fun cs =>
  (integer (cs.takeWhile isNumberChar)).map fun n => (n, cs.dropWhile isNumberChar)

def Stops (rest : List Char) : Prop := ∀ c ∈ rest.head?, isNumberChar c = false

theorem isDigit_of_mem_toDigits {n : Nat} {c : Char} (h : c ∈ Nat.toDigits 10 n) :
    c.isDigit = true :=
  Nat.isDigit_of_mem_toDigits (by decide) (by decide) h

theorem digits_toDigits (n : Nat) : digits (Nat.toDigits 10 n) = some n := by
  have hall : (Nat.toDigits 10 n).all Char.isDigit = true :=
    List.all_eq_true.mpr fun c => isDigit_of_mem_toDigits
  rw [digits, if_pos ⟨Nat.toDigits_ne_nil, hall⟩, Nat.ofDigitChars_toDigits (by decide) (by decide)]

def decimal (n : Int) : List Char :=
  if n < 0 then '-' :: Nat.toDigits 10 n.natAbs else Nat.toDigits 10 n.natAbs

theorem integer_decimal (n : Int) : integer (decimal n) = some n := by
  unfold decimal
  split
  · rw [integer, digits_toDigits, Option.map_some]
    congr 1
    omega
  · cases hds : Nat.toDigits 10 n.natAbs with
    | nil => exact absurd hds Nat.toDigits_ne_nil
    | cons d ds =>
      have hd : d.isDigit = true := isDigit_of_mem_toDigits (hds ▸ List.mem_cons_self)
      have hne : d ≠ '-' := by
        rintro rfl
        cases hd
      have hplain : integer (d :: ds) = (digits (d :: ds)).map fun (n : Nat) => (n : Int) := by
        unfold integer
        split
        · next heq => exact absurd (List.cons.inj heq).1 hne
        · rfl
      rw [hplain, ← hds, digits_toDigits, Option.map_some]
      congr 1
      omega

theorem isNumberChar_of_mem_decimal {n : Int} {c : Char} (h : c ∈ decimal n) :
    isNumberChar c = true := by
  have hdigit {m : Nat} {d : Char} (hd : d ∈ Nat.toDigits 10 m) : isNumberChar d = true := by
    rw [isNumberChar, isDigit_of_mem_toDigits hd, Bool.true_or]
  unfold decimal at h
  split at h
  · rcases List.mem_cons.mp h with rfl | h
    · rfl
    · exact hdigit h
  · exact hdigit h

theorem decimal_ne_nil (n : Int) : decimal n ≠ [] := by
  unfold decimal
  split
  · exact List.cons_ne_nil _ _
  · exact Nat.toDigits_ne_nil

theorem readInteger_decimal (n : Int) {rest : List Char} (h : Stops rest) :
    readInteger (decimal n ++ rest) = some (n, rest) := by
  have htake : rest.takeWhile isNumberChar = [] := by
    cases rest with
    | nil => rfl
    | cons c rest => rw [List.takeWhile_cons, h c rfl]; rfl
  have hdrop : rest.dropWhile isNumberChar = rest := by
    cases rest with
    | nil => rfl
    | cons c rest => rw [List.dropWhile_cons, h c rfl]; rfl
  have hall : ∀ c ∈ decimal n, isNumberChar c = true := fun c => isNumberChar_of_mem_decimal
  rw [readInteger, List.takeWhile_append_of_pos hall, List.dropWhile_append_of_pos hall, htake,
    hdrop, List.append_nil, integer_decimal]
  rfl

/-! ## Lists in brackets -/

section Parts

variable {α β : Type} {closing : Char}

def readParts (closing : Char) (item : Reader α) : Nat → Reader (List α)
  | 0, _ => none
  | n + 1, cs => (item cs).bind fun p =>
    match p.2 with
    | [] => none
    | c :: rest =>
      if c = closing then some ([p.1], rest)
      else if c = ',' then (readParts closing item n rest).map fun q => (p.1 :: q.1, q.2)
      else none

def readBracketed (closing : Char) (item : Reader α) : Reader (List α)
  | [] => none
  | c :: rest =>
    if c = closing then some ([], rest)
    else readParts closing item (c :: rest).length (c :: rest)

/-- What was written as `part b` is read as `value b`, before a comma or the closing bracket. -/
def ReadsPart (closing : Char) (item : Reader α) (part : β → List Char) (value : β → α) (b : β) :
    Prop :=
  ∀ c rest, c = ',' ∨ c = closing → item (part b ++ c :: rest) = some (value b, c :: rest)

theorem readParts_intercalate {item : Reader α} {part : β → List Char} {value : β → α}
    (hcomma : ',' ≠ closing) (rest : List Char) {n : Nat} (b : β) (bs : List β)
    (h : ∀ b' ∈ b :: bs, ReadsPart closing item part value b') (hn : bs.length < n) :
    readParts closing item n ([','].intercalate ((b :: bs).map part) ++ closing :: rest) =
      some ((b :: bs).map value, rest) := by
  induction bs generalizing b n with
  | nil =>
    obtain ⟨n, rfl⟩ := Nat.exists_eq_add_one_of_ne_zero (Nat.ne_of_gt hn)
    have hread := h b List.mem_cons_self closing rest (.inr rfl)
    rw [List.map_singleton, List.intercalate_singleton, readParts, hread]
    exact if_pos rfl
  | cons b' bs ih =>
    obtain ⟨n, rfl⟩ := Nat.exists_eq_add_one_of_ne_zero (Nat.ne_of_gt (Nat.zero_lt_of_lt hn))
    have hread := h b List.mem_cons_self ','
    have hrest := ih b' (fun b hb => h b (List.mem_cons_of_mem _ hb)) (Nat.lt_of_succ_lt_succ hn)
    rw [List.map_cons] at hrest
    rw [List.map_cons, List.map_cons, List.intercalate_cons_cons, List.append_assoc,
      List.append_assoc, List.singleton_append, readParts, hread _ (.inl rfl), Option.bind_some]
    show (if ',' = closing then _ else if ',' = ',' then _ else _) = _
    rw [if_neg hcomma, if_pos rfl, hrest]
    rfl

theorem length_le_length_intercalate {parts : List (List Char)} (h : ∀ p ∈ parts, p ≠ []) :
    parts.length ≤ ([','].intercalate parts).length := by
  induction parts with
  | nil => exact Nat.zero_le _
  | cons p parts ih =>
    have hp : 0 < p.length := List.length_pos_iff.mpr (h p List.mem_cons_self)
    have hrest := ih fun q hq => h q (List.mem_cons_of_mem _ hq)
    cases parts with
    | nil =>
      rw [List.intercalate_singleton]
      exact hp
    | cons q parts =>
      rw [List.intercalate_cons_cons, List.length_append, List.length_append]
      simp only [List.length_cons, List.length_nil] at hrest ⊢
      omega

/-- A list is read back part by part when no part is empty or starts with the bracket. -/
theorem readBracketed_bracketed {item : Reader α} {part : β → List Char} {value : β → α}
    {opening : Char} (hcomma : ',' ≠ closing) (rest : List Char) (bs : List β)
    (h : ∀ b ∈ bs, ReadsPart closing item part value b)
    (hpart : ∀ b ∈ bs, ∃ c tail, part b = c :: tail ∧ c ≠ closing) :
    readBracketed closing item ((bracketed opening closing (bs.map part) ++ rest).tail) =
      some (bs.map value, rest) := by
  have htail : (bracketed opening closing (bs.map part) ++ rest).tail =
      [','].intercalate (bs.map part) ++ closing :: rest := by
    rw [bracketed, List.cons_append, List.cons_append, List.tail_cons, List.append_assoc]
    rfl
  rw [htail]
  cases bs with
  | nil => exact if_pos rfl
  | cons b bs =>
    obtain ⟨c, tail, hc, hne⟩ := hpart b List.mem_cons_self
    have hhead : ∃ text, [','].intercalate ((b :: bs).map part) ++ closing :: rest =
        c :: text := by
      cases bs with
      | nil => exact ⟨_, by rw [List.map_singleton, List.intercalate_singleton, hc]; rfl⟩
      | cons b' bs =>
        exact ⟨_, by rw [List.map_cons, List.map_cons, List.intercalate_cons_cons, hc]; rfl⟩
    have hnonempty : ∀ p ∈ (b :: bs).map part, p ≠ [] := by
      intro p hp
      obtain ⟨b', hb', rfl⟩ := List.mem_map.mp hp
      obtain ⟨c', tail', hc', _⟩ := hpart b' hb'
      rw [hc']
      exact List.cons_ne_nil c' tail'
    have hlength := length_le_length_intercalate hnonempty
    rw [List.length_map, List.length_cons] at hlength
    -- each part takes a character at least, so the reader has turns enough for all of them
    have hroom : bs.length <
        ([','].intercalate ((b :: bs).map part) ++ closing :: rest).length := by
      rw [List.length_append, List.length_cons]
      omega
    have hread := readParts_intercalate hcomma rest b bs h hroom
    obtain ⟨text, htext⟩ := hhead
    rw [htext] at hread ⊢
    rw [readBracketed, if_neg hne]
    exact hread

theorem length_lt_length_bracketed {opening : Char} {parts : List (List Char)} {p : List Char}
    (h : p ∈ parts) : p.length < (bracketed opening closing parts).length := by
  rw [bracketed, List.length_append, List.length_cons]
  have hle : p.length ≤ ([','].intercalate parts).length := by
    induction parts with
    | nil => cases h
    | cons q parts ih =>
      cases parts with
      | nil =>
        rw [List.mem_singleton.mp h, List.intercalate_singleton]
      | cons q' parts =>
        rw [List.intercalate_cons_cons, List.length_append, List.length_append]
        rcases List.mem_cons.mp h with rfl | h
        · omega
        · have htail := ih h
          omega
  omega

end Parts

/-! ## Members -/

def readMember {α : Type} (item : Reader α) : Reader (List Char × α)
  | '"' :: cs => (readString cs).bind fun p =>
    match p.2 with
    | ':' :: rest => (item rest).map fun q => ((p.1, q.1), q.2)
    | _ => none
  | _ => none

theorem readMember_member {α : Type} {item : Reader α} {name value rest : List Char} {a : α}
    {rest' : List Char} (h : item (value ++ rest) = some (a, rest')) :
    readMember item (member name value ++ rest) = some ((name, a), rest') := by
  have htext : member name value ++ rest =
      '"' :: (escaped name ++ '"' :: (':' :: (value ++ rest))) := by
    simp [member, quoted]
  rw [htext, readMember, readString_escaped, Option.bind_some]
  show (item (value ++ rest)).map _ = _
  rw [h]
  rfl

end Json
