import McpSerial.Text.Utf8

/-! The compact text form of JSON: strings with their escapes, and the lists in brackets
that arrays and objects are. Sizes are counted in bytes of UTF-8. -/

namespace Json
open Utf8

def escape (c : Char) : List Char :=
  if c = '"' then ['\\', '"']
  else if c = '\\' then ['\\', '\\']
  else if c = '\x08' then ['\\', 'b']
  else if c = '\x0c' then ['\\', 'f']
  else if c = '\n' then ['\\', 'n']
  else if c = '\r' then ['\\', 'r']
  else if c = '\t' then ['\\', 't']
  else if c.toNat < 32 then
    ['\\', 'u', '0', '0', Nat.digitChar (c.toNat / 16), Nat.digitChar (c.toNat % 16)]
  else [c]

def escaped (cs : List Char) : List Char := cs.flatMap escape

def quoted (cs : List Char) : List Char := '"' :: escaped cs ++ ['"']

def bracketed (opening closing : Char) (parts : List (List Char)) : List Char :=
  opening :: [','].intercalate parts ++ [closing]

def member (name value : List Char) : List Char := quoted name ++ ':' :: value

/-! ## Sizes -/

section Sizes

@[simp] theorem len_nil : len [] = 0 := rfl

@[simp] theorem len_cons (c : Char) (cs : List Char) : len (c :: cs) = c.utf8Size + len cs := rfl

@[simp] theorem len_append (cs ds : List Char) : len (cs ++ ds) = len cs + len ds := by
  rw [len, List.map_append, List.sum_append, len, len]

theorem len_eq_length {cs : List Char} (h : ∀ c ∈ cs, c.utf8Size = 1) : len cs = cs.length := by
  induction cs with
  | nil => rfl
  | cons c cs ih =>
    rw [len_cons, h c List.mem_cons_self, ih fun d hd => h d (List.mem_cons_of_mem c hd),
      List.length_cons, Nat.add_comm]

theorem escaped_cons (c : Char) (cs : List Char) : escaped (c :: cs) = escape c ++ escaped cs :=
  rfl

theorem utf8Size_digitChar : ∀ d < 16, (Nat.digitChar d).utf8Size = 1 := by decide

theorem len_escape_le (c : Char) : len (escape c) ≤ 6 := by
  unfold escape
  split_ifs with _ _ _ _ _ _ _ hcontrol
  all_goals try exact (by decide : (2 : Nat) ≤ 6)
  · have hlow := utf8Size_digitChar _ (Nat.mod_lt c.toNat (by decide : 0 < 16))
    have hhigh := utf8Size_digitChar _ (show c.toNat / 16 < 16 by omega)
    simp only [len_cons, len_nil, hlow, hhigh]
    decide
  · exact Nat.le_trans c.utf8Size_le_four (by decide)

theorem len_escaped_le (cs : List Char) : len (escaped cs) ≤ 6 * cs.length := by
  induction cs with
  | nil => exact Nat.le_refl 0
  | cons c cs ih =>
    rw [escaped_cons, len_append, List.length_cons, Nat.mul_succ, Nat.add_comm]
    exact Nat.add_le_add ih (len_escape_le c)

theorem len_escaped_replicate (n : Nat) (c : Char) :
    len (escaped (List.replicate n c)) = n * len (escape c) := by
  induction n with
  | zero => rw [Nat.zero_mul]; rfl
  | succ n ih =>
    rw [List.replicate_succ, escaped_cons, len_append, ih, Nat.succ_mul, Nat.add_comm]

def Unescaped (c : Char) : Prop := escape c = [c] ∧ c.utf8Size = 1

instance (c : Char) : Decidable (Unescaped c) := inferInstanceAs (Decidable (_ ∧ _))

theorem escaped_unescaped {cs : List Char} (h : ∀ c ∈ cs, Unescaped c) : escaped cs = cs := by
  induction cs with
  | nil => rfl
  | cons c cs ih =>
    rw [escaped_cons, (h c List.mem_cons_self).1, ih fun d hd => h d (List.mem_cons_of_mem c hd)]
    rfl

theorem len_escaped_unescaped {cs : List Char} (h : ∀ c ∈ cs, Unescaped c) :
    len (escaped cs) = cs.length := by
  rw [escaped_unescaped h]
  exact len_eq_length fun c hc => (h c hc).2

theorem unescaped_of_isDigit {c : Char} (h : c.isDigit) : Unescaped c := by
  have hne (d : Char) (hd : d.isDigit = false) : c ≠ d := by
    rintro rfl
    rw [h] at hd
    cases hd
  have hlow : 48 ≤ c.toNat ∧ c.toNat ≤ 57 := by
    simpa [Char.isDigit, UInt32.le_iff_toNat_le] using h
  constructor
  · unfold escape
    rw [if_neg (hne _ rfl), if_neg (hne _ rfl), if_neg (hne _ rfl), if_neg (hne _ rfl),
      if_neg (hne _ rfl), if_neg (hne _ rfl), if_neg (hne _ rfl), if_neg (by omega)]
  · rw [Char.utf8Size_eq_one_iff, UInt32.le_iff_toNat_le]
    exact Nat.le_trans hlow.2 (by decide)

theorem len_quoted (cs : List Char) : len (quoted cs) = len (escaped cs) + 2 := by
  rw [quoted, List.cons_append, len_cons, len_append]
  show 1 + (len (escaped cs) + 1) = _
  omega

theorem len_member (name value : List Char) :
    len (member name value) = len (escaped name) + len value + 3 := by
  rw [member, len_append, len_quoted, len_cons]
  show len (escaped name) + 2 + (1 + len value) = _
  omega

theorem len_intercalate (part : List Char) (parts : List (List Char)) :
    len ([','].intercalate (part :: parts)) + 1 =
      ((part :: parts).map fun p => len p + 1).sum := by
  induction parts generalizing part with
  | nil => simp
  | cons next parts ih =>
    rw [List.intercalate_cons_cons, len_append, len_append, Nat.add_assoc, ih next,
      List.map_cons, List.sum_cons]
    rfl

theorem len_bracketed {opening closing : Char} (hopening : opening.utf8Size = 1)
    (hclosing : closing.utf8Size = 1) (parts : List (List Char)) :
    len (bracketed opening closing parts) = 1 + max 1 (parts.map fun p => len p + 1).sum := by
  rw [bracketed, List.cons_append, len_cons, hopening, len_append, len_cons, hclosing, len_nil]
  cases parts with
  | nil => rfl
  | cons part parts =>
    have hsum := len_intercalate part parts
    rw [← hsum, Nat.max_eq_right (Nat.succ_le_succ (Nat.zero_le _))]

theorem len_bracketed_perm {opening closing : Char} (hopening : opening.utf8Size = 1)
    (hclosing : closing.utf8Size = 1) {parts parts' : List (List Char)} (h : parts.Perm parts') :
    len (bracketed opening closing parts) = len (bracketed opening closing parts') := by
  rw [len_bracketed hopening hclosing, len_bracketed hopening hclosing, (h.map _).sum_nat]

end Sizes

/-! ## One line -/

theorem newline_not_mem_escape (c : Char) : '\n' ∉ escape c := by
  have hdigit : ∀ d < 16, '\n' ≠ Nat.digitChar d := by decide
  unfold escape
  split_ifs with _ _ _ _ hnewline _ _ hcontrol
  all_goals try decide
  · have hhigh := hdigit (c.toNat / 16) (by omega)
    have hlow := hdigit (c.toNat % 16) (Nat.mod_lt _ (by decide))
    simp [hhigh, hlow]
  · simpa using Ne.symm hnewline

theorem newline_not_mem_quoted (cs : List Char) : '\n' ∉ quoted cs := by
  have hescaped : '\n' ∉ escaped cs := by
    intro hmem
    obtain ⟨c, _, hc⟩ := List.mem_flatMap.mp hmem
    exact newline_not_mem_escape c hc
  simp [quoted, hescaped]

theorem newline_not_mem_bracketed {opening closing : Char} {parts : List (List Char)}
    (hopening : '\n' ≠ opening) (hclosing : '\n' ≠ closing) (h : ∀ p ∈ parts, '\n' ∉ p) :
    '\n' ∉ bracketed opening closing parts := by
  have hparts : '\n' ∉ [','].intercalate parts := by
    induction parts with
    | nil => nofun
    | cons part parts ih =>
      have hpart := h part List.mem_cons_self
      have hrest := ih fun p hp => h p (List.mem_cons_of_mem part hp)
      cases parts with
      | nil => simpa using hpart
      | cons next parts => simp [List.intercalate_cons_cons, hpart, hrest]
  simp [bracketed, hopening, hclosing, hparts]

theorem newline_not_mem_member (name : List Char) {value : List Char} (h : '\n' ∉ value) :
    '\n' ∉ member name value := by
  simp [member, newline_not_mem_quoted, h]

end Json
