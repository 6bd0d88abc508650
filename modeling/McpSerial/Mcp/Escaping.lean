import McpSerial.Mcp.Confirmation
import McpSerial.Text.Lossy
import McpSerial.Text.Transducer

/-! What the person who confirms a write is shown determines the bytes that are sent, and
it has no character that could reshape the dialog. -/

namespace McpSerial
open Utf8

/-! ## Reading an escaped text -/

inductive Escape where
  | text
  | escape
  | brace
  | number (n : Nat)
  | byte
  | nibble (high : Nat)

def hexValue (c : Char) : Nat :=
  ((List.range 16).find? fun d => Nat.digitChar d = c).getD 0

/-- Reads both alphabets of escapes. -/
def unescaper : Transducer Escape Char Char where
  next
    | .text, c => if c = '\\' then .escape else .text
    | .escape, c => if c = 'u' then .brace else if c = 'x' then .byte else .text
    | .brace, _ => .number 0
    | .number n, c => if c = '\x7d' then .text else .number (16 * n + hexValue c)
    | .byte, c => .nibble (hexValue c)
    | .nibble _, _ => .text
  emit
    | .text, c, _ => if c = '\\' then [] else [c]
    | .escape, c, _ =>
      if c = 'u' ∨ c = 'x' then []
      else if c = '0' then ['\x00']
      else if c = 't' then ['\t']
      else if c = 'r' then ['\r']
      else if c = 'n' then ['\n']
      else [c]
    | .brace, _, _ => []
    | .number n, c, _ => if c = '\x7d' then [Char.ofNat n] else []
    | .byte, _, _ => []
    | .nibble high, c, _ => [Char.ofNat (16 * high + hexValue c)]

def unescapePayload (shown : String) : List UInt8 :=
  match shown.toList with
  | 'b' :: _ :: cs => (unescaper.run .text cs.dropLast).map fun c => UInt8.ofNat c.toNat
  | _ :: cs => encode (unescaper.run .text cs.dropLast)
  | [] => []

theorem hexValue_digitChar {d : Nat} (hd : d < 16) : hexValue (Nat.digitChar d) = d := by
  revert d
  decide

theorem digitChar_ne_brace {d : Nat} (hd : d < 16) : Nat.digitChar d ≠ '\x7d' := by
  revert d
  decide

theorem unescaper_digits (rest : List Char) (n m : Nat) :
    unescaper.segment rest (.number m) (Nat.toDigits 16 n) = [] ∧
      ∃ k, unescaper.state (.number m) (Nat.toDigits 16 n) = .number (16 ^ k * m + n) := by
  induction n using Nat.strong_induction_on generalizing rest with
  | _ n ih =>
    rw [Nat.toDigits_eq_if (by decide)]
    split
    next hlt =>
      have hne : Nat.digitChar n ≠ '\x7d' := digitChar_ne_brace hlt
      refine ⟨by simp [unescaper, hne], 1, ?_⟩
      simp [unescaper, hne, hexValue_digitChar hlt]
    next hge =>
      have hrem : n % 16 < 16 := Nat.mod_lt _ (by decide)
      have hne : Nat.digitChar (n % 16) ≠ '\x7d' := digitChar_ne_brace hrem
      obtain ⟨hsilent, k, hstate⟩ := ih (n / 16) (by omega) ([Nat.digitChar (n % 16)] ++ rest)
      rw [unescaper.segment_append, unescaper.state_append, hsilent, hstate]
      refine ⟨by simp [unescaper, hne], k + 1, ?_⟩
      have hsum : 16 * (16 ^ k * m + n / 16) + n % 16 = 16 ^ (k + 1) * m + n := by
        rw [Nat.pow_succ, Nat.mul_comm _ 16, Nat.mul_assoc]
        omega
      simp [unescaper, hne, hexValue_digitChar hrem, hsum]

theorem unescaper_unicode (rest : List Char) (c : Char) :
    let form := ['\\', 'u', '\x7b'] ++ Nat.toDigits 16 c.toNat ++ ['\x7d']
    unescaper.state .text form = .text ∧ unescaper.segment rest .text form = [c] := by
  obtain ⟨hsilent, k, hstate⟩ := unescaper_digits (['\x7d'] ++ rest) c.toNat 0
  have hopen : unescaper.state .text ['\\', 'u', '\x7b'] = .number 0 := rfl
  have hquiet (tail : List Char) : unescaper.segment tail .text ['\\', 'u', '\x7b'] = [] := rfl
  simp only [unescaper.segment_append, unescaper.state_append, hopen, hquiet, hsilent, hstate]
  simp [unescaper]

theorem unescaper_debugChar (srv : McpServer) (rest : List Char) (c : Char) :
    unescaper.state .text (debugChar srv c) = .text ∧
      unescaper.segment rest .text (debugChar srv c) = [c] := by
  unfold debugChar
  split
  next h => subst h; exact ⟨rfl, rfl⟩
  split
  next h => subst h; exact ⟨rfl, rfl⟩
  split
  next h => subst h; exact ⟨rfl, rfl⟩
  split
  next h => subst h; exact ⟨rfl, rfl⟩
  split
  next h => subst h; exact ⟨rfl, rfl⟩
  split
  next h => subst h; exact ⟨rfl, rfl⟩
  split
  · exact unescaper_unicode rest c
  next hslash _ => simp [unescaper, hslash]

theorem ofNat_toNat_byte (b : UInt8) : UInt8.ofNat (Char.ofNat b.toNat).toNat = b := by
  have hvalid : b.toNat.isValidChar := .inl (by have := b.toNat_lt; omega)
  rw [toNat_ofNat_of_valid hvalid, UInt8.ofNat_toNat]

theorem unescaper_escapeAscii (rest : List Char) (b : UInt8) :
    unescaper.state .text (escapeAscii b) = .text ∧
      unescaper.segment rest .text (escapeAscii b) = [Char.ofNat b.toNat] := by
  unfold escapeAscii
  split
  next h => subst h; exact ⟨rfl, rfl⟩
  split
  next h => subst h; exact ⟨rfl, rfl⟩
  split
  next h => subst h; exact ⟨rfl, rfl⟩
  split
  next h => subst h; exact ⟨rfl, rfl⟩
  split
  next h => subst h; exact ⟨rfl, rfl⟩
  split
  next h => subst h; exact ⟨rfl, rfl⟩
  next hslash =>
  split
  next hplain =>
    have hne : Char.ofNat b.toNat ≠ '\\' := by
      intro h
      apply hslash
      rw [← ofNat_toNat_byte b, h]
      rfl
    simp [unescaper, hne]
  next =>
    have hhigh : b.toNat / 16 % 16 < 16 := Nat.mod_lt _ (by decide)
    have hlow : b.toNat % 16 < 16 := Nat.mod_lt _ (by decide)
    have hsum : 16 * (b.toNat / 16 % 16) + b.toNat % 16 = b.toNat := by
      have := b.toNat_lt
      omega
    simp [unescaper, hexByte, hexDigit, hexValue_digitChar hhigh, hexValue_digitChar hlow, hsum]

/-! ## What the person is shown -/

theorem unescapePayload_text (body : List Char) :
    unescapePayload (String.ofList (['"'] ++ body ++ ['"'])) =
      encode (unescaper.run .text body) := by
  rw [unescapePayload, String.toList_ofList]
  change encode (unescaper.run .text (body ++ ['"']).dropLast) = _
  rw [List.dropLast_concat]

theorem unescapePayload_bytes (body : List Char) :
    unescapePayload (String.ofList (['b', '"'] ++ body ++ ['"'])) =
      (unescaper.run .text body).map fun c => UInt8.ofNat c.toNat := by
  rw [unescapePayload, String.toList_ofList]
  change (unescaper.run .text (body ++ ['"']).dropLast).map _ = _
  rw [List.dropLast_concat]

theorem unescapePayload_escapedPayload (srv : McpServer) (payload : List UInt8) :
    unescapePayload (escapedPayload srv payload) = payload := by
  unfold escapedPayload
  cases htext : fromUtf8 payload with
  | some text =>
    have hread : unescaper.run .text (text.flatMap (debugChar srv)) = text.map id :=
      unescaper.segment_flatMap (fun c => (unescaper_debugChar srv [] c).1)
        (fun c rest => (unescaper_debugChar srv rest c).2) [] text
    rw [unescapePayload_text, hread, List.map_id]
    exact encode_of_fromUtf8 htext
  | none =>
    have hread : unescaper.run .text (payload.flatMap escapeAscii) =
        payload.map fun b => Char.ofNat b.toNat :=
      unescaper.segment_flatMap (fun b => (unescaper_escapeAscii [] b).1)
        (fun b rest => (unescaper_escapeAscii rest b).2) [] payload
    rw [unescapePayload_bytes, hread, List.map_map]
    exact List.map_id'' ofNat_toNat_byte payload

theorem isControl_digitChar {d : Nat} (hd : d < 16) : isControl (Nat.digitChar d) = false := by
  revert d
  decide

theorem isControl_toDigits (n : Nat) : ∀ c ∈ Nat.toDigits 16 n, isControl c = false := by
  induction n using Nat.strong_induction_on with
  | _ n ih =>
    rw [Nat.toDigits_eq_if (by decide)]
    split
    next hlt => simpa using isControl_digitChar hlt
    next hge =>
      intro c hc
      rcases List.mem_append.mp hc with hc | hc
      · exact ih (n / 16) (by omega) c hc
      · rw [List.mem_singleton.mp hc]
        exact isControl_digitChar (Nat.mod_lt _ (by decide))

theorem isControl_pair {c : Char} (h : isControl c = false) :
    ∀ d ∈ ['\\', c], isControl d = false :=
  List.forall_iff_forall_mem.mp ⟨rfl, h⟩

theorem isControl_debugChar {srv : McpServer}
    (hcontrol : ∀ c, isControl c = true → srv.escapes c = true) (c : Char) :
    ∀ d ∈ debugChar srv c, isControl d = false := by
  unfold debugChar
  split
  · exact isControl_pair rfl
  split
  · exact isControl_pair rfl
  split
  · exact isControl_pair rfl
  split
  · exact isControl_pair rfl
  split
  · exact isControl_pair rfl
  split
  · exact isControl_pair rfl
  split
  · have hopen : ∀ d ∈ ['\\', 'u', '\x7b'], isControl d = false :=
      List.forall_iff_forall_mem.mp ⟨rfl, rfl, rfl⟩
    have hclose : ∀ d ∈ ['\x7d'], isControl d = false := List.forall_iff_forall_mem.mp rfl
    intro d hd
    rcases List.mem_append.mp hd with hd | hd
    · rcases List.mem_append.mp hd with hd | hd
      · exact hopen d hd
      · exact isControl_toDigits _ d hd
    · exact hclose d hd
  next hescapes =>
    have hplain : isControl c = false :=
      Bool.eq_false_iff.mpr fun hc => hescapes (hcontrol c hc)
    simpa using hplain

theorem isControl_escapeAscii (b : UInt8) : ∀ d ∈ escapeAscii b, isControl d = false := by
  unfold escapeAscii
  split
  · exact isControl_pair rfl
  split
  · exact isControl_pair rfl
  split
  · exact isControl_pair rfl
  split
  · exact isControl_pair rfl
  split
  · exact isControl_pair rfl
  split
  · exact isControl_pair rfl
  split
  next hplain =>
    obtain ⟨hlow, hhigh⟩ := hplain
    have hlow' : 0x20 ≤ b.toNat := UInt8.le_iff_toNat_le.mp hlow
    have hhigh' : b.toNat ≤ 0x7e := UInt8.le_iff_toNat_le.mp hhigh
    have hnat : (Char.ofNat b.toNat).toNat = b.toNat := toNat_ofNat_of_valid (.inl (by omega))
    simp only [List.mem_singleton, forall_eq, isControl, hnat, Bool.or_eq_false_iff,
      Bool.and_eq_false_iff, decide_eq_false_iff_not]
    omega
  next =>
    intro d hd
    simp only [hexByte, hexDigit, List.cons_append, List.nil_append, List.mem_cons,
      List.not_mem_nil, or_false] at hd
    rcases hd with rfl | rfl | rfl | rfl
    · decide
    · decide
    · exact isControl_digitChar (Nat.mod_lt _ (by decide))
    · exact isControl_digitChar (Nat.mod_lt _ (by decide))

/-- The text in the dialog determines the bytes that the answer authorises, and it has no
newline, carriage return, ESC or other control character. -/
theorem escapedPayload_unambiguous (srv : McpServer) :
    (∀ payload, unescapePayload (escapedPayload srv payload) = payload) ∧
      Function.Injective (escapedPayload srv) ∧
      ((∀ c, isControl c = true → srv.escapes c = true) →
        ∀ payload, ∀ c ∈ (escapedPayload srv payload).toList, isControl c = false) := by
  refine ⟨unescapePayload_escapedPayload srv,
    Function.LeftInverse.injective (unescapePayload_escapedPayload srv), ?_⟩
  intro hcontrol payload c hc
  unfold escapedPayload at hc
  cases htext : fromUtf8 payload with
  | some text =>
    simp only [htext, String.toList_ofList, List.mem_append, List.mem_flatMap,
      List.mem_singleton] at hc
    rcases hc with (rfl | ⟨d, -, hc⟩) | rfl
    · decide
    · exact isControl_debugChar hcontrol d c hc
    · decide
  | none =>
    simp only [htext, String.toList_ofList, List.mem_append, List.mem_flatMap, List.mem_cons,
      List.not_mem_nil, or_false] at hc
    rcases hc with ((rfl | rfl) | ⟨b, -, hc⟩) | rfl
    · decide
    · decide
    · exact isControl_escapeAscii b c hc
    · decide

end McpSerial
