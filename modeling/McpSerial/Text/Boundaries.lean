import McpSerial.Text.Lossy

/-! The character boundaries of a text as its bytes show them, the loop that looks for the
next one, and the cuts between the pieces of a byte string. -/

namespace Utf8

/-- `str::is_char_boundary`. -/
def isCharBoundary (text : List Char) (n : Nat) : Bool :=
  n == 0 || (encode text)[n]?.elim (n == (encode text).length) fun b => !isCont b

/-- `while !text.is_char_boundary(n) { n += 1 }`, none when the fuel is used up. -/
def roundUp (text : List Char) : Nat → Nat → Option Nat
  | 0, _ => none
  | fuel + 1, n => if isCharBoundary text n then some n else roundUp text fuel (n + 1)

/-! ## Bytes at a boundary -/

theorem isCont_encodeChar {c : Char} {b : UInt8} {tail : List UInt8}
    (h : String.utf8EncodeChar c = b :: tail) :
    isCont b = false ∧ ∀ x ∈ tail, isCont x = true := by
  have hvalid : c.val.toNat < 0xD800 ∨ 0xDFFF < c.val.toNat ∧ c.val.toNat < 0x110000 := c.valid
  have hfirst {n : Nat} (hn : n < 128 ∨ 192 ≤ n ∧ n < 256) : isCont (UInt8.ofNat n) = false := by
    rw [← Bool.not_eq_true, isCont_iff, toNat_ofNat_lt (by omega)]
    omega
  have hlater (n : Nat) : isCont (UInt8.ofNat (n % 64 + 128)) = true := by
    rw [isCont_iff, toNat_ofNat_lt (by omega)]
    omega
  simp only [String.utf8EncodeChar] at h
  split_ifs at h
  all_goals
    obtain ⟨rfl, rfl⟩ := List.cons.inj h
    refine ⟨hfirst (by omega), ?_⟩
    simp only [List.forall_mem_cons, hlater, List.not_mem_nil, false_implies, implies_true,
      and_self]

theorem encode_cons (c : Char) (cs : List Char) :
    encode (c :: cs) = String.utf8EncodeChar c ++ encode cs := List.flatMap_cons

@[simp] theorem isCharBoundary_zero (text : List Char) : isCharBoundary text 0 = true := rfl

theorem isCharBoundary_inside {c : Char} {n : Nat} (hpos : 0 < n) (hn : n < c.utf8Size)
    (cs : List Char) : isCharBoundary (c :: cs) n = false := by
  cases hc : String.utf8EncodeChar c with
  | nil => exact absurd hc String.utf8EncodeChar_ne_nil
  | cons b tail =>
    obtain ⟨k, rfl⟩ := Nat.exists_eq_add_one_of_ne_zero (Nat.ne_of_gt hpos)
    have hlength := String.length_utf8EncodeChar c
    rw [hc, List.length_cons] at hlength
    have hk : k < tail.length := by omega
    have hbyte : (encode (c :: cs))[k + 1]? = some tail[k] := by
      rw [encode_cons, hc, List.cons_append, List.getElem?_cons_succ,
        List.getElem?_append_left hk, List.getElem?_eq_getElem hk]
    have hcont : isCont tail[k] = true := (isCont_encodeChar hc).2 _ (List.getElem_mem hk)
    simp [isCharBoundary, hbyte, hcont]

theorem isCharBoundary_cons (c : Char) (cs : List Char) (n : Nat) :
    isCharBoundary (c :: cs) (c.utf8Size + n) = isCharBoundary cs n := by
  have hpos := c.utf8Size_pos
  have hlength := String.length_utf8EncodeChar c
  have hbyte : (encode (c :: cs))[c.utf8Size + n]? = (encode cs)[n]? := by
    rw [encode_cons, List.getElem?_append_right (by omega), hlength, Nat.add_sub_cancel_left]
  unfold isCharBoundary
  rw [hbyte, encode_cons, List.length_append, hlength]
  cases n with
  | zero =>
    cases cs with
    | nil => simp [encode]
    | cons d ds =>
      cases hd : String.utf8EncodeChar d with
      | nil => exact absurd hd String.utf8EncodeChar_ne_nil
      | cons b tail => simp [encode_cons, hd, (isCont_encodeChar hd).1]
  | succ n =>
    have hne : (c.utf8Size + (n + 1) == 0) = false := by simp
    have heq : (c.utf8Size + (n + 1) == c.utf8Size + (encode cs).length) =
        (n + 1 == (encode cs).length) := by
      rw [Bool.eq_iff_iff, beq_iff_eq, beq_iff_eq]
      omega
    rw [hne, heq]
    rfl

/-- The bytes show where the characters of a text end. -/
theorem isCharBoundary_iff {text : List Char} {n : Nat} :
    isCharBoundary text n = true ↔ IsBoundary text n := by
  induction text generalizing n with
  | nil =>
    have hnil : IsBoundary [] n ↔ n = 0 := by
      constructor
      · rintro ⟨ds, es, htext, rfl⟩
        rw [(List.append_eq_nil_iff.mp htext.symm).1]
        rfl
      · rintro rfl
        exact isBoundary_zero []
    rw [hnil]
    simp [isCharBoundary, encode]
  | cons c cs ih =>
    rw [isBoundary_cons_iff]
    by_cases hinside : n < c.utf8Size
    · have hnone : ¬∃ k, n = c.utf8Size + k ∧ IsBoundary cs k := by
        rintro ⟨k, rfl, _⟩
        omega
      rcases Nat.eq_zero_or_pos n with rfl | hpos
      · simp
      · rw [isCharBoundary_inside hpos hinside]
        simp [Nat.ne_of_gt hpos, hnone]
    · obtain ⟨k, rfl⟩ := Nat.exists_eq_add_of_le (Nat.le_of_not_lt hinside)
      have hpos := c.utf8Size_pos
      rw [isCharBoundary_cons, ih]
      constructor
      · exact fun h => .inr ⟨k, rfl, h⟩
      · rintro (hzero | ⟨k', hk, h⟩)
        · omega
        · obtain rfl : k = k' := by omega
          exact h

/-! ## The next boundary -/

theorem ceilBoundary_succ {text : List Char} {n : Nat} (hn : n ≤ len text)
    (h : ¬IsBoundary text n) : ceilBoundary text (n + 1) = ceilBoundary text n := by
  induction text generalizing n with
  | nil =>
    obtain rfl : n = 0 := Nat.le_zero.mp hn
    exact absurd (isBoundary_zero []) h
  | cons c cs ih =>
    rw [isBoundary_cons_iff, not_or] at h
    rw [len_cons] at hn
    have hpos : 0 < n := Nat.pos_of_ne_zero h.1
    rw [ceilBoundary_cons (Nat.succ_pos n), ceilBoundary_cons hpos]
    by_cases hinside : n < c.utf8Size
    · rw [Nat.sub_eq_zero_of_le hinside, Nat.sub_eq_zero_of_le (Nat.le_of_lt hinside)]
    · have hrest : ¬IsBoundary cs (n - c.utf8Size) := fun hk => h.2 ⟨_, by omega, hk⟩
      rw [Nat.succ_sub (Nat.le_of_not_lt hinside), ih (by omega) hrest]

/-- The loop ends at the least boundary that is not below `n`. -/
theorem roundUp_eq {text : List Char} {fuel n : Nat} (hn : n ≤ len text)
    (hfuel : len text < n + fuel) : roundUp text fuel n = some (ceilBoundary text n) := by
  induction fuel generalizing n with
  | zero => omega
  | succ fuel ih =>
    rw [roundUp]
    split
    next hboundary => rw [ceilBoundary_of_isBoundary (isCharBoundary_iff.mp hboundary)]
    next hinside =>
      rw [isCharBoundary_iff] at hinside
      have hlt : n < len text := by
        refine Nat.lt_of_le_of_ne hn ?_
        rintro rfl
        exact hinside (isBoundary_len text)
      rw [ih hlt (by omega), ceilBoundary_succ hn hinside]

/-! ## Between two pieces -/

theorem pieces_behind {bs : List UInt8} {before after : List Piece}
    (h : pieces bs = before ++ after) : pieces (after.flatMap Piece.raw) = after := by
  induction bs using pieces_induction generalizing before with
  | nil =>
    rw [(List.append_eq_nil_iff.mp h.symm).2]
    rfl
  | cons b rest ih =>
    cases before with
    | nil =>
      rw [List.nil_append] at h
      rw [← h, flatMap_raw_pieces]
    | cons p before =>
      rw [pieces_cons, List.cons_append] at h
      exact ih (List.cons.inj h).2

end Utf8
