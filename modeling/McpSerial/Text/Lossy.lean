import McpSerial.Text.Utf8

/-! The pieces of a byte string without the decoder's fuel, what an ASCII byte does to
them, and how an offset in the bytes becomes an offset in the lossy text. -/

namespace Utf8

/-! ## The bytes of a character -/

theorem isCont_iff {b : UInt8} : isCont b = true ↔ 128 ≤ b.toNat ∧ b.toNat < 192 := by
  have h : ∀ n : Fin 256, isCont (UInt8.ofFin n) = true ↔ 128 ≤ n.val ∧ n.val < 192 := by
    decide +kernel
  exact h b.toFin

theorem isSecond_iff {b b₁ : UInt8} : isSecond b b₁ = true ↔
    128 ≤ b₁.toNat ∧ b₁.toNat < 192 ∧ (b.toNat = 0xE0 → 0xA0 ≤ b₁.toNat) ∧
      (b.toNat = 0xED → b₁.toNat ≤ 0x9F) ∧ (b.toNat = 0xF0 → 0x90 ≤ b₁.toNat) ∧
      (b.toNat = 0xF4 → b₁.toNat ≤ 0x8F) := by
  have heq (k : UInt8) : b = k ↔ b.toNat = k.toNat := UInt8.toNat_inj.symm
  unfold isSecond
  simp only [heq]
  split_ifs <;> simp_all [UInt8.le_iff_toNat_le] <;> omega

section EncodeChar

variable {c : Char} {b b₁ b₂ b₃ : UInt8}

theorem ofNat_eq {n : Nat} (h : n = b.toNat) : UInt8.ofNat n = b := by
  rw [h, UInt8.ofNat_toNat]

theorem utf8EncodeChar_one (h : c.toNat = b.toNat) (hb : b.toNat ≤ 127) :
    String.utf8EncodeChar c = [b] := by
  have hc : c.val.toNat = b.toNat := h
  simp only [String.utf8EncodeChar, hc, hb, if_true, UInt8.ofNat_toNat]

theorem utf8EncodeChar_two (h : c.toNat = b.toNat % 32 * 64 + contBits b₁)
    (hb : 0xC2 ≤ b.toNat ∧ b.toNat ≤ 0xDF) (h₁ : 128 ≤ b₁.toNat ∧ b₁.toNat < 192) :
    String.utf8EncodeChar c = [b, b₁] := by
  have hc : c.val.toNat = b.toNat % 32 * 64 + b₁.toNat % 64 := h
  simp only [String.utf8EncodeChar, hc]
  rw [if_neg (by omega), if_pos (by omega)]
  exact congrArg₂ (fun x y => [x, y]) (ofNat_eq (by omega)) (ofNat_eq (by omega))

theorem utf8EncodeChar_three
    (h : c.toNat = b.toNat % 16 * 4096 + contBits b₁ * 64 + contBits b₂)
    (hb : 0xE0 ≤ b.toNat ∧ b.toNat ≤ 0xEF) (h₁ : isSecond b b₁ = true)
    (h₂ : 128 ≤ b₂.toNat ∧ b₂.toNat < 192) : String.utf8EncodeChar c = [b, b₁, b₂] := by
  obtain ⟨hlow, hhigh, hE0, _⟩ := isSecond_iff.mp h₁
  have hc : c.val.toNat = b.toNat % 16 * 4096 + b₁.toNat % 64 * 64 + b₂.toNat % 64 := h
  have hmore : 0x7ff < c.val.toNat := by omega
  have hless : c.val.toNat ≤ 0xffff := by omega
  simp only [String.utf8EncodeChar]
  rw [if_neg (by omega), if_neg (Nat.not_le_of_lt hmore), if_pos hless, hc]
  rw [ofNat_eq (b := b) (by omega), ofNat_eq (b := b₁) (by omega), ofNat_eq (b := b₂) (by omega)]

theorem utf8EncodeChar_four
    (h : c.toNat = b.toNat % 8 * 262144 + contBits b₁ * 4096 + contBits b₂ * 64 + contBits b₃)
    (hb : 0xF0 ≤ b.toNat ∧ b.toNat ≤ 0xF4) (h₁ : isSecond b b₁ = true)
    (h₂ : 128 ≤ b₂.toNat ∧ b₂.toNat < 192) (h₃ : 128 ≤ b₃.toNat ∧ b₃.toNat < 192) :
    String.utf8EncodeChar c = [b, b₁, b₂, b₃] := by
  obtain ⟨hlow, hhigh, _, _, hF0, _⟩ := isSecond_iff.mp h₁
  have hc : c.val.toNat = b.toNat % 8 * 262144 + b₁.toNat % 64 * 4096 + b₂.toNat % 64 * 64 +
    b₃.toNat % 64 := h
  have hmore : 0xffff < c.val.toNat := by omega
  simp only [String.utf8EncodeChar]
  rw [if_neg (by omega), if_neg (by omega), if_neg (Nat.not_le_of_lt hmore), hc]
  rw [ofNat_eq (b := b) (by omega), ofNat_eq (b := b₁) (by omega), ofNat_eq (b := b₂) (by omega),
    ofNat_eq (b := b₃) (by omega)]

theorem isValidChar_two (b b₁ : UInt8) : (b.toNat % 32 * 64 + contBits b₁).isValidChar := by
  refine .inl ?_
  unfold contBits
  omega

theorem isValidChar_three (hb : 0xE0 ≤ b.toNat ∧ b.toNat ≤ 0xEF) (h₁ : isSecond b b₁ = true)
    (b₂ : UInt8) : (b.toNat % 16 * 4096 + contBits b₁ * 64 + contBits b₂).isValidChar := by
  obtain ⟨hlow, hhigh, -, hED, -⟩ := isSecond_iff.mp h₁
  unfold contBits Nat.isValidChar
  omega

theorem isValidChar_four (hb : 0xF0 ≤ b.toNat ∧ b.toNat ≤ 0xF4) (h₁ : isSecond b b₁ = true)
    (b₂ b₃ : UInt8) : (b.toNat % 8 * 262144 + contBits b₁ * 4096 + contBits b₂ * 64 +
      contBits b₃).isValidChar := by
  obtain ⟨hlow, hhigh, -, -, hF0, hF4⟩ := isSecond_iff.mp h₁
  unfold contBits Nat.isValidChar
  omega

theorem toNat_ofNat_of_valid {n : Nat} (h : n.isValidChar) : (Char.ofNat n).toNat = n := by
  rw [Char.ofNat, dif_pos h]
  rfl

end EncodeChar

/-! ## One piece at a time -/

def Piece.raw : Piece → List UInt8
  | char c => String.utf8EncodeChar c
  | malformed bytes => bytes

theorem front_cut (b : UInt8) (rest : List UInt8) :
    ∃ tail, (front b rest).1.raw = b :: tail ∧ tail ++ (front b rest).2 = rest := by
  unfold front
  simp only [UInt8.lt_iff_toNat_lt, UInt8.le_iff_toNat_le, Bool.and_eq_true, decide_eq_true_eq,
    UInt8.reduceToNat, isCont_iff]
  split_ifs with hone htwo hthree hfour
  · have hc := toNat_ofNat_of_valid (n := b.toNat) (.inl (by omega))
    exact ⟨[], utf8EncodeChar_one hc (by omega), rfl⟩
  -- each longer sequence is whole, or broken off before the first byte that does not fit
  · split
    next b₁ rest₁ =>
      split
      next h₁ =>
        have hc := toNat_ofNat_of_valid (isValidChar_two b b₁)
        exact ⟨[b₁], utf8EncodeChar_two hc htwo h₁, rfl⟩
      next => exact ⟨_, rfl, rfl⟩
    next => exact ⟨_, rfl, rfl⟩
  · split
    next b₁ rest₁ =>
      split
      next h₁ =>
        split
        next b₂ rest₂ =>
          split
          next h₂ =>
            have hc := toNat_ofNat_of_valid (isValidChar_three hthree h₁ b₂)
            exact ⟨[b₁, b₂], utf8EncodeChar_three hc hthree h₁ h₂, rfl⟩
          next => exact ⟨_, rfl, rfl⟩
        next => exact ⟨_, rfl, rfl⟩
      next => exact ⟨_, rfl, rfl⟩
    next => exact ⟨_, rfl, rfl⟩
  · split
    next b₁ rest₁ =>
      split
      next h₁ =>
        split
        next b₂ rest₂ =>
          split
          next h₂ =>
            split
            next b₃ rest₃ =>
              split
              next h₃ =>
                have hc := toNat_ofNat_of_valid (isValidChar_four hfour h₁ b₂ b₃)
                exact ⟨[b₁, b₂, b₃], utf8EncodeChar_four hc hfour h₁ h₂ h₃, rfl⟩
              next => exact ⟨_, rfl, rfl⟩
            next => exact ⟨_, rfl, rfl⟩
          next => exact ⟨_, rfl, rfl⟩
        next => exact ⟨_, rfl, rfl⟩
      next => exact ⟨_, rfl, rfl⟩
    next => exact ⟨_, rfl, rfl⟩
  · exact ⟨[], rfl, rfl⟩

theorem toNat_ofNat_lt {n : Nat} (h : n < 256) : (UInt8.ofNat n).toNat = n := by
  rw [UInt8.toNat_ofNat', Nat.mod_eq_of_lt h]

theorem char_ofNat_eq {c : Char} {n : Nat} (h : n = c.val.toNat) :
    Piece.char (.ofNat n) = .char c :=
  congrArg Piece.char (h ▸ Char.ofNat_toNat c)

theorem front_encodeChar {c : Char} {b : UInt8} {tail : List UInt8}
    (h : String.utf8EncodeChar c = b :: tail) (rest : List UInt8) :
    front b (tail ++ rest) = (.char c, rest) := by
  have hvalid : c.val.toNat < 0xD800 ∨ 0xDFFF < c.val.toNat ∧ c.val.toNat < 0x110000 := c.valid
  unfold front
  simp only [UInt8.lt_iff_toNat_lt, UInt8.le_iff_toNat_le, Bool.and_eq_true, decide_eq_true_eq,
    UInt8.reduceToNat, isCont_iff]
  simp only [String.utf8EncodeChar] at h
  split_ifs at h with hone htwo hthree
  · obtain ⟨rfl, rfl⟩ := List.cons.inj h
    have hb := toNat_ofNat_lt (n := c.val.toNat) (by omega)
    rw [hb, if_pos (by omega), char_ofNat_eq (c := c) rfl]
    rfl
  · obtain ⟨rfl, rfl⟩ := List.cons.inj h
    have hb := toNat_ofNat_lt (n := c.val.toNat / 64 % 32 + 192) (by omega)
    have hb₁ := toNat_ofNat_lt (n := c.val.toNat % 64 + 128) (by omega)
    simp only [contBits, hb, hb₁, List.cons_append, List.nil_append]
    rw [if_neg (by omega), if_pos (by omega), if_pos (by omega), char_ofNat_eq (c := c) (by omega)]
  · obtain ⟨rfl, rfl⟩ := List.cons.inj h
    have hb := toNat_ofNat_lt (n := c.val.toNat / 4096 % 16 + 224) (by omega)
    have hb₁ := toNat_ofNat_lt (n := c.val.toNat / 64 % 64 + 128) (by omega)
    have hb₂ := toNat_ofNat_lt (n := c.val.toNat % 64 + 128) (by omega)
    simp only [isSecond_iff, contBits, hb, hb₁, hb₂, List.cons_append, List.nil_append]
    rw [if_neg (by omega), if_neg (by omega), if_pos (by omega), if_pos (by omega),
      if_pos (by omega), char_ofNat_eq (c := c) (by omega)]
  · obtain ⟨rfl, rfl⟩ := List.cons.inj h
    have hb := toNat_ofNat_lt (n := c.val.toNat / 262144 % 8 + 240) (by omega)
    have hb₁ := toNat_ofNat_lt (n := c.val.toNat / 4096 % 64 + 128) (by omega)
    have hb₂ := toNat_ofNat_lt (n := c.val.toNat / 64 % 64 + 128) (by omega)
    have hb₃ := toNat_ofNat_lt (n := c.val.toNat % 64 + 128) (by omega)
    simp only [isSecond_iff, contBits, hb, hb₁, hb₂, hb₃, List.cons_append, List.nil_append]
    rw [if_neg (by omega), if_neg (by omega), if_neg (by omega), if_pos (by omega),
      if_pos (by omega), if_pos (by omega), if_pos (by omega), char_ofNat_eq (c := c) (by omega)]

theorem front_raw (b : UInt8) (rest : List UInt8) :
    (front b rest).1.raw ++ (front b rest).2 = b :: rest := by
  obtain ⟨tail, hraw, hrest⟩ := front_cut b rest
  rw [hraw, List.cons_append, hrest]

theorem front_length (b : UInt8) (rest : List UInt8) : (front b rest).2.length ≤ rest.length := by
  obtain ⟨tail, _, hrest⟩ := front_cut b rest
  have hsum := congrArg List.length hrest
  rw [List.length_append] at hsum
  omega

theorem piecesUpTo_of_le {n : Nat} {bs : List UInt8} (h : bs.length ≤ n) :
    piecesUpTo n bs = piecesUpTo bs.length bs := by
  induction n using Nat.strongRecOn generalizing bs with
  | ind n ih =>
    cases bs with
    | nil => cases n <;> rfl
    | cons b rest =>
      cases n with
      | zero => simp at h
      | succ n =>
        have hrest := front_length b rest
        simp only [List.length_cons] at h ⊢
        show _ :: piecesUpTo n _ = _ :: piecesUpTo rest.length _
        rw [ih n (by omega) (by omega)]
        by_cases hn : rest.length < n + 1
        · rw [ih rest.length hn hrest]
        · omega

@[simp] theorem pieces_nil : pieces [] = [] := rfl

theorem pieces_cons (b : UInt8) (rest : List UInt8) :
    pieces (b :: rest) = (front b rest).1 :: pieces (front b rest).2 :=
  congrArg _ (piecesUpTo_of_le (front_length b rest))

/-- Induction on a byte string, one piece after another. -/
theorem pieces_induction {P : List UInt8 → Prop} (nil : P [])
    (cons : ∀ b rest, P (front b rest).2 → P (b :: rest)) (bs : List UInt8) : P bs := by
  induction hn : bs.length using Nat.strongRecOn generalizing bs with
  | ind n ih =>
    cases bs with
    | nil => exact nil
    | cons b rest =>
      have hrest := front_length b rest
      exact cons b rest (ih _ (by simp only [List.length_cons] at hn; omega) _ rfl)

theorem flatMap_raw_pieces (bs : List UInt8) : (pieces bs).flatMap Piece.raw = bs := by
  induction bs using pieces_induction with
  | nil => rfl
  | cons b rest ih => rw [pieces_cons, List.flatMap_cons, ih, front_raw]

theorem sum_raw_length (bs : List UInt8) :
    ((pieces bs).map fun p => p.raw.length).sum = bs.length := by
  have hlength := congrArg List.length (flatMap_raw_pieces bs)
  rwa [List.length_flatMap] at hlength

theorem raw_ne_nil_of_mem {bs : List UInt8} {p : Piece} (h : p ∈ pieces bs) : p.raw ≠ [] := by
  induction bs using pieces_induction with
  | nil => cases h
  | cons b rest ih =>
    rw [pieces_cons] at h
    rcases List.mem_cons.mp h with rfl | h
    · obtain ⟨tail, hraw, _⟩ := front_cut b rest
      rw [hraw]
      exact List.cons_ne_nil b tail
    · exact ih h

theorem pieces_encode_append (cs : List Char) (rest : List UInt8) :
    pieces (encode cs ++ rest) = cs.map .char ++ pieces rest := by
  induction cs with
  | nil => rfl
  | cons c cs ih =>
    rw [encode, List.flatMap_cons, List.append_assoc]
    cases hc : String.utf8EncodeChar c with
    | nil => exact absurd hc String.utf8EncodeChar_ne_nil
    | cons b tail =>
      rw [List.cons_append, pieces_cons, front_encodeChar hc]
      exact congrArg (Piece.char c :: ·) ih

/-! ## Strict and lossy decoding -/

theorem mapM_eq_some {f : Piece → Option Char} (hchar : ∀ c, f (.char c) = some c)
    (hmalformed : ∀ bytes, f (.malformed bytes) = none) {ps : List Piece} {cs : List Char} :
    ps.mapM f = some cs ↔ ps = cs.map .char := by
  induction ps generalizing cs with
  | nil => cases cs <;> simp
  | cons p ps ih =>
    rw [List.mapM_cons]
    cases p with
    | malformed bytes => cases cs <;> simp [hmalformed]
    | char c =>
      cases cs with
      | nil => simp [hchar, Option.bind_eq_some_iff]
      | cons d cs =>
        simp only [hchar, Option.pure_def, Option.bind_eq_bind, Option.bind_some,
          Option.bind_eq_some_iff, ih, Option.some.injEq, List.cons.injEq, List.map_cons,
          Piece.char.injEq]
        constructor
        · rintro ⟨_, hps, hc, rfl⟩
          exact ⟨hc, hps⟩
        · exact fun ⟨hc, hps⟩ => ⟨cs, hps, hc, rfl⟩

theorem fromUtf8_eq_some {bs : List UInt8} {cs : List Char} :
    fromUtf8 bs = some cs ↔ pieces bs = cs.map .char :=
  mapM_eq_some (fun _ => rfl) fun _ => rfl

theorem fromUtf8_encode (cs : List Char) : fromUtf8 (encode cs) = some cs := by
  rw [fromUtf8_eq_some, ← List.append_nil (encode cs), pieces_encode_append, pieces_nil,
    List.append_nil]

theorem encode_of_fromUtf8 {bs : List UInt8} {cs : List Char} (h : fromUtf8 bs = some cs) :
    encode cs = bs := by
  rw [← flatMap_raw_pieces bs, fromUtf8_eq_some.mp h, List.flatMap_map]
  rfl

/-- The character that the lossy decoding shows for a piece. -/
def Piece.shown : Piece → Char
  | char c => c
  | malformed _ => replacement

theorem fromUtf8Lossy_eq (bs : List UInt8) : fromUtf8Lossy bs = (pieces bs).map Piece.shown :=
  List.map_congr_left fun p _ => by cases p <;> rfl

theorem fromUtf8Lossy_length_le (bs : List UInt8) : (fromUtf8Lossy bs).length ≤ bs.length := by
  rw [fromUtf8Lossy_eq, List.length_map]
  induction bs using pieces_induction with
  | nil => exact Nat.le_refl 0
  | cons b rest ih =>
    rw [pieces_cons, List.length_cons, List.length_cons]
    exact Nat.succ_le_succ (Nat.le_trans ih (front_length b rest))

theorem fromUtf8Lossy_of_fromUtf8 {bs : List UInt8} {cs : List Char}
    (h : fromUtf8 bs = some cs) : fromUtf8Lossy bs = cs := by
  rw [fromUtf8Lossy_eq, fromUtf8_eq_some.mp h, List.map_map]
  exact List.map_id cs

/-! ## Boundaries -/

theorem len_append (cs ds : List Char) : len (cs ++ ds) = len cs + len ds := by
  simp [len]

@[simp] theorem len_cons (c : Char) (cs : List Char) : len (c :: cs) = c.utf8Size + len cs := by
  simp [len]

/-- Byte `n` is a character boundary of `text`. -/
def IsBoundary (text : List Char) (n : Nat) : Prop := ∃ cs ds, text = cs ++ ds ∧ len cs = n

theorem isBoundary_zero (text : List Char) : IsBoundary text 0 := ⟨[], text, rfl, rfl⟩

theorem IsBoundary.append_left {text : List Char} {n : Nat} (h : IsBoundary text n)
    (cs : List Char) : IsBoundary (cs ++ text) (len cs + n) := by
  obtain ⟨ds, es, rfl, rfl⟩ := h
  exact ⟨cs ++ ds, es, (List.append_assoc ..).symm, len_append cs ds⟩

theorem dropBytes_append (cs ds : List Char) : dropBytes (cs ++ ds) (len cs) = ds := by
  induction cs with
  | nil => cases ds <;> rfl
  | cons c cs ih =>
    have hpos := c.utf8Size_pos
    rw [len_cons, List.cons_append]
    cases hn : c.utf8Size + len cs with
    | zero => omega
    | succ n =>
      rw [dropBytes, ← hn, Nat.add_sub_cancel_left, ih]
      simp

theorem isBoundary_len (text : List Char) : IsBoundary text (len text) :=
  ⟨text, [], (List.append_nil text).symm, rfl⟩

theorem isBoundary_cons_iff {c : Char} {cs : List Char} {n : Nat} :
    IsBoundary (c :: cs) n ↔ n = 0 ∨ ∃ k, n = c.utf8Size + k ∧ IsBoundary cs k := by
  constructor
  · rintro ⟨ds, es, htext, rfl⟩
    cases ds with
    | nil => exact .inl rfl
    | cons d ds =>
      obtain ⟨rfl, rfl⟩ := List.cons.inj htext
      exact .inr ⟨len ds, len_cons .., ds, es, rfl, rfl⟩
  · rintro (rfl | ⟨k, rfl, ds, es, rfl, rfl⟩)
    · exact isBoundary_zero _
    · exact ⟨c :: ds, es, rfl, len_cons ..⟩

theorem ceilBoundary_cons {c : Char} {n : Nat} (hn : 0 < n) (cs : List Char) :
    ceilBoundary (c :: cs) n = c.utf8Size + ceilBoundary cs (n - c.utf8Size) := by
  cases n with
  | zero => cases hn
  | succ n => rfl

theorem ceilBoundary_of_isBoundary {text : List Char} {n : Nat} (h : IsBoundary text n) :
    ceilBoundary text n = n := by
  induction text generalizing n with
  | nil => cases n <;> rfl
  | cons c cs ih =>
    rcases isBoundary_cons_iff.mp h with rfl | ⟨k, rfl, hk⟩
    · rfl
    · have hpos := c.utf8Size_pos
      rw [ceilBoundary_cons (by omega), Nat.add_sub_cancel_left, ih hk]

/-! ## ASCII bytes -/

section Ascii

variable {b : UInt8}

theorem front_append_ascii (hb : b.toNat < 128) (x : UInt8) (xs ys : List UInt8) :
    front x (xs ++ b :: ys) = ((front x xs).1, (front x xs).2 ++ b :: ys) := by
  -- an ASCII byte continues no sequence
  have hcont : ¬isCont b = true := by
    rw [isCont_iff]
    omega
  have hsecond : ¬isSecond x b = true := by
    rw [isSecond_iff]
    omega
  unfold front
  split_ifs with hone htwo hthree hfour
  · rfl
  · cases xs with
    | nil => simp [hcont]
    | cons x₁ xs => cases h₁ : isCont x₁ <;> simp [h₁]
  · rcases xs with _ | ⟨x₁, _ | ⟨x₂, xs⟩⟩
    · simp [hsecond]
    · cases h₁ : isSecond x x₁ <;> simp [hcont, h₁]
    · cases h₁ : isSecond x x₁ <;> cases h₂ : isCont x₂ <;> simp [h₁, h₂]
  · rcases xs with _ | ⟨x₁, _ | ⟨x₂, _ | ⟨x₃, xs⟩⟩⟩
    · simp [hsecond]
    · cases h₁ : isSecond x x₁ <;> simp [hcont, h₁]
    · cases h₁ : isSecond x x₁ <;> cases h₂ : isCont x₂ <;> simp [hcont, h₁, h₂]
    · cases h₁ : isSecond x x₁ <;> cases h₂ : isCont x₂ <;> cases h₃ : isCont x₃ <;>
        simp [h₁, h₂, h₃]
  · rfl

/-- An ASCII byte separates the pieces before it from the pieces after it. -/
theorem pieces_append_ascii (hb : b.toNat < 128) (xs ys : List UInt8) :
    pieces (xs ++ b :: ys) = pieces xs ++ .char (Char.ofNat b.toNat) :: pieces ys := by
  induction xs using pieces_induction with
  | nil =>
    have hlow : b < 0x80 := UInt8.lt_iff_toNat_lt.mpr hb
    rw [List.nil_append, pieces_cons]
    simp [front, hlow]
  | cons x xs ih =>
    rw [List.cons_append, pieces_cons, front_append_ascii hb, ih, pieces_cons, List.cons_append]

theorem fromUtf8Lossy_append_ascii (hb : b.toNat < 128) (xs ys : List UInt8) :
    fromUtf8Lossy (xs ++ b :: ys) =
      fromUtf8Lossy xs ++ Char.ofNat b.toNat :: fromUtf8Lossy ys := by
  simp only [fromUtf8Lossy_eq, pieces_append_ascii hb, List.map_append, List.map_cons]
  rfl

theorem fromUtf8Lossy_cons_ascii (hb : b.toNat < 128) (ys : List UInt8) :
    fromUtf8Lossy (b :: ys) = Char.ofNat b.toNat :: fromUtf8Lossy ys :=
  fromUtf8Lossy_append_ascii hb [] ys

theorem pieces_append_of_ascii (hb : b.toNat < 128) (xs ys : List UInt8) :
    pieces (xs ++ [b] ++ ys) = pieces (xs ++ [b]) ++ pieces ys := by
  rw [List.append_assoc, List.singleton_append, pieces_append_ascii hb, pieces_append_ascii hb,
    pieces_nil, List.append_assoc]
  rfl

end Ascii

end Utf8
