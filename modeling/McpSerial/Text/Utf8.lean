import Mathlib.Algebra.GroupWithZero.Nat
import Mathlib.Tactic.SplitIfs

/-! UTF-8: the encoding of a text, the pieces a decoder cuts a byte string into,
and the strict and lossy decodings read off those pieces. -/

namespace Utf8

/-! ## Encoding -/

def encode (cs : List Char) : List UInt8 := cs.flatMap String.utf8EncodeChar

/-- The bytes of a string, as `str::as_bytes` gives them. -/
def asBytes (s : String) : List UInt8 := encode s.toList

/-- The number of bytes of a text, as `str::len` counts them. -/
def len (cs : List Char) : Nat := (cs.map Char.utf8Size).sum

theorem encode_append (cs ds : List Char) : encode (cs ++ ds) = encode cs ++ encode ds :=
  List.flatMap_append

theorem encode_length (cs : List Char) : (encode cs).length = len cs := by
  induction cs with
  | nil => rfl
  | cons c cs ih =>
    rw [encode, List.flatMap_cons, List.length_append, String.length_utf8EncodeChar]
    simp [len]

theorem encode_injective {cs ds : List Char} (h : encode cs = encode ds) : cs = ds := by
  have hb : (String.ofList cs).toByteArray = (String.ofList ds).toByteArray := by
    rw [String.toByteArray_ofList, String.toByteArray_ofList]
    exact congrArg List.toByteArray h
  exact String.ofList_injective (String.toByteArray_inj.mp hb)

theorem asBytes_injective {s t : String} (h : asBytes s = asBytes t) : s = t :=
  String.toList_injective (encode_injective h)

theorem ofNat_lt_F8 {n : Nat} (h : n < 248) : UInt8.ofNat n < 0xF8 := by
  rw [UInt8.lt_iff_toNat_lt, UInt8.toNat_ofNat']
  exact Nat.lt_of_le_of_lt (Nat.mod_le ..) h

theorem lt_of_mem_encode {cs : List Char} {b : UInt8} (h : b ∈ encode cs) : b < 0xF8 := by
  obtain ⟨c, _, hb⟩ := List.mem_flatMap.mp h
  unfold String.utf8EncodeChar at hb
  dsimp only at hb
  split_ifs at hb <;> simp only [List.mem_cons, List.not_mem_nil, or_false] at hb
  · exact hb ▸ ofNat_lt_F8 (by omega)
  · rcases hb with rfl | rfl <;> exact ofNat_lt_F8 (by omega)
  · rcases hb with rfl | rfl | rfl <;> exact ofNat_lt_F8 (by omega)
  · rcases hb with rfl | rfl | rfl | rfl <;> exact ofNat_lt_F8 (by omega)

theorem exists_char_of_mem_encode {cs : List Char} {b : UInt8} (hb : b.toNat < 128)
    (h : b ∈ encode cs) : ∃ c ∈ cs, c.toNat = b.toNat := by
  obtain ⟨c, hc, hbc⟩ := List.mem_flatMap.mp h
  refine ⟨c, hc, ?_⟩
  -- every byte of a longer sequence has its top bit set
  have hlong (n : Nat) (hn : b = UInt8.ofNat n) (hlow : 128 ≤ n) (hhigh : n < 256) :
      c.toNat = b.toNat := by
    rw [hn, UInt8.toNat_ofNat', Nat.mod_eq_of_lt hhigh] at hb
    omega
  unfold String.utf8EncodeChar at hbc
  dsimp only at hbc
  split_ifs at hbc with hone <;> simp only [List.mem_cons, List.not_mem_nil, or_false] at hbc
  · rw [hbc, UInt8.toNat_ofNat', Nat.mod_eq_of_lt (by omega)]
    rfl
  · rcases hbc with hn | hn <;> exact hlong _ hn (by omega) (by omega)
  · rcases hbc with hn | hn | hn <;> exact hlong _ hn (by omega) (by omega)
  · rcases hbc with hn | hn | hn | hn <;> exact hlong _ hn (by omega) (by omega)

/-! ## Decoding -/

/-- A piece of a byte string: one character or one malformed sequence. -/
inductive Piece where
  | char (c : Char)
  | malformed (bytes : List UInt8)
  deriving DecidableEq, Repr

def isCont (b : UInt8) : Bool := b &&& 0xC0 == 0x80

/-- Whether `b₁` may follow the first byte `b` of a sequence of three or four. -/
def isSecond (b b₁ : UInt8) : Bool :=
  if b = 0xE0 then 0xA0 ≤ b₁ && b₁ ≤ 0xBF
  else if b = 0xED then 0x80 ≤ b₁ && b₁ ≤ 0x9F
  else if b = 0xF0 then 0x90 ≤ b₁ && b₁ ≤ 0xBF
  else if b = 0xF4 then 0x80 ≤ b₁ && b₁ ≤ 0x8F
  else 0x80 ≤ b₁ && b₁ ≤ 0xBF

def contBits (b : UInt8) : Nat := b.toNat % 64

/-- The piece at the front of `b :: rest` and the bytes after it. A malformed
piece is the longest prefix that starts some character, as in `Utf8Chunks`. -/
def front (b : UInt8) (rest : List UInt8) : Piece × List UInt8 :=
  if b < 0x80 then (.char (Char.ofNat b.toNat), rest)
  else if 0xC2 ≤ b && b ≤ 0xDF then
    match rest with
    | b₁ :: rest₁ =>
      if isCont b₁ then (.char (Char.ofNat (b.toNat % 32 * 64 + contBits b₁)), rest₁)
      else (.malformed [b], rest)
    | [] => (.malformed [b], rest)
  else if 0xE0 ≤ b && b ≤ 0xEF then
    match rest with
    | b₁ :: rest₁ =>
      if isSecond b b₁ then
        match rest₁ with
        | b₂ :: rest₂ =>
          if isCont b₂ then
            (.char (Char.ofNat (b.toNat % 16 * 4096 + contBits b₁ * 64 + contBits b₂)), rest₂)
          else (.malformed [b, b₁], rest₁)
        | [] => (.malformed [b, b₁], rest₁)
      else (.malformed [b], rest)
    | [] => (.malformed [b], rest)
  else if 0xF0 ≤ b && b ≤ 0xF4 then
    match rest with
    | b₁ :: rest₁ =>
      if isSecond b b₁ then
        match rest₁ with
        | b₂ :: rest₂ =>
          if isCont b₂ then
            match rest₂ with
            | b₃ :: rest₃ =>
              if isCont b₃ then
                (.char (Char.ofNat (b.toNat % 8 * 262144 + contBits b₁ * 4096 +
                  contBits b₂ * 64 + contBits b₃)), rest₃)
              else (.malformed [b, b₁, b₂], rest₂)
            | [] => (.malformed [b, b₁, b₂], rest₂)
          else (.malformed [b, b₁], rest₁)
        | [] => (.malformed [b, b₁], rest₁)
      else (.malformed [b], rest)
    | [] => (.malformed [b], rest)
  else (.malformed [b], rest)

def piecesUpTo : Nat → List UInt8 → List Piece
  | 0, _ => []
  | _, [] => []
  | n + 1, b :: rest => (front b rest).1 :: piecesUpTo n (front b rest).2

def pieces (bs : List UInt8) : List Piece := piecesUpTo bs.length bs

/-- `std::str::from_utf8`: the text of a well-formed byte string. -/
def fromUtf8 (bs : List UInt8) : Option (List Char) :=
  (pieces bs).mapM fun
    | .char c => some c
    | .malformed _ => none

def replacement : Char := '\uFFFD'

/-- `String::from_utf8_lossy`: a malformed sequence becomes one `U+FFFD`. -/
def fromUtf8Lossy (bs : List UInt8) : List Char :=
  (pieces bs).map fun
    | .char c => c
    | .malformed _ => replacement

/-- One item of `utf8_chunks`: a valid text and the malformed sequence after it. -/
structure Chunk where
  valid : List Char
  invalid : List UInt8
  deriving DecidableEq, Repr

def chunksOf : List Piece → List Chunk
  | [] => []
  | .malformed bs :: ps => ⟨[], bs⟩ :: chunksOf ps
  | .char c :: ps =>
    match chunksOf ps with
    | [] => [⟨[c], []⟩]
    | k :: ks => ⟨c :: k.valid, k.invalid⟩ :: ks

def utf8Chunks (bs : List UInt8) : List Chunk := chunksOf (pieces bs)

/-! ## Byte offsets in a text -/

/-- The least character boundary of the text at or after byte `n`. -/
def ceilBoundary : List Char → Nat → Nat
  | _, 0 => 0
  | [], n => n
  | c :: cs, n => c.utf8Size + ceilBoundary cs (n - c.utf8Size)

/-- The text from byte `n` on, for a character boundary `n`. -/
def dropBytes : List Char → Nat → List Char
  | cs, 0 => cs
  | [], _ => []
  | c :: cs, n => dropBytes cs (n - c.utf8Size)

end Utf8
