import Mathlib.Order.Monotone.Defs
import McpSerial.Matching.Window
import McpSerial.Text.Boundaries

/-! Where `decode_lossy_at` (`serial/parser.rs`) lands in the lossy text, and its agreement
with the fast path of `match_details`. -/

namespace McpSerial
open Utf8

/-! ## The mapped offset -/

theorem mapOffset_mono (ps : List Piece) : Monotone (mapOffset ps) := by
  induction ps with
  | nil => exact fun _ _ _ => Nat.le_refl 0
  | cons p ps ih =>
    intro m n hmn
    cases p with
    | char c =>
      have hrest : mapOffset ps (m - c.utf8Size) ≤ mapOffset ps (n - c.utf8Size) :=
        ih (Nat.sub_le_sub_right hmn _)
      unfold mapOffset
      split_ifs <;> omega
    | malformed bytes =>
      have hrest : mapOffset ps (m - bytes.length) ≤ mapOffset ps (n - bytes.length) :=
        ih (Nat.sub_le_sub_right hmn _)
      unfold mapOffset
      split_ifs <;> omega

def RestOfPiece (before : List Piece) (skipped : List UInt8) : Prop :=
  skipped = [] ∨ ∃ front piece, before = front ++ [piece] ∧ skipped <:+ piece.raw

theorem RestOfPiece.cons {before : List Piece} {skipped : List UInt8}
    (h : RestOfPiece before skipped) (p : Piece) : RestOfPiece (p :: before) skipped := by
  rcases h with rfl | ⟨front, piece, rfl, hsuffix⟩
  · exact .inl rfl
  · exact .inr ⟨p :: front, piece, rfl, hsuffix⟩

/-- Offset `n` is mapped to the cut between `before` and `after`. -/
structure Lands (ps : List Piece) (n : Nat) (before after : List Piece) (skipped : List UInt8) :
    Prop where
  split : ps = before ++ after
  mapped : mapOffset ps n = len (before.map Piece.shown)
  bytes : (ps.flatMap Piece.raw).drop n = skipped ++ after.flatMap Piece.raw
  rest : RestOfPiece before skipped

section Lands

variable {p : Piece} {ps before after : List Piece} {n : Nat} {skipped : List UInt8}

theorem lands_inside (hn : n ≤ p.raw.length) (hmap : mapOffset (p :: ps) n = p.shown.utf8Size) :
    Lands (p :: ps) n [p] ps (p.raw.drop n) where
  split := rfl
  mapped := hmap
  bytes := by rw [List.flatMap_cons, List.drop_append_of_le_length hn]
  rest := .inr ⟨[], p, rfl, List.drop_suffix ..⟩

theorem Lands.behind (h : Lands ps (n - p.raw.length) before after skipped)
    (hn : p.raw.length ≤ n)
    (hmap : mapOffset (p :: ps) n = p.shown.utf8Size + mapOffset ps (n - p.raw.length)) :
    Lands (p :: ps) n (p :: before) after skipped where
  split := congrArg (p :: ·) h.split
  mapped := by rw [hmap, h.mapped, List.map_cons, len_cons]
  bytes := by
    rw [List.flatMap_cons, List.drop_append, List.drop_eq_nil_of_le hn, List.nil_append, h.bytes]
  rest := h.rest.cons p

/-- An offset is mapped to a cut between two pieces, and from the offset to the cut there is
at most the rest of one piece. -/
theorem exists_lands (ps : List Piece) (n : Nat) :
    ∃ before after skipped, Lands ps n before after skipped := by
  induction ps generalizing n with
  | nil => exact ⟨[], [], [], rfl, rfl, List.drop_nil, .inl rfl⟩
  | cons p ps ih =>
    obtain ⟨before, after, skipped, h⟩ := ih (n - p.raw.length)
    cases p with
    | char c =>
      have hraw : (Piece.char c).raw.length = c.utf8Size := String.length_utf8EncodeChar c
      rcases Nat.eq_zero_or_pos n with rfl | hpos
      · exact ⟨[], .char c :: ps, [], rfl, rfl, rfl, .inl rfl⟩
      · have hne : ¬n = 0 := Nat.ne_of_gt hpos
        by_cases hn : n < c.utf8Size
        · have hmap : mapOffset (.char c :: ps) n = c.utf8Size := by
            rw [mapOffset, if_neg hne, if_pos hn, Nat.add_zero]
          exact ⟨_, _, _, lands_inside (by omega) hmap⟩
        · have hmap : mapOffset (.char c :: ps) n =
              c.utf8Size + mapOffset ps (n - (Piece.char c).raw.length) := by
            rw [mapOffset, if_neg hne, if_neg hn, hraw]
          exact ⟨_, _, _, h.behind (by omega) hmap⟩
    | malformed bytes =>
      by_cases hn : n ≤ bytes.length
      · have hmap : mapOffset (.malformed bytes :: ps) n = replacement.utf8Size := by
          rw [mapOffset, if_pos hn, Nat.add_zero]
        exact ⟨_, _, _, lands_inside hn hmap⟩
      · have hmap : mapOffset (.malformed bytes :: ps) n =
            replacement.utf8Size + mapOffset ps (n - bytes.length) := by
          rw [mapOffset, if_neg hn]
        exact ⟨_, _, _, h.behind (Nat.le_of_not_le hn) hmap⟩

end Lands

/-! ## The decoded text -/

/-- The text from byte `m` on decodes `rest`: what `raw` has from byte `n` on without
`skipped`, which is nothing or the rest of one character or of one malformed sequence. -/
structure ResumesAt (raw : List UInt8) (n m : Nat) (skipped rest : List UInt8) : Prop where
  bytes : raw.drop n = skipped ++ rest
  text : dropBytes (fromUtf8Lossy raw) m = fromUtf8Lossy rest
  piece : skipped = [] ∨ ∃ before piece after, pieces raw = before ++ piece :: after ∧
    skipped <:+ piece.raw ∧ rest = after.flatMap Piece.raw

theorem exists_resumesAt (raw : List UInt8) (n : Nat) :
    ∃ skipped rest, ResumesAt raw n (decodeLossyAt raw n).2 skipped rest := by
  obtain ⟨before, after, skipped, h⟩ := exists_lands (pieces raw) (min n raw.length)
  have hdrop : raw.drop (min n raw.length) = raw.drop n := by
    rcases Nat.le_total n raw.length with hn | hn
    · rw [Nat.min_eq_left hn]
    · rw [Nat.min_eq_right hn, List.drop_length, List.drop_eq_nil_of_le hn]
  have hbytes := h.bytes
  rw [flatMap_raw_pieces, hdrop] at hbytes
  refine ⟨skipped, after.flatMap Piece.raw, hbytes, ?_, ?_⟩
  · rw [decodeLossyAt_eq, h.mapped, fromUtf8Lossy_eq, fromUtf8Lossy_eq, pieces_behind h.split,
      h.split, List.map_append, dropBytes_append]
  · rcases h.rest with hnone | ⟨front, piece, rfl, hsuffix⟩
    · exact .inl hnone
    · refine .inr ⟨front, piece, after, ?_, hsuffix, rfl⟩
      rw [h.split, List.append_assoc, List.singleton_append]

/-! ## The fast path -/

def fastPath (raw : List UInt8) (searchStart : Nat) : Option (List Char × Nat) := do
  let text ← fromUtf8 raw
  let searchStart ← roundUp text (len text + 1) (min searchStart (len text))
  return (text, searchStart)

theorem fastPath_eq {raw : List UInt8} {text : List Char} (h : fromUtf8 raw = some text)
    (n : Nat) : fastPath raw n = some (decodeLossyAt raw n) := by
  have hloop : roundUp text (len text + 1) (min n (len text)) =
      some (ceilBoundary text (min n (len text))) :=
    roundUp_eq (Nat.min_le_right ..) (by omega)
  rw [decodeLossyAt_eq, mapOffset_of_fromUtf8 h, fromUtf8Lossy_of_fromUtf8 h, fastPath, h]
  simp only [Option.bind_eq_bind, Option.bind_some, hloop]
  rfl

/-- `decode_lossy_at` returns the lossy decoding with a boundary in it that is monotone in the
offset and skips at most the rest of one piece; the fast path has the same text and the same
boundary, so that both find the same match. -/
theorem decodeLossyAt_offsets (raw : List UInt8) :
    (∀ n, (decodeLossyAt raw n).1 = fromUtf8Lossy raw ∧
      IsBoundary (fromUtf8Lossy raw) (decodeLossyAt raw n).2 ∧
      ∃ skipped rest, ResumesAt raw n (decodeLossyAt raw n).2 skipped rest) ∧
    (Monotone fun n => (decodeLossyAt raw n).2) ∧
    (∀ text, fromUtf8 raw = some text → ∀ n, fastPath raw n = some (decodeLossyAt raw n)) ∧
    ∀ m : PatternMatcher, m.live = raw → m.matchDetails =
      m.findFrom (decodeLossyAt raw m.searchStart).1 (decodeLossyAt raw m.searchStart).2 := by
  refine ⟨fun n => ⟨?_, ?_, exists_resumesAt raw n⟩, ?_, ?_, ?_⟩
  · rw [decodeLossyAt_eq]
  · rw [decodeLossyAt_eq, fromUtf8Lossy_eq]
    exact mapOffset_isBoundary ..
  · intro n n' hn
    show (decodeLossyAt raw n).2 ≤ (decodeLossyAt raw n').2
    rw [decodeLossyAt_eq, decodeLossyAt_eq]
    exact mapOffset_mono _ (by omega)
  · exact fun text h n => fastPath_eq h n
  · rintro m rfl
    rw [decodeLossyAt_eq, PatternMatcher.matchDetails_eq]

/-- A search start inside the first of two characters. -/
theorem decodeLossyAt_offsets_inside :
    fastPath [0xc3, 0xa9, 0x61] 1 = some (decodeLossyAt [0xc3, 0xa9, 0x61] 1) ∧
      decodeLossyAt [0xc3, 0xa9, 0x61] 1 = (['é', 'a'], 2) ∧
      ∃ m : PatternMatcher, m.live = [0xc3, 0xa9, 0x61] ∧ m.searchStart = 1 ∧
        m.matchDetails = m.findFrom ['é', 'a'] 2 := by
  let m : PatternMatcher :=
    { regex := anyChar, buffer := [0xc3, 0xa9, 0x61], searchStart := 1, maxBuffer := 8 }
  have h := decodeLossyAt_offsets [0xc3, 0xa9, 0x61]
  have hdecode : decodeLossyAt [0xc3, 0xa9, 0x61] 1 = (['é', 'a'], 2) := by decide
  have hmatch := h.2.2.2 m rfl
  refine ⟨h.2.2.1 ['é', 'a'] (by decide) 1, hdecode, m, rfl, rfl, ?_⟩
  rw [hmatch]
  show m.findFrom (decodeLossyAt [0xc3, 0xa9, 0x61] 1).1 _ = _
  rw [hdecode]

/-- A lone `0xFF` between two letters, and a sequence of three bytes without its last. -/
example : [0, 1, 2, 3, 4, 5, 9].map (decodeLossyAt [0x61, 0xff, 0x62, 0xe2, 0x82]) =
    [0, 4, 4, 8, 8, 8, 8].map fun m => (['a', replacement, 'b', replacement], m) := by decide

end McpSerial
