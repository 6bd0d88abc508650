import McpSerial.Parser
import McpSerial.Text.Lossy
import McpSerial.Text.Sliding

/-! The window of a pattern matcher, and the text in which it looks for a match. -/

namespace McpSerial
open Utf8 Sliding

/-! ## The window -/

namespace PatternMatcher

variable {m : PatternMatcher} {data : List UInt8}

def InBounds (m : PatternMatcher) : Prop := m.head ≤ m.buffer.length

theorem live_length (m : PatternMatcher) : m.live.length = m.buffer.length - m.head :=
  List.length_drop

theorem intoBuffer_eq (m : PatternMatcher) : m.intoBuffer = m.live := rfl

section Compact

@[simp] theorem compact_regex : m.compact.regex = m.regex := by
  unfold compact
  split <;> rfl

@[simp] theorem compact_maxBuffer : m.compact.maxBuffer = m.maxBuffer := by
  unfold compact
  split <;> rfl

@[simp] theorem compact_searchStart : m.compact.searchStart = m.searchStart := by
  unfold compact
  split <;> rfl

@[simp] theorem compact_live : m.compact.live = m.live := by
  unfold compact
  split
  · exact List.drop_zero
  · rfl

theorem InBounds.compact (h : m.InBounds) : m.compact.InBounds := by
  unfold PatternMatcher.compact
  split
  · exact Nat.zero_le _
  · exact h

end Compact

@[simp] theorem push_regex : (m.pushWithoutMatching data).regex = m.regex := by
  unfold pushWithoutMatching
  rw [compact_regex]
  split <;> rfl

@[simp] theorem push_maxBuffer : (m.pushWithoutMatching data).maxBuffer = m.maxBuffer := by
  unfold pushWithoutMatching
  rw [compact_maxBuffer]
  split <;> rfl

theorem InBounds.push (h : m.InBounds) : (m.pushWithoutMatching data).InBounds := by
  unfold InBounds at h
  apply InBounds.compact
  unfold InBounds
  split
  · simp only [List.length_append]
    omega
  · simp only [List.length_append]
    omega

/-- A push keeps the last `maxBuffer` bytes of the window and what is pushed. -/
theorem live_push (h : m.InBounds) :
    (m.pushWithoutMatching data).live = (m.live ++ data).rtake m.maxBuffer := by
  unfold InBounds at h
  have hlive : m.live ++ data = (m.buffer ++ data).drop m.head :=
    (List.drop_append_of_le_length h).symm
  unfold pushWithoutMatching
  rw [compact_live, hlive, List.rtake, List.drop_drop, List.length_drop]
  split
  · rfl
  next hfits =>
    rw [Nat.sub_eq_zero_of_le (Nat.le_of_not_lt hfits)]
    rfl

/-- The search start moves back by what a push drops from the front. -/
theorem searchStart_push (h : m.InBounds) : (m.pushWithoutMatching data).searchStart =
    m.searchStart - (m.live.length + data.length - m.maxBuffer) := by
  unfold InBounds at h
  have hlen : m.live.length + data.length = (m.buffer ++ data).length - m.head := by
    rw [live_length, List.length_append]
    omega
  unfold pushWithoutMatching
  rw [compact_searchStart, hlen]
  split
  · rfl
  next hfits => rw [Nat.sub_eq_zero_of_le (Nat.le_of_not_lt hfits)]; rfl

@[simp] theorem setSearchStart_regex (n : Nat) : (m.setSearchStart n).regex = m.regex := rfl

end PatternMatcher

/-! ## Where the search starts in the decoded window -/

/-- The text offset that `decode_lossy_at` gives an offset in the bytes of the pieces. An
offset at the front of a malformed sequence lands behind its `U+FFFD`. -/
def mapOffset : List Piece → Nat → Nat
  | [], _ => 0
  | .char c :: ps, n =>
    if n = 0 then 0
    else c.utf8Size + if n < c.utf8Size then 0 else mapOffset ps (n - c.utf8Size)
  | .malformed bytes :: ps, n =>
    replacement.utf8Size + if n ≤ bytes.length then 0 else mapOffset ps (n - bytes.length)

theorem mapOffset_isBoundary (ps : List Piece) (n : Nat) :
    IsBoundary (ps.map Piece.shown) (mapOffset ps n) := by
  induction ps generalizing n with
  | nil => exact isBoundary_zero []
  | cons p ps ih =>
    have hafter (c : Char) (k : Nat) (hk : IsBoundary (ps.map Piece.shown) k) :
        IsBoundary (c :: ps.map Piece.shown) (c.utf8Size + k) := by
      simpa [len] using hk.append_left [c]
    cases p with
    | char c =>
      unfold mapOffset
      split_ifs
      · exact isBoundary_zero _
      · exact hafter c 0 (isBoundary_zero _)
      · exact hafter c _ (ih _)
    | malformed bytes =>
      unfold mapOffset
      split_ifs
      · exact hafter replacement 0 (isBoundary_zero _)
      · exact hafter replacement _ (ih _)

theorem le_mapOffset {ps : List Piece} (hps : ∀ p ∈ ps, p.raw ≠ []) (qs : List Piece) :
    len (ps.map Piece.shown) ≤ mapOffset (ps ++ qs) (ps.map fun p => p.raw.length).sum := by
  induction ps with
  | nil => exact Nat.zero_le _
  | cons p ps ih =>
    have ih := ih fun q hq => hps q (List.mem_cons_of_mem p hq)
    rw [List.map_cons, len_cons, List.map_cons, List.sum_cons, List.cons_append]
    cases p with
    | char c =>
      have hpos := c.utf8Size_pos
      have hraw : (Piece.char c).raw.length = c.utf8Size := String.length_utf8EncodeChar c
      rw [mapOffset, hraw, if_neg (by omega), if_neg (by omega), Nat.add_sub_cancel_left]
      exact Nat.add_le_add_left ih _
    | malformed bytes =>
      rw [mapOffset]
      refine Nat.add_le_add_left ?_ _
      show _ ≤ if bytes.length + _ ≤ bytes.length then 0 else mapOffset _ (bytes.length + _ - _)
      cases ps with
      | nil => exact Nat.zero_le _
      | cons q ps =>
        have hraw : 0 < q.raw.length := List.length_pos_iff.mpr (hps q (by simp))
        rw [if_neg (by simp only [List.map_cons, List.sum_cons]; omega), Nat.add_sub_cancel_left]
        exact ih

theorem len_le_mapOffset {b : UInt8} (hb : b.toNat < 128) (xs ys : List UInt8) :
    len (fromUtf8Lossy (xs ++ [b])) ≤
      mapOffset (pieces (xs ++ [b] ++ ys)) (xs ++ [b]).length := by
  rw [fromUtf8Lossy_eq, pieces_append_of_ascii hb, ← sum_raw_length (xs ++ [b])]
  exact le_mapOffset (fun p hp => raw_ne_nil_of_mem hp) _

/-- Within a valid text the offset moves up to the next character boundary. -/
theorem mapOffset_chars (cs : List Char) (ps : List Piece) (n : Nat) :
    mapOffset (cs.map .char ++ ps) n =
      if n < len cs then ceilBoundary cs n else len cs + mapOffset ps (n - len cs) := by
  induction cs generalizing n with
  | nil => simp [len]
  | cons c cs ih =>
    have hpos := c.utf8Size_pos
    rw [List.map_cons, List.cons_append, mapOffset, ih, len_cons]
    rcases Nat.eq_zero_or_pos n with rfl | hn
    · rw [if_pos rfl, if_pos (by omega), ceilBoundary]
    · have hceil : ceilBoundary (c :: cs) n = c.utf8Size + ceilBoundary cs (n - c.utf8Size) := by
        cases n with
        | zero => cases hn
        | succ n => rfl
      rw [if_neg (by omega), hceil]
      split_ifs with h₁ h₂ h₃ h₃
      · rw [Nat.sub_eq_zero_of_le (Nat.le_of_lt h₁)]
        simp [ceilBoundary]
      · omega
      · rfl
      · omega
      · omega
      · rw [Nat.sub_sub]
        omega

/-- The pieces of a chunk of `utf8_chunks`. -/
def chunkPieces (k : Chunk) : List Piece :=
  k.valid.map .char ++ if k.invalid.isEmpty then [] else [.malformed k.invalid]

theorem flatMap_chunkPieces {ps : List Piece} (h : ∀ p ∈ ps, p.raw ≠ []) :
    (chunksOf ps).flatMap chunkPieces = ps := by
  induction ps with
  | nil => rfl
  | cons p ps ih =>
    have ih := ih fun q hq => h q (List.mem_cons_of_mem p hq)
    cases p with
    | malformed bytes =>
      have hbytes : bytes ≠ [] := h _ List.mem_cons_self
      rw [chunksOf, List.flatMap_cons, ih]
      simp [chunkPieces, hbytes]
    | char c =>
      rw [chunksOf]
      cases hks : chunksOf ps with
      | nil =>
        rw [hks] at ih
        rw [← ih]
        rfl
      | cons k ks =>
        rw [hks] at ih
        rw [← ih]
        rfl

theorem decodeLossyFrom_some (n : Nat) (ks : List Chunk) (text : List Char) (pos k : Nat) :
    decodeLossyFrom n ks text pos (some k) =
      (text ++ (ks.flatMap chunkPieces).map Piece.shown, some k) := by
  induction ks generalizing text pos with
  | nil => simp [decodeLossyFrom]
  | cons chunk ks ih =>
    have hshown : chunk.valid.map (Piece.shown ∘ Piece.char) = chunk.valid := List.map_id _
    rw [decodeLossyFrom]
    dsimp only
    split_ifs with hempty
    · rw [ih]
      simp [chunkPieces, hempty, hshown]
    · rw [ih]
      simp [chunkPieces, hempty, hshown, Piece.shown]

theorem decodeLossyFrom_none (n : Nat) (ks : List Chunk) (text : List Char) (pos : Nat) :
    ∃ mapped, decodeLossyFrom (pos + n) ks text pos none =
        (text ++ (ks.flatMap chunkPieces).map Piece.shown, mapped) ∧
      mapped.getD (len (text ++ (ks.flatMap chunkPieces).map Piece.shown)) =
        len text + mapOffset (ks.flatMap chunkPieces) n := by
  induction ks generalizing n text pos with
  | nil => exact ⟨none, by simp [decodeLossyFrom], by simp [mapOffset]⟩
  | cons chunk ks ih =>
    have hshown : chunk.valid.map (Piece.shown ∘ Piece.char) = chunk.valid := List.map_id _
    rw [List.flatMap_cons, chunkPieces, List.append_assoc, mapOffset_chars, decodeLossyFrom]
    simp only [Nat.add_lt_add_iff_left, Nat.add_sub_cancel_left]
    by_cases hvalid : n < len chunk.valid
    · -- the offset lies in the valid part of the chunk
      simp only [if_pos hvalid, decodeLossyFrom_some]
      refine ⟨some (len text + ceilBoundary chunk.valid n), ?_, rfl⟩
      split_ifs <;> simp [hshown, Piece.shown]
    · simp only [if_neg hvalid]
      split_ifs with hempty hinside
      -- nothing is malformed behind the valid part, which the offset has passed
      · obtain ⟨mapped, hdecode, hmapped⟩ := ih (n - len chunk.valid) (text ++ chunk.valid)
          (pos + len chunk.valid)
        have htext : text ++ (chunk.valid.map Piece.char ++ ([] ++ ks.flatMap chunkPieces)).map
            Piece.shown = text ++ chunk.valid ++ (ks.flatMap chunkPieces).map Piece.shown := by
          simp [hshown]
        have hpos : pos + n = pos + len chunk.valid + (n - len chunk.valid) := by omega
        rw [htext, hpos]
        refine ⟨mapped, hdecode, ?_⟩
        rw [hmapped, len_append, List.nil_append, Nat.add_assoc]
      · -- the offset is at the front of the malformed sequence or inside it
        rw [decodeLossyFrom_some]
        refine ⟨some (len (text ++ chunk.valid ++ [replacement])), ?_, ?_⟩
        · simp [hshown, Piece.shown]
        · have hle : n - len chunk.valid ≤ chunk.invalid.length := by omega
          rw [Option.getD_some, List.singleton_append, mapOffset, if_pos hle, len_append,
            len_append, Nat.add_zero, Nat.add_assoc]
          rfl
      · obtain ⟨mapped, hdecode, hmapped⟩ := ih (n - len chunk.valid - chunk.invalid.length)
          (text ++ chunk.valid ++ [replacement]) (pos + len chunk.valid + chunk.invalid.length)
        have htext : text ++ (chunk.valid.map Piece.char ++ ([Piece.malformed chunk.invalid] ++
            ks.flatMap chunkPieces)).map Piece.shown = text ++ chunk.valid ++ [replacement] ++
            (ks.flatMap chunkPieces).map Piece.shown := by
          simp [hshown, Piece.shown]
        have hpos : pos + n = pos + len chunk.valid + chunk.invalid.length +
            (n - len chunk.valid - chunk.invalid.length) := by omega
        have hgt : ¬n - len chunk.valid ≤ chunk.invalid.length := by omega
        rw [htext, hpos]
        refine ⟨mapped, hdecode, ?_⟩
        rw [hmapped, List.singleton_append, mapOffset, if_neg hgt, len_append, len_append,
          Nat.add_assoc, Nat.add_assoc]
        rfl

theorem decodeLossyAt_eq (raw : List UInt8) (n : Nat) :
    decodeLossyAt raw n = (fromUtf8Lossy raw, mapOffset (pieces raw) (min n raw.length)) := by
  have hpieces := flatMap_chunkPieces fun p (hp : p ∈ pieces raw) => raw_ne_nil_of_mem hp
  obtain ⟨mapped, hdecode, hmapped⟩ :=
    decodeLossyFrom_none (min n raw.length) (chunksOf (pieces raw)) [] 0
  rw [hpieces, Nat.zero_add, List.nil_append, ← fromUtf8Lossy_eq] at hdecode
  rw [hpieces, List.nil_append, ← fromUtf8Lossy_eq] at hmapped
  rw [decodeLossyAt, utf8Chunks, hdecode]
  show (fromUtf8Lossy raw, mapped.getD (len (fromUtf8Lossy raw))) = _
  rw [hmapped]
  exact congrArg _ (Nat.zero_add _)

theorem mapOffset_of_fromUtf8 {raw : List UInt8} {text : List Char}
    (h : fromUtf8 raw = some text) (n : Nat) :
    mapOffset (pieces raw) (min n raw.length) = ceilBoundary text (min n (len text)) := by
  have hlen : raw.length = len text := by
    rw [← encode_length, encode_of_fromUtf8 h]
  have hmap := mapOffset_chars text [] (min n (len text))
  rw [List.append_nil] at hmap
  rw [fromUtf8_eq_some.mp h, hlen, hmap]
  split_ifs with hin
  · rfl
  · have hall : min n (len text) = len text := by omega
    rw [hall, ceilBoundary_of_isBoundary (isBoundary_len _), Nat.sub_self]
    rfl

/-! ## The search -/

def MatchDetails.shift (n : Nat) (d : MatchDetails) : MatchDetails :=
  { d with startByte := n + d.startByte, endByte := n + d.endByte }

/-- The match that a search of the whole `text` reports. -/
def leftmost (regex : Regex) (text : List Char) : Option MatchDetails :=
  (regex.find text).map fun found =>
    { text := found.hit
      startByte := len found.before
      endByte := len found.before + len found.hit }

theorem isSome_leftmost (regex : Regex) (text : List Char) :
    (leftmost regex text).isSome = regex.isMatch text := by
  simp [leftmost, Regex.isMatch]

def MatchDetails.SliceOf (d : MatchDetails) (text : List Char) : Prop :=
  ∃ before after, text = before ++ d.text ++ after ∧ d.startByte = len before ∧
    d.endByte = len before + len d.text

theorem sliceOf_of_leftmost {regex : Regex} {text : List Char} {d : MatchDetails}
    (h : leftmost regex text = some d) : d.SliceOf text := by
  obtain ⟨found, _, rfl⟩ := Option.map_eq_some_iff.mp h
  exact ⟨found.before, found.after, found.cut.symm, rfl, rfl⟩

theorem MatchDetails.SliceOf.shift {d : MatchDetails} {text : List Char} (h : d.SliceOf text)
    (cs : List Char) : (d.shift (len cs)).SliceOf (cs ++ text) := by
  obtain ⟨before, after, rfl, hstart, hend⟩ := h
  refine ⟨cs ++ before, after, by simp [MatchDetails.shift], ?_, ?_⟩
  · rw [len_append, ← hstart]
    rfl
  · show len cs + d.endByte = _
    rw [len_append, hend, Nat.add_assoc]
    rfl

namespace PatternMatcher

theorem findFrom_append (m : PatternMatcher) (cs ds : List Char) :
    m.findFrom (cs ++ ds) (len cs) = (leftmost m.regex ds).map (·.shift (len cs)) := by
  rw [findFrom, dropBytes_append, leftmost, Option.map_map]
  refine Option.map_congr fun found _ => ?_
  simp [MatchDetails.shift, Nat.add_assoc]

/-- The search of the window, whichever way it is decoded. -/
theorem matchDetails_eq (m : PatternMatcher) :
    m.matchDetails = m.findFrom (fromUtf8Lossy m.live)
      (mapOffset (pieces m.live) (min m.searchStart m.live.length)) := by
  unfold matchDetails
  cases hstrict : fromUtf8 m.live with
  | none => rw [decodeLossyAt_eq]
  | some text => rw [fromUtf8Lossy_of_fromUtf8 hstrict, mapOffset_of_fromUtf8 hstrict]

theorem matchDetails_slice {m : PatternMatcher} {d : MatchDetails} (h : m.matchDetails = some d) :
    d.SliceOf (fromUtf8Lossy m.live) ∧
      mapOffset (pieces m.live) (min m.searchStart m.live.length) ≤ d.startByte := by
  rw [matchDetails_eq, fromUtf8Lossy_eq] at h
  obtain ⟨cs, ds, htext, hlen⟩ :=
    mapOffset_isBoundary (pieces m.live) (min m.searchStart m.live.length)
  rw [htext, ← hlen, findFrom_append] at h
  obtain ⟨d', hd', rfl⟩ := Option.map_eq_some_iff.mp h
  rw [fromUtf8Lossy_eq, htext, ← hlen]
  exact ⟨(sliceOf_of_leftmost hd').shift cs, Nat.le_add_right ..⟩

end PatternMatcher

/-! ## What a sequence of pushes is searched for -/

def pushAll (m : PatternMatcher) (pushes : List (List UInt8)) : PatternMatcher :=
  pushes.foldl (fun m data => (m.push data).2) m

def pushedWindow (maxBuffer : Nat) (pushes : List (List UInt8)) : List UInt8 :=
  pushes.flatten.rtake maxBuffer

/-- After the pushes the matcher reports what a search of the whole window finds. -/
structure Covers (regex : Regex) (maxBuffer : Nat) (pushes : List (List UInt8)) : Prop where
  is_match : (pushAll { regex, maxBuffer } pushes).isMatch =
    regex.isMatch (fromUtf8Lossy (pushedWindow maxBuffer pushes))
  details : (pushAll { regex, maxBuffer } pushes).matchDetails =
    leftmost regex (fromUtf8Lossy (pushedWindow maxBuffer pushes))
  push : ∀ before data, pushes = before ++ [data] →
    ((pushAll { regex, maxBuffer } before).push data).1 =
      regex.isMatch (fromUtf8Lossy (pushedWindow maxBuffer pushes))

def StartsMalformed (bs : List UInt8) : Prop := ∃ bytes ps, pieces bs = .malformed bytes :: ps

/-- For `regex` the first character of `text` makes no difference. -/
def IgnoresFirst (regex : Regex) (text : List Char) : Prop :=
  leftmost regex text = (leftmost regex text.tail).map (·.shift (len (text.take 1)))

section Covers

variable {regex : Regex} {maxBuffer : Nat} {pushes : List (List UInt8)}

theorem pushAll_concat (m : PatternMatcher) (pushes : List (List UInt8)) (data : List UInt8) :
    pushAll m (pushes ++ [data]) = ((pushAll m pushes).push data).2 := by
  simp [pushAll]

/-- The matcher of a sequence of pushes: its window, and a search start that never moved. -/
theorem pushAll_spec (regex : Regex) (maxBuffer : Nat) (pushes : List (List UInt8)) :
    let m := pushAll { regex, maxBuffer } pushes
    m.InBounds ∧ m.regex = regex ∧ m.maxBuffer = maxBuffer ∧ m.searchStart = 0 ∧
      m.live = pushedWindow maxBuffer pushes := by
  induction pushes using List.reverseRecOn with
  | nil =>
    have hempty : pushedWindow maxBuffer [] = [] := List.drop_nil
    exact ⟨Nat.le_refl 0, rfl, rfl, rfl, hempty.symm⟩
  | append_singleton pushes data ih =>
    obtain ⟨hbounds, hregex, hmax, hstart, hlive⟩ := ih
    rw [pushAll_concat, PatternMatcher.push]
    refine ⟨hbounds.push, ?_, ?_, ?_, ?_⟩
    · rw [PatternMatcher.push_regex, hregex]
    · rw [PatternMatcher.push_maxBuffer, hmax]
    · rw [PatternMatcher.searchStart_push hbounds, hstart, Nat.zero_sub]
    · rw [PatternMatcher.live_push hbounds, hlive, hmax, pushedWindow, rtake_append_rtake]
      simp [pushedWindow]

theorem pushAll_matchDetails : (pushAll { regex, maxBuffer } pushes).matchDetails =
    (pushAll { regex, maxBuffer } pushes).findFrom
      (fromUtf8Lossy (pushedWindow maxBuffer pushes))
      (mapOffset (pieces (pushedWindow maxBuffer pushes)) 0) := by
  obtain ⟨_, _, _, hstart, hlive⟩ := pushAll_spec regex maxBuffer pushes
  rw [PatternMatcher.matchDetails_eq, hlive, hstart, Nat.zero_min]

theorem covers_iff_details : Covers regex maxBuffer pushes ↔
    (pushAll { regex, maxBuffer } pushes).matchDetails =
      leftmost regex (fromUtf8Lossy (pushedWindow maxBuffer pushes)) := by
  refine ⟨Covers.details, fun h => ?_⟩
  have hmatch : (pushAll { regex, maxBuffer } pushes).isMatch =
      regex.isMatch (fromUtf8Lossy (pushedWindow maxBuffer pushes)) := by
    rw [PatternMatcher.isMatch, h, isSome_leftmost]
  refine ⟨hmatch, h, ?_⟩
  rintro before data rfl
  rw [← hmatch, pushAll_concat]
  rfl

theorem covers_of_not_startsMalformed
    (h : ¬StartsMalformed (pushedWindow maxBuffer pushes)) : Covers regex maxBuffer pushes := by
  have hzero : mapOffset (pieces (pushedWindow maxBuffer pushes)) 0 = 0 := by
    cases hpieces : pieces (pushedWindow maxBuffer pushes) with
    | nil => rfl
    | cons p ps =>
      cases p with
      | char c => rfl
      | malformed bytes => exact absurd ⟨bytes, ps, hpieces⟩ h
  rw [covers_iff_details, pushAll_matchDetails, hzero]
  have hfind := (pushAll { regex, maxBuffer } pushes).findFrom_append []
    (fromUtf8Lossy (pushedWindow maxBuffer pushes))
  rw [(pushAll_spec regex maxBuffer pushes).2.1] at hfind
  refine hfind.trans ?_
  simp [MatchDetails.shift, len]

/-- A window that starts with a malformed sequence is searched behind its `U+FFFD`. -/
theorem covers_iff_ignoresFirst (h : StartsMalformed (pushedWindow maxBuffer pushes)) :
    Covers regex maxBuffer pushes ↔
      IgnoresFirst regex (fromUtf8Lossy (pushedWindow maxBuffer pushes)) := by
  obtain ⟨bytes, ps, hpieces⟩ := h
  have htext : fromUtf8Lossy (pushedWindow maxBuffer pushes) =
      [replacement] ++ ps.map Piece.shown := by
    rw [fromUtf8Lossy_eq, hpieces]
    rfl
  have hstart : mapOffset (pieces (pushedWindow maxBuffer pushes)) 0 = len [replacement] := by
    rw [hpieces, mapOffset, if_pos (Nat.zero_le _)]
    rfl
  rw [covers_iff_details, pushAll_matchDetails, hstart, htext, PatternMatcher.findFrom_append,
    (pushAll_spec regex maxBuffer pushes).2.1]
  exact eq_comm

def anyChar : Regex where
  find
    | [] => none
    | c :: cs => some ⟨[], [c], cs, rfl⟩

theorem not_ignoresFirst_anyChar (cs : List Char) : ¬IgnoresFirst anyChar (replacement :: cs) := by
  intro h
  cases cs with
  | nil => cases h
  | cons c cs =>
    have hstart := congrArg (Option.map MatchDetails.startByte) h
    cases hstart

/-- A search of the window misses nothing unless the window starts with a malformed
sequence and the regex sees its `U+FFFD`. -/
theorem covers_iff (maxBuffer : Nat) (pushes : List (List UInt8)) :
    (∀ regex, Covers regex maxBuffer pushes ↔
      ¬StartsMalformed (pushedWindow maxBuffer pushes) ∨
        IgnoresFirst regex (fromUtf8Lossy (pushedWindow maxBuffer pushes))) ∧
    ((∀ regex, Covers regex maxBuffer pushes) ↔
      ¬StartsMalformed (pushedWindow maxBuffer pushes)) := by
  have hregex (regex : Regex) : Covers regex maxBuffer pushes ↔
      ¬StartsMalformed (pushedWindow maxBuffer pushes) ∨
        IgnoresFirst regex (fromUtf8Lossy (pushedWindow maxBuffer pushes)) := by
    by_cases h : StartsMalformed (pushedWindow maxBuffer pushes)
    · rw [covers_iff_ignoresFirst h]
      exact ⟨.inr, fun hor => hor.resolve_left (not_not_intro h)⟩
    · exact ⟨fun _ => .inl h, fun _ => covers_of_not_startsMalformed h⟩
  refine ⟨hregex, fun hall h => ?_, fun h regex => covers_of_not_startsMalformed h⟩
  obtain ⟨bytes, ps, hpieces⟩ := h
  apply not_ignoresFirst_anyChar (ps.map Piece.shown)
  have hcovers := (covers_iff_ignoresFirst ⟨bytes, ps, hpieces⟩).mp (hall anyChar)
  rw [fromUtf8Lossy_eq, hpieces] at hcovers
  exact hcovers

/-- One byte of line noise, and a regex that matches any character: the window holds one
`U+FFFD`, and no match is reported. -/
theorem lone_noise_unmatched : ¬Covers anyChar maxReadBuffer [[0xFF]] := by
  intro h
  have hpush := h.push [] [0xFF] rfl
  revert hpush
  decide

end Covers

end McpSerial
