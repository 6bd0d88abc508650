import McpSerial.Osc.Places

/-! What terminal normalization shows of the OSC 3008 markers that the byte scanner
recognises: nothing, unless a marker stands in an unfinished CSI sequence. -/

namespace McpSerial
open Utf8

/-- What a marker of a transcript contributes to its normalized output. -/
def OscMarker.shown (m : OscMarker) (raw : List UInt8) : List Char :=
  normalizer.segment (fromUtf8Lossy (raw.drop m.stop)) (scanned (fromUtf8Lossy (raw.take m.start)))
    (fromUtf8Lossy ((raw.take m.stop).drop m.start))

def OscKind.header : OscKind → List Char
  | .start => "start=".toList
  | .stop => "end=".toList

def OscTerminator.chars : OscTerminator → List Char
  | .bel => ['\x07']
  | .st => ['\x1b', '\\']

/-! ## A marker as text -/

theorem fromUtf8Lossy_oscPrefix (xs ys : List UInt8) :
    fromUtf8Lossy (xs ++ oscPrefix ++ ys) =
      fromUtf8Lossy xs ++ ['\x1b', ']', '3', '0', '0', '8', ';'] ++ fromUtf8Lossy ys := by
  have hhead : xs ++ oscPrefix ++ ys =
      xs ++ 0x1b :: 0x5d :: 0x33 :: 0x30 :: 0x30 :: 0x38 :: 0x3b :: ys := by simp [oscPrefix]
  rw [hhead, fromUtf8Lossy_append_ascii (by decide), List.append_assoc]
  simp only [fromUtf8Lossy_cons_ascii (b := 0x5d) (by decide),
    fromUtf8Lossy_cons_ascii (b := 0x33) (by decide),
    fromUtf8Lossy_cons_ascii (b := 0x30) (by decide),
    fromUtf8Lossy_cons_ascii (b := 0x38) (by decide),
    fromUtf8Lossy_cons_ascii (b := 0x3b) (by decide)]
  rfl

theorem fromUtf8Lossy_terminator (t : OscTerminator) (xs ys : List UInt8) :
    fromUtf8Lossy (xs ++ t.bytes ++ ys) = fromUtf8Lossy xs ++ t.chars ++ fromUtf8Lossy ys := by
  cases t with
  | bel =>
    have hhead : xs ++ OscTerminator.bel.bytes ++ ys = xs ++ 0x07 :: ys := by
      simp [OscTerminator.bytes]
    rw [hhead, fromUtf8Lossy_append_ascii (by decide), List.append_assoc]
    rfl
  | st =>
    have hhead : xs ++ OscTerminator.st.bytes ++ ys = xs ++ 0x1b :: 0x5c :: ys := by
      simp [OscTerminator.bytes]
    rw [hhead, fromUtf8Lossy_append_ascii (by decide), fromUtf8Lossy_cons_ascii (by decide),
      List.append_assoc]
    rfl

theorem oscHeader_eq_some {first id : List Char} {kind : OscKind}
    (h : oscHeader first = some (kind, id)) : first = kind.header ++ id := by
  have hstrip {pre cs rest : List Char} (h : stripPrefix pre cs = some rest) :
      cs = pre ++ rest := by
    unfold stripPrefix at h
    split at h
    next hpre =>
      obtain ⟨tail, rfl⟩ := List.isPrefixOf_iff_prefix.mp hpre
      rw [List.drop_left] at h
      rw [Option.some.inj h]
    next => cases h
  unfold oscHeader at h
  split at h
  next id' hstart =>
    cases h
    exact hstrip hstart
  next =>
    obtain ⟨id', hend, heq⟩ := Option.map_eq_some_iff.mp h
    cases heq
    exact hstrip hend

theorem parseOscMarker_header {start stop : Nat} {text : List Char} {m : OscMarker}
    (h : parseOscMarker start stop text = some m) : m.kind.header <+: text := by
  unfold parseOscMarker at h
  split at h
  next => cases h
  next first fields hsplit =>
    split at h
    next => cases h
    next kind id hheader =>
      split at h
      · cases h
      · cases h
        have hfirst := oscHeader_eq_some hheader
        exact (List.prefix_append _ id).trans (hfirst ▸ splitFields_head hsplit)

/-! ## What the scanner shows of it -/

theorem segment_osc {body : List Char} (hbody : ¬OscClosed body) (rest : List Char) :
    normalizer.segment rest (.osc false) body = [] := by
  induction body using List.reverseRecOn generalizing rest with
  | nil => rfl
  | append_singleton body c ih =>
    rw [oscClosed_concat, not_or] at hbody
    rw [normalizer.segment_append, ih hbody.1, state_osc hbody.1]
    rfl

theorem state_terminator (prevEsc : Bool) (t : OscTerminator) (rest : List Char) :
    normalizer.state (.osc prevEsc) t.chars = .text ∧
      normalizer.segment rest (.osc prevEsc) t.chars = [] := by
  cases t with
  | bel => simp [OscTerminator.chars, scanNext, scanEmit]
  | st => simp [OscTerminator.chars, scanNext, scanEmit]

def oscOpening : List Char := ['\x1b', ']', '3', '0', '0', '8', ';']

theorem state_opening {s : Scan} (hs : s ≠ .csi) : normalizer.state s oscOpening = .osc false := by
  cases s with
  | text => rfl
  | esc => rfl
  | osc prevEsc => simp [oscOpening, scanNext]
  | csi => exact absurd rfl hs

theorem segment_opening {s : Scan} (hs : s ≠ .csi) (rest : List Char) :
    normalizer.segment rest s oscOpening = [] := by
  cases s with
  | text => rfl
  | esc => rfl
  | osc prevEsc => simp [oscOpening, scanNext, scanEmit]
  | csi => exact absurd rfl hs

/-- Outside a CSI sequence the scanner skips a marker to its end. -/
theorem segment_hidden {s : Scan} (hs : s ≠ .csi) {text : List Char} (htext : ¬OscClosed text)
    (t : OscTerminator) (rest : List Char) :
    normalizer.segment rest s (oscOpening ++ text ++ t.chars) = [] := by
  rw [normalizer.segment_append, normalizer.segment_append, segment_opening hs, state_opening hs,
    segment_osc htext, normalizer.state_append, state_opening hs, state_osc htext,
    (state_terminator _ t rest).2]
  rfl

theorem state_hidden {s : Scan} (hs : s ≠ .csi) {text : List Char} (htext : ¬OscClosed text)
    (t : OscTerminator) : normalizer.state s (oscOpening ++ text ++ t.chars) = .text := by
  rw [normalizer.state_append, normalizer.state_append, state_opening hs, state_osc htext,
    (state_terminator _ t []).1]

/-- In a CSI sequence the bracket of a marker ends that sequence, and what follows is text. -/
theorem segment_exposed {kind : OscKind} {text : List Char} (htext : kind.header <+: text)
    (t : OscTerminator) (rest : List Char) :
    ∃ tail, normalizer.segment rest .csi (oscOpening ++ text ++ t.chars) =
      ['3', '0', '0', '8', ';'] ++ kind.header ++ tail := by
  obtain ⟨fields, rfl⟩ := htext
  have hclean : ∀ c ∈ kind.header, c ≠ '\x1b' ∧ c ≠ '\r' := by
    cases kind with
    | start => exact List.forall_iff_forall_mem.mp (by decide)
    | stop => exact List.forall_iff_forall_mem.mp (by decide)
  have hopen : normalizer.state .csi oscOpening = .text := rfl
  have hshown (rest : List Char) :
      normalizer.segment rest .csi oscOpening = ['3', '0', '0', '8', ';'] := rfl
  rw [List.append_assoc, List.append_assoc, normalizer.segment_append, hopen, hshown,
    normalizer.segment_append, segment_clean _ hclean, ← List.append_assoc]
  exact ⟨_, rfl⟩

/-! ## The recognised markers -/

theorem marker_text {raw : List UInt8} {markers : List OscMarker}
    (h : osc3008Markers raw = some markers) {m : OscMarker} (hm : m ∈ markers) :
    ∃ text t, fromUtf8Lossy ((raw.take m.stop).drop m.start) =
        oscOpening ++ text ++ OscTerminator.chars t ∧ ¬OscClosed text ∧ m.kind.header <+: text ∧
      fromUtf8Lossy (raw.take m.stop) =
        fromUtf8Lossy (raw.take m.start) ++ (oscOpening ++ text ++ t.chars) ∧
      fromUtf8Lossy raw =
        fromUtf8Lossy (raw.take m.stop) ++ fromUtf8Lossy (raw.drop m.stop) := by
  obtain ⟨front, text, t, rest, hat⟩ := exists_markerAt h hm
  obtain ⟨hparse, hstop⟩ := hat.parsed h hm
  have hlossy : fromUtf8Lossy (encode text) = text :=
    fromUtf8Lossy_of_fromUtf8 (fromUtf8_encode text)
  have hnil : fromUtf8Lossy [] = [] := by rw [fromUtf8Lossy_eq, pieces_nil, List.map_nil]
  have htake : raw.take m.start = front := by
    rw [hat.start, hat.eq, List.append_assoc, List.take_left]
  have hdrop : raw.drop m.stop = rest := by rw [hstop, hat.eq, List.drop_left]
  have hupto : raw.take m.stop = front ++ oscPrefix ++ (encode text ++ t.bytes ++ []) := by
    rw [hstop, hat.eq, List.take_left, oscMarkerBytes]
    simp
  have hslice : (raw.take m.stop).drop m.start =
      [] ++ oscPrefix ++ (encode text ++ t.bytes ++ []) := by
    rw [hupto, hat.start, List.append_assoc, List.drop_left, List.nil_append]
  have hraw : raw = front ++ oscPrefix ++ (encode text ++ t.bytes ++ rest) := by
    rw [hat.eq, oscMarkerBytes]
    simp
  refine ⟨text, t, ?_, unterminated_encode_iff.mp hat.unterminated, parseOscMarker_header hparse,
    ?_, ?_⟩
  · rw [hslice, fromUtf8Lossy_oscPrefix, fromUtf8Lossy_terminator, hlossy, hnil]
    simp [oscOpening]
  · rw [hupto, htake, fromUtf8Lossy_oscPrefix, fromUtf8Lossy_terminator, hlossy, hnil]
    simp [oscOpening]
  · rw [hdrop, hupto, hraw, fromUtf8Lossy_oscPrefix, fromUtf8Lossy_oscPrefix,
      fromUtf8Lossy_terminator, fromUtf8Lossy_terminator, hnil]
    simp

/-- A recognised marker contributes nothing to the normalized output if and only if what is
before it does not end in an unfinished CSI sequence. There it is as if cut out of the
transcript; in such a sequence its body is shown. -/
theorem osc3008_marker_shown {raw : List UInt8} {markers : List OscMarker}
    (h : osc3008Markers raw = some markers) :
    ∀ m ∈ markers,
      normalizeTerminalOutput (fromUtf8Lossy raw) =
        normalizeTerminalOutput (fromUtf8Lossy (raw.take m.start)) ++ m.shown raw ++
          normalizer.run (scanned (fromUtf8Lossy (raw.take m.stop)))
            (fromUtf8Lossy (raw.drop m.stop)) ∧
      (m.shown raw = [] ↔ ¬OpenCsi (fromUtf8Lossy (raw.take m.start))) ∧
      (¬OpenCsi (fromUtf8Lossy (raw.take m.start)) →
        normalizeTerminalOutput (fromUtf8Lossy raw) =
          normalizeTerminalOutput (fromUtf8Lossy (raw.take m.start)) ++
            normalizeTerminalOutput (fromUtf8Lossy (raw.drop m.stop))) ∧
      (OpenCsi (fromUtf8Lossy (raw.take m.start)) →
        ∃ tail, m.shown raw = ['3', '0', '0', '8', ';'] ++ m.kind.header ++ tail) := by
  intro m hm
  obtain ⟨text, t, hmarker, htext, hheader, hupto, hraw⟩ := marker_text h hm
  have hshown : m.shown raw = normalizer.segment (fromUtf8Lossy (raw.drop m.stop))
      (scanned (fromUtf8Lossy (raw.take m.start))) (oscOpening ++ text ++ t.chars) := by
    rw [OscMarker.shown, hmarker]
  have hsplit : normalizeTerminalOutput (fromUtf8Lossy raw) =
      normalizeTerminalOutput (fromUtf8Lossy (raw.take m.start)) ++ m.shown raw ++
        normalizer.run (scanned (fromUtf8Lossy (raw.take m.stop)))
          (fromUtf8Lossy (raw.drop m.stop)) := by
    -- the marker does not start with a line feed, which a CR before it would wait for
    have hhead : (oscOpening ++ text ++ t.chars ++ fromUtf8Lossy (raw.drop m.stop)).head? ≠
        some '\n' := by simp [oscOpening]
    have hscan : scanned (fromUtf8Lossy (raw.take m.stop)) =
        normalizer.state (scanned (fromUtf8Lossy (raw.take m.start)))
          (oscOpening ++ text ++ t.chars) := by
      rw [hupto]
      exact normalizer.state_append _ _ _
    rw [hscan, hraw, hupto, List.append_assoc, normalizeTerminalOutput_append hhead,
      normalizer.run_append, ← hshown]
    simp only [List.append_assoc]
  have hhidden (hopen : ¬OpenCsi (fromUtf8Lossy (raw.take m.start))) : m.shown raw = [] := by
    rw [hshown]
    exact segment_hidden (mt scanned_eq_csi.mp hopen) htext t _
  have hexposed (hopen : OpenCsi (fromUtf8Lossy (raw.take m.start))) :
      ∃ tail, m.shown raw = ['3', '0', '0', '8', ';'] ++ m.kind.header ++ tail := by
    rw [hshown, scanned_eq_csi.mpr hopen]
    exact segment_exposed hheader t _
  refine ⟨hsplit, ⟨fun hnone hopen => ?_, hhidden⟩, fun hopen => ?_, hexposed⟩
  · obtain ⟨tail, hshows⟩ := hexposed hopen
    rw [hnone] at hshows
    cases hshows
  · have hstate : scanned (fromUtf8Lossy (raw.take m.stop)) = .text := by
      rw [hupto, scanned, normalizer.state_append]
      exact state_hidden (mt scanned_eq_csi.mp hopen) htext t
    rw [hsplit, hhidden hopen, hstate, List.append_nil, ← normalizeFrom_eq,
      ← normalizeTerminalOutput]

/-- A marker behind a prompt. -/
theorem osc3008_marker_shown_prompt :
    (startMarker ['i', 'd'] 2 31).shown
      ([0x24, 0x20] ++ oscMarkerBytes (startBody ['i', 'd']) .bel ++ [0x6f, 0x6b]) = [] := by
  have hmarkers : osc3008Markers ([0x24, 0x20] ++ oscMarkerBytes (startBody ['i', 'd']) .bel ++
      [0x6f, 0x6b]) = some [startMarker ['i', 'd'] 2 31] := by decide +kernel
  refine (osc3008_marker_shown hmarkers _ (List.mem_singleton_self _)).2.1.mpr ?_
  rw [← scanned_eq_csi]
  decide +kernel

/-- A marker behind the bytes that open a CSI sequence: the scanner takes its bracket for
the end of that sequence. -/
theorem osc3008_marker_exposed :
    ¬∀ raw markers, osc3008Markers raw = some markers → ∀ m ∈ markers, m.shown raw = [] := by
  intro h
  have hmarkers : osc3008Markers ([0x1b, 0x5b] ++ oscMarkerBytes (startBody ['i', 'd']) .bel) =
      some [startMarker ['i', 'd'] 2 31] := by decide +kernel
  have hshown : (startMarker ['i', 'd'] 2 31).shown
      ([0x1b, 0x5b] ++ oscMarkerBytes (startBody ['i', 'd']) .bel) =
        "3008;start=id;type=command\x07".toList := by decide +kernel
  have hnone := h _ _ hmarkers _ (List.mem_singleton_self _)
  rw [hshown] at hnone
  exact absurd hnone (by decide)

end McpSerial
