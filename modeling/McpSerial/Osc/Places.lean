import McpSerial.Osc.Command
import McpSerial.Terminal.Normalization

/-! Where a recognised marker stands in its transcript, and the transcript with another body
in its place. -/

namespace McpSerial
open Utf8

/-! ## The fields of a body -/

def joinFields (first : List Char) (fields : List (List Char)) : List Char :=
  first ++ fields.flatMap (';' :: ·)

theorem splitFields_joinFields {first : List Char} {fields : List (List Char)}
    (h : ∀ f ∈ first :: fields, ';' ∉ f) :
    splitFields ';' (joinFields first fields) = first :: fields := by
  induction fields generalizing first with
  | nil =>
    rw [joinFields, List.flatMap_nil, List.append_nil]
    exact splitFields_of_not_mem (h first List.mem_cons_self)
  | cons f fields ih =>
    have htail := ih fun g hg => h g (List.mem_cons_of_mem _ hg)
    exact (splitFields_append (h first List.mem_cons_self) _).trans (congrArg (first :: ·) htail)

theorem exists_joinFields (text : List Char) : ∃ first fields, text = joinFields first fields ∧
    ∀ f ∈ first :: fields, ';' ∉ f := by
  induction text with
  | nil => exact ⟨[], [], rfl, by simp⟩
  | cons c text ih =>
    obtain ⟨first, fields, rfl, hfree⟩ := ih
    by_cases hc : c = ';'
    · refine ⟨[], first :: fields, by rw [hc]; rfl, ?_⟩
      intro f hf
      rcases List.mem_cons.mp hf with rfl | hf
      · exact List.not_mem_nil
      · exact hfree f hf
    · refine ⟨c :: first, fields, rfl, ?_⟩
      intro f hf
      rcases List.mem_cons.mp hf with rfl | hf
      · simpa [Ne.symm hc] using hfree first List.mem_cons_self
      · exact hfree f (List.mem_cons_of_mem _ hf)

theorem splitFields_head {cs f : List Char} {fs : List (List Char)}
    (h : splitFields ';' cs = f :: fs) : f <+: cs := by
  obtain ⟨first, fields, rfl, hfree⟩ := exists_joinFields cs
  rw [splitFields_joinFields hfree] at h
  cases h
  exact List.prefix_append ..

/-- The two scanners have one notion of the end of a sequence. -/
theorem unterminated_encode_iff {text : List Char} :
    Unterminated (encode text) ↔ ¬OscClosed text := by
  rw [Unterminated, OscClosed, ← not_or]
  apply not_congr
  constructor
  · rintro (hbel | ⟨front, rest, hst⟩)
    · obtain ⟨c, hc, hval⟩ := exists_char_of_mem_encode (by decide) hbel
      obtain rfl : c = '\x07' := Char.toNat_inj.mp hval
      exact .inl hc
    · have hpieces : text.map Piece.char =
          pieces front ++ .char '\x1b' :: .char '\\' :: pieces rest := by
        rw [← fromUtf8_eq_some.mp (fromUtf8_encode text), ← hst, List.append_assoc]
        change pieces (front ++ 0x1b :: ([] ++ 0x5c :: rest)) = _
        rw [pieces_append_ascii (by decide), pieces_append_ascii (by decide), pieces_nil]
        rfl
      obtain ⟨before, behind, rfl, -, hbehind⟩ := List.map_eq_append_iff.mp hpieces
      obtain ⟨c, behind, rfl, hesc, hbehind⟩ := List.map_eq_cons_iff.mp hbehind
      obtain ⟨d, behind, rfl, hslash, -⟩ := List.map_eq_cons_iff.mp hbehind
      cases hesc
      cases hslash
      exact .inr ⟨before, behind, by simp⟩
  · rintro (hbel | ⟨front, rest, hst⟩)
    · exact .inl (List.mem_flatMap.mpr ⟨'\x07', hbel, by decide⟩)
    · refine .inr ⟨encode front, encode rest, ?_⟩
      rw [← hst, encode_append, encode_append]
      rfl

/-- `raw` is `front`, the marker `m` with the body `text`, and `rest`. -/
structure MarkerAt (raw : List UInt8) (m : OscMarker) (front : List UInt8) (text : List Char)
    (t : OscTerminator) (rest : List UInt8) : Prop where
  eq : raw = front ++ oscMarkerBytes text t ++ rest
  start : m.start = front.length
  unterminated : Unterminated (encode text)

section Places

variable {raw front rest : List UInt8} {markers before after : List OscMarker} {m : OscMarker}
  {text : List Char} {t : OscTerminator}

theorem exists_span (h : osc3008Markers raw = some (before ++ m :: after)) :
    ∃ spans s spans', Markers 0 raw (spans ++ s :: spans') false ∧ s.marker = some m ∧
      spans.map OscSpan.marker = before.map some ∧ spans'.map OscSpan.marker = after.map some := by
  obtain ⟨all, cut, hspans⟩ := exists_markers 0 raw
  obtain ⟨rfl, hmap⟩ := (osc3008Markers_eq_some hspans).mp h
  rw [List.map_append, List.map_cons] at hmap
  obtain ⟨spans, behind, rfl, hbefore, hbehind⟩ := List.map_eq_append_iff.mp hmap
  obtain ⟨s, spans', rfl, hs, hafter⟩ := List.map_eq_cons_iff.mp hbehind
  exact ⟨spans, s, spans', hspans, hs, hbefore, hafter⟩

theorem exists_markerAt (h : osc3008Markers raw = some markers) (hm : m ∈ markers) :
    ∃ front text t rest, MarkerAt raw m front text t rest := by
  obtain ⟨before, after, rfl⟩ := List.append_of_mem hm
  obtain ⟨spans, s, spans', hspans, hmarker, -, -⟩ := exists_span h
  obtain ⟨text, htext, -⟩ := Option.bind_eq_some_iff.mp hmarker
  obtain ⟨front, t, rest, hraw, hbody, hfront, -, -⟩ := hspans.split
  have hencode : encode text = s.body := encode_of_fromUtf8 htext
  refine ⟨front, text, t, rest, ?_, ?_, hencode ▸ hbody⟩
  · rw [hraw, oscMarkerBytes, hencode]
    simp
  · rw [(marker_positions hmarker).1, hfront, Nat.zero_add]

theorem MarkerAt.span (hat : MarkerAt raw m front text t rest)
    (h : osc3008Markers raw = some (before ++ m :: after)) :
    ∃ (spans : List OscSpan) (s : OscSpan) (spans' : List OscSpan), s.marker = some m ∧
      s.body = encode text ∧
      s.stop = (front ++ oscMarkerBytes text t).length ∧
      spans.map OscSpan.marker = before.map some ∧ spans'.map OscSpan.marker = after.map some ∧
      ∀ body, Unterminated body → body.length = (encode text).length →
        Markers 0 (front ++ oscPrefix ++ (body ++ t.bytes ++ rest))
          (spans ++ { s with body } :: spans') false := by
  obtain ⟨spans, s, spans', hspans, hmarker, hbefore, hafter⟩ := exists_span h
  obtain ⟨front', t', rest', hraw, hbody', hfront, hstop, hreplace⟩ := hspans.split
  have hlen : front.length = front'.length := by
    rw [← hat.start, (marker_positions hmarker).1, hfront, Nat.zero_add]
  have heq : front ++ (oscPrefix ++ (encode text ++ t.bytes ++ rest)) =
      front' ++ (oscPrefix ++ (s.body ++ t'.bytes ++ rest')) := by
    rw [← List.append_assoc front', ← hraw, hat.eq, oscMarkerBytes]
    simp
  obtain ⟨rfl, hbehind⟩ := List.append_inj heq hlen
  obtain ⟨hbody, -, rfl⟩ := body_unique hat.unterminated hbody' (List.append_cancel_left hbehind)
  rw [← hbody] at hbehind hstop hreplace
  have hterm : t.bytes = t'.bytes :=
    List.append_cancel_left (List.append_cancel_right (List.append_cancel_left hbehind))
  rw [← hterm] at hstop hreplace
  refine ⟨spans, s, spans', hmarker, hbody.symm, ?_, hbefore, hafter, hreplace⟩
  rw [hstop, hfront, oscMarkerBytes]
  simp only [List.length_append]
  omega

theorem MarkerAt.parsed (hat : MarkerAt raw m front text t rest)
    (h : osc3008Markers raw = some markers) (hm : m ∈ markers) :
    parseOscMarker m.start m.stop text = some m ∧
      m.stop = (front ++ oscMarkerBytes text t).length := by
  obtain ⟨before, after, rfl⟩ := List.append_of_mem hm
  obtain ⟨_, s, _, hmarker, hbody, hstop, -⟩ := hat.span h
  obtain ⟨hmstart, hmstop⟩ := marker_positions hmarker
  refine ⟨?_, hmstop.trans hstop⟩
  rwa [OscSpan.marker, hbody, fromUtf8_encode, Option.bind_some, ← hmstart, ← hmstop] at hmarker

/-- Another body of the same length in a marker's place changes no other marker. -/
theorem MarkerAt.replace (hat : MarkerAt raw m front text t rest)
    (h : osc3008Markers raw = some (before ++ m :: after)) {text' : List Char} {m' : OscMarker}
    (hbody : Unterminated (encode text')) (hlen : (encode text').length = (encode text).length)
    (hparse : parseOscMarker m.start m.stop text' = some m') :
    osc3008Markers (front ++ oscMarkerBytes text' t ++ rest) = some (before ++ m' :: after) := by
  obtain ⟨spans, s, spans', hmarker, -, -, hbefore, hafter, hreplace⟩ := hat.span h
  have hassoc : front ++ oscMarkerBytes text' t ++ rest =
      front ++ oscPrefix ++ (encode text' ++ t.bytes ++ rest) := by
    rw [oscMarkerBytes]
    simp
  rw [hassoc, osc3008Markers_eq_some (hreplace (encode text') hbody hlen)]
  obtain ⟨hmstart, hmstop⟩ := marker_positions hmarker
  have hs : OscSpan.marker { s with body := encode text' } = some m' := by
    rw [OscSpan.marker, fromUtf8_encode, Option.bind_some, ← hmstart, ← hmstop, hparse]
  rw [List.map_append, List.map_cons, List.map_append, List.map_cons, hbefore, hafter, hs]
  exact ⟨rfl, rfl⟩

end Places

end McpSerial
