import McpSerial.Matching.Window

/-! The end of the echoed line: where it is in the stream, and how a matcher whose
window slides over the stream keeps track of it. -/

namespace McpSerial
open Utf8 Sliding

/-! ## The boundary of a byte string -/

theorem windowPosition_eq_some {pat raw : List UInt8} {k : Nat} (hpat : pat ≠ []) :
    windowPosition pat raw = some k ↔ FirstEnd pat raw (k + pat.length) := by
  have hlen : 0 < pat.length := List.length_pos_iff.mpr hpat
  induction raw generalizing k with
  | nil =>
    have hempty : windowPosition pat [] = none := if_neg (by simpa using hpat)
    rw [hempty]
    refine ⟨nofun, fun h => ?_⟩
    have hle : k + pat.length ≤ 0 := h.ends.1
    omega
  | cons b raw ih =>
    rw [windowPosition]
    by_cases hprefix : pat <+: b :: raw
    · rw [if_pos (List.isPrefixOf_iff_prefix.mpr hprefix)]
      have hfirst : FirstEnd pat (b :: raw) pat.length :=
        ⟨endsAt_length.mpr hprefix, fun q hq => hq.length_le⟩
      constructor
      · rintro ⟨⟩
        rwa [Nat.zero_add]
      · intro h
        have hk : k = 0 := by
          have heq := h.unique hfirst
          omega
        rw [hk]
    · rw [if_neg fun h => hprefix (List.isPrefixOf_iff_prefix.mp h)]
      -- nothing ends at the first position, so the rest is searched
      have hwhole : ∀ q, EndsAt pat (b :: raw) q → 1 + pat.length ≤ q := by
        intro q hq
        have hle := hq.length_le
        by_cases heq : q = pat.length
        · exact absurd (endsAt_length.mp (heq ▸ hq)) hprefix
        · omega
      have hshift (j : Nat) : FirstEnd pat raw (j + pat.length) ↔
          FirstEnd pat (b :: raw) (j + 1 + pat.length) := by
        rw [show j + 1 + pat.length = 1 + (j + pat.length) by omega]
        have hone : 1 ≤ (b :: raw).length := Nat.succ_le_of_lt (List.length_pos_of_ne_nil nofun)
        exact firstEnd_drop hone hwhole
      constructor
      · intro h
        obtain ⟨j, hj, rfl⟩ := Option.map_eq_some_iff.mp h
        exact (hshift j).mp (ih.mp hj)
      · intro h
        have hk := hwhole _ h.ends
        obtain ⟨j, rfl⟩ : ∃ j, k = j + 1 := ⟨k - 1, by omega⟩
        exact Option.map_eq_some_iff.mpr ⟨j, ih.mpr ((hshift j).mpr h), rfl⟩

theorem LineEnding.bytes_eq_nil {e : LineEnding} : e.bytes = [] ↔ e = .none := by
  cases e <;> simp [LineEnding.bytes]

theorem LineEnding.bytes_length_le (e : LineEnding) : e.bytes.length ≤ 2 := by
  cases e <;> simp [LineEnding.bytes]

section Boundary

variable {raw : List UInt8} {e : LineEnding} {p : Nat}

theorem echoLineBoundary_eq_some :
    echoLineBoundary raw e = some p ↔ e ≠ .none ∧ FirstEnd e.bytes raw p := by
  unfold echoLineBoundary
  by_cases he : e.bytes = []
  · simp [LineEnding.bytes_eq_nil.mp he, LineEnding.bytes]
  · have hne : e ≠ .none := fun h => he (LineEnding.bytes_eq_nil.mpr h)
    have hempty : ¬e.bytes.isEmpty = true := by simpa using he
    simp only [if_neg hempty, Option.map_eq_some_iff, windowPosition_eq_some he]
    constructor
    · rintro ⟨k, hk, rfl⟩
      exact ⟨hne, hk⟩
    · rintro ⟨_, h⟩
      have hle := h.ends.length_le
      exact ⟨p - e.bytes.length, by rwa [Nat.sub_add_cancel hle], Nat.sub_add_cancel hle⟩

theorem echoLineBoundary_eq_none :
    echoLineBoundary raw e = none ↔ e = .none ∨ ∀ q, ¬EndsAt e.bytes raw q := by
  rw [Option.eq_none_iff_forall_ne_some]
  simp only [ne_eq, echoLineBoundary_eq_some, not_and]
  constructor
  · intro h
    by_cases he : e = .none
    · exact .inl he
    · refine .inr fun q hq => ?_
      obtain ⟨p, hp⟩ := hq.exists_first
      exact h p he hp
  · rintro (rfl | h) p hne hp
    · exact hne rfl
    · exact h p hp.ends

theorem echoLineBoundary_append (h : echoLineBoundary raw e = some p) (data : List UInt8) :
    echoLineBoundary (raw ++ data) e = some p := by
  obtain ⟨hne, hfirst⟩ := echoLineBoundary_eq_some.mp h
  exact echoLineBoundary_eq_some.mpr ⟨hne, hfirst.append data⟩

theorem echoLineBoundary_le (h : echoLineBoundary raw e = some p) : p ≤ raw.length :=
  (echoLineBoundary_eq_some.mp h).2.ends.1

/-- A window that all terminators of the stream are whole in has the boundary of the stream. -/
theorem echoLineBoundary_drop {k : Nat} (hk : k ≤ raw.length)
    (hwhole : ∀ q, EndsAt e.bytes raw q → k + e.bytes.length ≤ q) :
    echoLineBoundary raw e = (echoLineBoundary (raw.drop k) e).map (k + ·) := by
  cases hdrop : echoLineBoundary (raw.drop k) e with
  | some b =>
    obtain ⟨hne, hfirst⟩ := echoLineBoundary_eq_some.mp hdrop
    exact echoLineBoundary_eq_some.mpr ⟨hne, (firstEnd_drop hk hwhole).mp hfirst⟩
  | none =>
    refine echoLineBoundary_eq_none.mpr ((echoLineBoundary_eq_none.mp hdrop).imp_right ?_)
    intro hnone q hq
    have hle := hwhole q hq
    apply hnone (q - k)
    exact (endsAt_drop hk).mpr ⟨by rwa [Nat.add_sub_cancel' (by omega)], by omega⟩

end Boundary

/-! ## The matcher and the stream -/

def slid (stream : List UInt8) : Nat := stream.length - maxReadBuffer

/-- A matcher that was given `stream`, and what the loop knows of the echo boundary. -/
structure Tracks (regex : Regex) (echoMode : EchoMode) (e : LineEnding) (stream : List UInt8)
    (m : PatternMatcher) (seen : Bool) : Prop where
  in_bounds : m.InBounds
  regex_eq : m.regex = regex
  capacity : m.maxBuffer = maxReadBuffer
  live : m.live = stream.rtake maxReadBuffer
  waiting : seen = false → echoMode = .line ∧ echoLineBoundary stream e = none
  crossed : seen = true → echoMode = .line →
    ∃ p, echoLineBoundary stream e = some p ∧ m.searchStart = p - slid stream
  whole : seen = false ∨ echoMode ≠ .line → m.searchStart = 0

section Tracks

variable {regex : Regex} {echoMode : EchoMode} {e : LineEnding} {stream data : List UInt8}
  {m : PatternMatcher} {seen : Bool}

theorem Tracks.initial : Tracks regex echoMode e [] { regex, maxBuffer := maxReadBuffer }
    (echoMode ≠ .line) where
  in_bounds := Nat.le_refl 0
  regex_eq := rfl
  capacity := rfl
  live := rfl
  waiting h := by
    have hline : echoMode = .line := by simpa using h
    refine ⟨hline, echoLineBoundary_eq_none.mpr ?_⟩
    by_cases he : e = .none
    · exact .inl he
    · refine .inr fun q hq => he (LineEnding.bytes_eq_nil.mp ?_)
      exact List.suffix_nil.mp (by simpa using hq.2)
  crossed h hline := by simp [hline] at h
  whole _ := rfl

theorem Tracks.live_push (h : Tracks regex echoMode e stream m seen) :
    (m.pushWithoutMatching data).live = (stream ++ data).rtake maxReadBuffer := by
  rw [PatternMatcher.live_push h.in_bounds, h.live, h.capacity, rtake_append_rtake]

theorem Tracks.searchStart_push (h : Tracks regex echoMode e stream m seen) {p : Nat}
    (hp : m.searchStart = p - slid stream) :
    (m.pushWithoutMatching data).searchStart = p - slid (stream ++ data) := by
  rw [PatternMatcher.searchStart_push h.in_bounds, hp, h.live, h.capacity, rtake_length]
  simp only [slid, List.length_append]
  omega

theorem Tracks.pushed (h : Tracks regex echoMode e stream m true) :
    Tracks regex echoMode e (stream ++ data) (m.pushWithoutMatching data) true where
  in_bounds := h.in_bounds.push
  regex_eq := by rw [PatternMatcher.push_regex, h.regex_eq]
  capacity := by rw [PatternMatcher.push_maxBuffer, h.capacity]
  live := h.live_push
  waiting := nofun
  crossed _ hline := by
    obtain ⟨p, hp, hstart⟩ := h.crossed rfl hline
    exact ⟨p, echoLineBoundary_append hp data, h.searchStart_push hstart⟩
  whole hor := by
    rw [PatternMatcher.searchStart_push h.in_bounds, h.whole hor, Nat.zero_sub]

/-- As long as the stream has no terminator, one that a chunk completes is whole in the
window: a chunk is shorter than the window and a terminator has two bytes at most. -/
theorem whole_in_window (he : e ≠ .none) (hnone : echoLineBoundary stream e = none)
    (hdata : data.length < maxReadBuffer) (q : Nat) (hq : EndsAt e.bytes (stream ++ data) q) :
    slid (stream ++ data) + e.bytes.length ≤ q := by
  have hafter : stream.length < q := by
    by_contra hle
    exact (echoLineBoundary_eq_none.mp hnone).resolve_left he q (hq.of_append (by omega))
  have hlen := hq.length_le
  have hterminator := e.bytes_length_le
  simp only [slid, List.length_append]
  omega

/-- Until the terminator shows, the boundary of the window is that of the stream. -/
theorem Tracks.boundary_push (h : Tracks regex echoMode e stream m false)
    (hdata : data.length < maxReadBuffer) : echoLineBoundary (stream ++ data) e =
      (echoLineBoundary (m.pushWithoutMatching data).live e).map (slid (stream ++ data) + ·) := by
  have hnone := (h.waiting rfl).2
  rw [h.live_push]
  by_cases he : e = .none
  · subst he
    rfl
  · exact echoLineBoundary_drop (Nat.sub_le ..) (whole_in_window he hnone hdata)

theorem Tracks.waited (h : Tracks regex echoMode e stream m false)
    (hdata : data.length < maxReadBuffer)
    (hnone : echoLineBoundary (m.pushWithoutMatching data).live e = none) :
    Tracks regex echoMode e (stream ++ data) (m.pushWithoutMatching data) false where
  in_bounds := h.in_bounds.push
  regex_eq := by rw [PatternMatcher.push_regex, h.regex_eq]
  capacity := by rw [PatternMatcher.push_maxBuffer, h.capacity]
  live := h.live_push
  waiting _ := ⟨(h.waiting rfl).1, by rw [h.boundary_push hdata, hnone]; rfl⟩
  crossed := nofun
  whole _ := by
    rw [PatternMatcher.searchStart_push h.in_bounds, h.whole (.inl rfl), Nat.zero_sub]

theorem Tracks.cross (h : Tracks regex echoMode e stream m false)
    (hdata : data.length < maxReadBuffer)
    {boundary : Nat}
    (hsome : echoLineBoundary (m.pushWithoutMatching data).live e = some boundary) :
    Tracks regex echoMode e (stream ++ data)
      ((m.pushWithoutMatching data).setSearchStart boundary) true where
  in_bounds := h.in_bounds.push
  regex_eq := by
    rw [PatternMatcher.setSearchStart_regex, PatternMatcher.push_regex, h.regex_eq]
  capacity := by
    show (m.pushWithoutMatching data).maxBuffer = _
    rw [PatternMatcher.push_maxBuffer, h.capacity]
  live := h.live_push
  waiting := nofun
  crossed _ _ := by
    refine ⟨slid (stream ++ data) + boundary, by rw [h.boundary_push hdata, hsome]; rfl, ?_⟩
    show min boundary _ = _
    rw [Nat.add_sub_cancel_left]
    exact Nat.min_eq_left (echoLineBoundary_le hsome)
  whole hor := by
    rcases hor with hfalse | hline
    · cases hfalse
    · exact absurd (h.waiting rfl).1 hline

end Tracks
end McpSerial
