import McpSerial.Matching.Echo

/-! The OSC 3008 markers of a transcript: how it is cut into them, and which transcripts
hold one command. -/

namespace McpSerial
open Utf8 Sliding

/-! ## The two terminators -/

inductive OscTerminator where
  | bel
  | st
  deriving DecidableEq, Repr

def OscTerminator.bytes : OscTerminator → List UInt8
  | bel => [0x07]
  | st => [0x1b, 0x5c]

def Unterminated (body : List UInt8) : Prop := 0x07 ∉ body ∧ ¬[0x1b, 0x5c] <:+: body

section Terminators

variable {body rest : List UInt8} {b : UInt8} {t : OscTerminator}

theorem unterminated_nil : Unterminated [] := ⟨List.not_mem_nil, by simp⟩

theorem unterminated_cons : Unterminated (b :: body) ↔
    b ≠ 0x07 ∧ ¬(b = 0x1b ∧ body.head? = some 0x5c) ∧ Unterminated body := by
  have hprefix : [0x1b, 0x5c] <+: b :: body ↔ b = 0x1b ∧ body.head? = some 0x5c := by
    cases body <;> simp [eq_comm]
  unfold Unterminated
  rw [List.mem_cons, not_or, List.infix_cons_iff, not_or, hprefix]
  constructor
  · rintro ⟨⟨hb, hbel⟩, hst, htail⟩
    exact ⟨fun h => hb h.symm, hst, hbel, htail⟩
  · rintro ⟨hb, hst, hbel, htail⟩
    exact ⟨⟨fun h => hb h.symm, hbel⟩, hst, htail⟩

theorem head?_append_terminator (h : ¬(b = 0x1b ∧ body.head? = some 0x5c)) :
    ¬(b = 0x1b ∧ (body ++ t.bytes ++ rest).head? = some 0x5c) := by
  rintro ⟨hb, hhead⟩
  cases body with
  | nil => cases t <;> cases hhead
  | cons c body => exact h ⟨hb, hhead⟩

theorem oscEnd_of_unterminated (h : Unterminated body) (i : Nat) : oscEnd i body = none := by
  induction body generalizing i with
  | nil => rfl
  | cons b body ih =>
    obtain ⟨hbel, hst, htail⟩ := unterminated_cons.mp h
    rw [oscEnd, if_neg hbel, if_neg hst]
    exact ih htail _

theorem oscEnd_append (h : Unterminated body) (t : OscTerminator) (rest : List UInt8) (i : Nat) :
    oscEnd i (body ++ t.bytes ++ rest) =
      some (i + body.length, i + body.length + t.bytes.length) := by
  induction body generalizing i with
  | nil => cases t <;> rfl
  | cons b body ih =>
    obtain ⟨hbel, hst, htail⟩ := unterminated_cons.mp h
    rw [List.cons_append, List.cons_append, oscEnd, if_neg hbel,
      if_neg (head?_append_terminator hst), ih htail, List.length_cons]
    have hshift : i + 1 + body.length = i + (body.length + 1) := by omega
    rw [hshift]

theorem exists_terminator (bs : List UInt8) : Unterminated bs ∨
    ∃ body t rest, bs = body ++ OscTerminator.bytes t ++ rest ∧ Unterminated body := by
  induction bs with
  | nil => exact .inl unterminated_nil
  | cons b bs ih =>
    by_cases hbel : b = 0x07
    · exact .inr ⟨[], .bel, bs, by rw [hbel]; rfl, unterminated_nil⟩
    by_cases hst : b = 0x1b ∧ bs.head? = some 0x5c
    · obtain ⟨rfl, hhead⟩ := hst
      obtain ⟨rest, rfl⟩ := List.head?_eq_some_iff.mp hhead
      exact .inr ⟨[], .st, rest, rfl, unterminated_nil⟩
    rcases ih with h | ⟨body, t, rest, rfl, h⟩
    · exact .inl (unterminated_cons.mpr ⟨hbel, hst, h⟩)
    · refine .inr ⟨b :: body, t, rest, rfl, unterminated_cons.mpr ⟨hbel, fun hend => hst ?_, h⟩⟩
      refine ⟨hend.1, ?_⟩
      obtain ⟨tail, rfl⟩ := List.head?_eq_some_iff.mp hend.2
      rfl

end Terminators

/-! ## Where a marker starts -/

def Unmarked (bs : List UInt8) : Prop := ¬oscPrefix <:+: bs

theorem windowPosition_append {gap : List UInt8} (h : Unmarked gap) (rest : List UInt8) :
    windowPosition oscPrefix (gap ++ oscPrefix ++ rest) = some gap.length := by
  have hfirst := firstEnd_append_self (t := [0x5d, 0x33, 0x30, 0x30, 0x38, 0x3b]) (by decide) h rest
  rw [List.length_append] at hfirst
  exact (windowPosition_eq_some (by decide)).mpr hfirst

theorem windowPosition_of_unmarked {bs : List UInt8} (h : Unmarked bs) :
    windowPosition oscPrefix bs = none := by
  refine Option.eq_none_iff_forall_ne_some.mpr fun k hk => h ?_
  exact ((windowPosition_eq_some (by decide)).mp hk).ends.isInfix

theorem exists_prefix (bs : List UInt8) : Unmarked bs ∨
    ∃ gap rest, bs = gap ++ oscPrefix ++ rest ∧ Unmarked gap := by
  by_cases h : oscPrefix <:+: bs
  · obtain ⟨p, hp⟩ := exists_endsAt_iff.mpr h
    obtain ⟨q, hq⟩ := hp.exists_first
    obtain ⟨gap, rest, heq, hgap, _⟩ := hq.exists_append (by decide)
    exact .inr ⟨gap, rest, heq, hgap⟩
  · exact .inl h

/-! ## The markers of a transcript -/

/-- A marker: where it starts, the bytes of its body, and where it stops. -/
structure OscSpan where
  start : Nat
  body : List UInt8
  stop : Nat
  deriving DecidableEq, Repr

def OscSpan.marker (s : OscSpan) : Option OscMarker :=
  (fromUtf8 s.body).bind (parseOscMarker s.start s.stop)

/-- `bs`, which starts at `pos` of a transcript, is cut into gaps without a prefix and into
markers, each from a prefix to the first terminator behind it. The last one may be cut off. -/
inductive Markers : Nat → List UInt8 → List OscSpan → Bool → Prop where
  | plain {pos : Nat} {bs : List UInt8} (unmarked : Unmarked bs) : Markers pos bs [] false
  | cutOff {pos : Nat} {bs gap body : List UInt8} (eq : bs = gap ++ oscPrefix ++ body)
      (unmarked : Unmarked gap) (unterminated : Unterminated body) : Markers pos bs [] true
  | marker {pos : Nat} {bs gap body rest : List UInt8} {t : OscTerminator} {s : OscSpan}
      {spans : List OscSpan} {cut : Bool}
      (eq : bs = gap ++ oscPrefix ++ (body ++ t.bytes ++ rest)) (unmarked : Unmarked gap)
      (unterminated : Unterminated body)
      (span : s = ⟨pos + gap.length, body,
        pos + gap.length + oscPrefix.length + body.length + t.bytes.length⟩)
      (tail : Markers s.stop rest spans cut) : Markers pos bs (s :: spans) cut

section Markers

variable {pos : Nat} {bs : List UInt8} {spans : List OscSpan} {cut : Bool}

theorem exists_markers (pos : Nat) (bs : List UInt8) : ∃ spans cut, Markers pos bs spans cut := by
  induction hn : bs.length using Nat.strong_induction_on generalizing pos bs with
  | _ n ih =>
    rcases exists_prefix bs with hplain | ⟨gap, behind, heq, hgap⟩
    · exact ⟨[], false, .plain hplain⟩
    rcases exists_terminator behind with hcut | ⟨body, t, rest, rfl, hbody⟩
    · exact ⟨[], true, .cutOff heq hgap hcut⟩
    have hlen : rest.length < n := by
      rw [← hn, heq]
      simp only [List.length_append, oscPrefix, List.length_cons]
      omega
    obtain ⟨spans, cut, htail⟩ := ih _ hlen _ rest rfl
    exact ⟨_, cut, .marker heq hgap hbody rfl htail⟩

theorem gap_unique {gap gap' rest rest' : List UInt8} (hgap : Unmarked gap)
    (hgap' : Unmarked gap') (h : gap ++ oscPrefix ++ rest = gap' ++ oscPrefix ++ rest') :
    gap = gap' ∧ rest = rest' := by
  have hpos := windowPosition_append hgap rest
  rw [h, windowPosition_append hgap' rest', Option.some.injEq] at hpos
  rw [List.append_assoc, List.append_assoc] at h
  obtain ⟨rfl, htail⟩ := List.append_inj h hpos.symm
  exact ⟨rfl, List.append_cancel_left htail⟩

theorem body_unique {body body' rest rest' : List UInt8} {t t' : OscTerminator}
    (hbody : Unterminated body) (hbody' : Unterminated body')
    (h : body ++ t.bytes ++ rest = body' ++ t'.bytes ++ rest') :
    body = body' ∧ t.bytes.length = t'.bytes.length ∧ rest = rest' := by
  have hend := oscEnd_append hbody t rest 0
  rw [h, oscEnd_append hbody' t' rest' 0, Option.some.injEq, Prod.mk.injEq] at hend
  rw [List.append_assoc, List.append_assoc] at h
  obtain ⟨rfl, htail⟩ := List.append_inj h (by omega)
  obtain ⟨hbytes, hrest⟩ := List.append_inj htail (by omega)
  exact ⟨rfl, congrArg List.length hbytes, hrest⟩

theorem not_unmarked {gap rest : List UInt8} : ¬Unmarked (gap ++ oscPrefix ++ rest) :=
  fun h => h ⟨gap, rest, rfl⟩

theorem not_unterminated {body rest : List UInt8} {t : OscTerminator} :
    ¬Unterminated (body ++ t.bytes ++ rest) := by
  rintro ⟨hbel, hst⟩
  cases t with
  | bel => exact hbel (by simp [OscTerminator.bytes])
  | st => exact hst ⟨body, rest, rfl⟩

/-- A transcript is cut into markers in one way. -/
theorem Markers.unique {spans' : List OscSpan} {cut' : Bool} (h : Markers pos bs spans cut)
    (h' : Markers pos bs spans' cut') : spans = spans' ∧ cut = cut' := by
  induction h generalizing spans' cut' with
  | plain hplain =>
    cases h' with
    | plain => exact ⟨rfl, rfl⟩
    | cutOff heq => exact absurd (heq ▸ hplain) not_unmarked
    | marker heq => exact absurd (heq ▸ hplain) not_unmarked
  | cutOff heq hgap hbody =>
    subst heq
    cases h' with
    | plain hplain => exact absurd hplain not_unmarked
    | cutOff => exact ⟨rfl, rfl⟩
    | marker heq hgap' =>
      obtain ⟨_, rfl⟩ := gap_unique hgap hgap' heq
      exact absurd hbody not_unterminated
  | marker heq hgap hbody hspan _ ih =>
    subst heq
    cases h' with
    | plain hplain => exact absurd hplain not_unmarked
    | cutOff heq hgap' hbody' =>
      obtain ⟨_, rfl⟩ := gap_unique hgap hgap' heq
      exact absurd hbody' not_unterminated
    | marker heq hgap' hbody' hspan' htail' =>
      obtain ⟨rfl, hbehind⟩ := gap_unique hgap hgap' heq
      obtain ⟨rfl, hlen, rfl⟩ := body_unique hbody hbody' hbehind
      rw [hlen, ← hspan'] at hspan
      subst hspan
      obtain ⟨rfl, rfl⟩ := ih htail'
      exact ⟨rfl, rfl⟩

theorem OscTerminator.bytes_eq_concat (t : OscTerminator) :
    ∃ init last, t.bytes = init ++ [last] ∧ last ∉ oscPrefix := by
  cases t with
  | bel => exact ⟨[], 0x07, rfl, by decide⟩
  | st => exact ⟨[0x1b], 0x5c, rfl, by decide⟩

theorem endsAt_behind {front rest : List UInt8} {t : OscTerminator} {p : Nat}
    (h : EndsAt oscPrefix (front ++ t.bytes ++ rest) p) (hp : (front ++ t.bytes).length < p) :
    EndsAt oscPrefix rest (p - (front ++ t.bytes).length) := by
  obtain ⟨init, last, hbytes, hlast⟩ := t.bytes_eq_concat
  have hlen : oscPrefix.length ≤ p - (front ++ t.bytes).length := by
    by_contra hshort
    -- then the terminator's last byte would be one of the prefix
    have htake : (front ++ t.bytes ++ rest).take p =
        front ++ init ++ (last :: rest.take (p - (front ++ t.bytes).length)) := by
      rw [List.take_append, List.take_of_length_le (by omega), hbytes]
      simp
    have hsuffix := h.2
    rw [htake] at hsuffix
    have hin : last :: rest.take (p - (front ++ t.bytes).length) <:+ oscPrefix := by
      refine List.suffix_of_suffix_length_le (List.suffix_append ..) hsuffix ?_
      rw [List.length_cons, List.length_take]
      omega
    exact hlast (hin.subset List.mem_cons_self)
  have hdrop := (endsAt_drop (k := (front ++ t.bytes).length) (by simp)).mpr
    ⟨(by rwa [Nat.add_sub_cancel' (Nat.le_of_lt hp)] : EndsAt oscPrefix (front ++ t.bytes ++ rest)
      ((front ++ t.bytes).length + (p - (front ++ t.bytes).length))), hlen⟩
  rwa [List.drop_left] at hdrop

theorem Markers.covers (h : Markers pos bs spans cut) (hcut : cut = false) {p : Nat}
    (hp : EndsAt oscPrefix bs p) :
    ∃ s ∈ spans, s.start + oscPrefix.length ≤ pos + p ∧ pos + p ≤ s.stop := by
  induction h generalizing p with
  | plain hplain => exact absurd hp.isInfix hplain
  | cutOff => cases hcut
  | @marker pos bs gap body rest t s spans cut heq hgap _ hspan _ ih =>
    subst heq hspan
    have hfirst : (gap ++ oscPrefix).length ≤ p :=
      (firstEnd_append_self (t := [0x5d, 0x33, 0x30, 0x30, 0x38, 0x3b]) (by decide) hgap _).first
        p hp
    rw [List.length_append] at hfirst
    by_cases hin : p ≤ (gap ++ oscPrefix ++ body ++ t.bytes).length
    · refine ⟨_, List.mem_cons_self, ?_, ?_⟩
      · dsimp only
        omega
      · simp only [List.length_append] at hin
        dsimp only
        omega
    · have hassoc : gap ++ oscPrefix ++ (body ++ t.bytes ++ rest) =
          gap ++ oscPrefix ++ body ++ t.bytes ++ rest := by simp
      rw [hassoc] at hp
      obtain ⟨s, hs, hstart, hstop⟩ := ih hcut (endsAt_behind hp (Nat.lt_of_not_le hin))
      simp only [List.length_append] at hin hstart hstop
      exact ⟨s, List.mem_cons_of_mem _ hs, by omega, by omega⟩

/-- The bytes around a marker. Another body of the same length leaves the other markers where
they are. -/
theorem Markers.split {before after : List OscSpan} {s : OscSpan}
    (h : Markers pos bs (before ++ s :: after) cut) :
    ∃ front t rest, bs = front ++ oscPrefix ++ (s.body ++ OscTerminator.bytes t ++ rest) ∧
      Unterminated s.body ∧ s.start = pos + front.length ∧
      s.stop = s.start + oscPrefix.length + s.body.length + t.bytes.length ∧
      ∀ body, Unterminated body → body.length = s.body.length →
        Markers pos (front ++ oscPrefix ++ (body ++ t.bytes ++ rest))
          (before ++ { s with body } :: after) cut := by
  induction before generalizing pos bs with
  | nil =>
    cases h with
    | @marker _ _ gap body rest t _ _ _ heq hgap hbody hspan htail =>
      subst hspan
      refine ⟨gap, t, rest, heq, hbody, rfl, rfl, fun body' hbody' hlen => ?_⟩
      exact .marker rfl hgap hbody' (by dsimp only; rw [hlen]) htail
  | cons s' before ih =>
    cases h with
    | @marker _ _ gap body rest t' _ _ _ heq hgap hbody hspan htail =>
      obtain ⟨front, t, rest', rfl, hun, hstart, hstop, hreplace⟩ := ih htail
      have hs' := hspan
      subst hspan heq
      refine ⟨gap ++ oscPrefix ++ body ++ t'.bytes ++ front, t, rest', by simp, hun, ?_, hstop,
        fun body' hbody' hlen => ?_⟩
      · dsimp only at hstart
        simp only [List.length_append]
        omega
      · exact .marker (by simp) hgap hbody hs' (hreplace body' hbody' hlen)

end Markers

/-! ## The scan -/

/-- `&raw[start..stop]`, or none where it panics. -/
def slice (raw : List UInt8) (start stop : Nat) : Option (List UInt8) :=
  if start ≤ stop ∧ stop ≤ raw.length then some ((raw.take stop).drop start) else none

/-- The loop of `osc3008_markers` with its slices checked, or none where one of them panics
or the turns are used up. -/
def osc3008MarkersChecked (raw : List UInt8) : Nat → Nat → Option (Option (List OscMarker))
  | 0, _ => none
  | turns + 1, cursor =>
    if raw.length < cursor + oscPrefix.length then some (some [])
    else
      (slice raw cursor raw.length).bind fun behind =>
        match windowPosition oscPrefix behind with
        | none => some (some [])
        | some relative =>
          let start := cursor + relative
          let bodyStart := start + oscPrefix.length
          match oscEnd bodyStart (raw.drop bodyStart) with
          | none => some none
          | some (bodyEnd, markerEnd) =>
            (slice raw bodyStart bodyEnd).bind fun body =>
              match (fromUtf8 body).bind (parseOscMarker start markerEnd) with
              | none => some none
              | some marker =>
                (osc3008MarkersChecked raw turns markerEnd).map (Option.map (marker :: ·))

def parseOneOsc3008CommandChecked (raw : List UInt8) : Option (Option OscCommand) :=
  (osc3008MarkersChecked raw (raw.length + 1) 0).bind fun found =>
    match found with
    | none => some none
    | some markers =>
      match markers.filter fun m => m.kind = .start ∧ m.command with
      | [start] =>
        match markers.filter fun m => m.kind = .stop ∧ m.id = start.id ∧ start.stop ≤ m.start with
        | [stop] =>
          (slice raw start.stop stop.start).map fun output =>
            some { output, status := stop.status, exitCode := stop.exitCode }
        | _ => some none
      | _ => some none

/-- What the scan makes of the markers: nothing unless all of them are whole and parse. -/
def parsed (spans : List OscSpan) (cut : Bool) : Option (List OscMarker) :=
  if cut then none else spans.mapM OscSpan.marker

section Scan

variable {raw bs : List UInt8} {pos turns : Nat} {spans : List OscSpan} {cut : Bool}

theorem parsed_cons (s : OscSpan) (spans : List OscSpan) (cut : Bool) :
    parsed (s :: spans) cut = s.marker.bind fun m => (parsed spans cut).map (m :: ·) := by
  unfold parsed
  cases cut with
  | true => cases s.marker <;> rfl
  | false =>
    rw [if_neg (by decide), if_neg (by decide), List.mapM_cons]
    cases s.marker with
    | none => rfl
    | some m => cases spans.mapM OscSpan.marker <;> rfl

theorem slice_to_end (h : pos ≤ raw.length) : slice raw pos raw.length = some (raw.drop pos) := by
  rw [slice, if_pos ⟨h, Nat.le_refl _⟩, List.take_length]

theorem eq_of_slice {start stop : Nat} {part : List UInt8} (h : slice raw start stop = some part) :
    (raw.take stop).drop start = part := by
  unfold slice at h
  split at h
  · exact Option.some.inj h
  · cases h

theorem slice_eq {front rest : List UInt8} (hpos : pos ≤ raw.length)
    (h : raw.drop pos = front ++ rest) :
    slice raw pos (pos + front.length) = some front ∧ raw.drop (pos + front.length) = rest := by
  have hlen := congrArg List.length h
  rw [List.length_drop, List.length_append] at hlen
  constructor
  · rw [slice, if_pos (by omega), List.drop_take, h, Nat.add_sub_cancel_left, List.take_left]
  · rw [← List.drop_drop, h, List.drop_left]

theorem Markers.length_le (h : Markers pos bs spans cut) :
    oscPrefix.length * spans.length ≤ bs.length := by
  induction h with
  | plain => exact Nat.zero_le _
  | cutOff => exact Nat.zero_le _
  | marker heq _ _ _ _ ih =>
    have hlen := congrArg List.length heq
    simp only [List.length_append] at hlen
    rw [List.length_cons, Nat.mul_add_one]
    omega

theorem osc3008MarkersChecked_eq (h : Markers pos bs spans cut) (hdrop : raw.drop pos = bs)
    (hpos : pos ≤ raw.length) (hturns : spans.length < turns) :
    osc3008MarkersChecked raw turns pos = some (parsed spans cut) := by
  induction h generalizing turns with
  | plain hplain =>
    obtain ⟨turns, rfl⟩ : ∃ k, turns = k + 1 := ⟨turns - 1, by omega⟩
    rw [osc3008MarkersChecked]
    split
    · rfl
    · rw [slice_to_end hpos, Option.bind_some, hdrop, windowPosition_of_unmarked hplain]
      rfl
  | @cutOff pos bs gap body heq hgap hbody =>
    -- a prefix without a terminator ends the scan with nothing
    obtain ⟨turns, rfl⟩ : ∃ k, turns = k + 1 := ⟨turns - 1, by omega⟩
    have hlen := congrArg List.length (hdrop.trans heq)
    rw [List.length_drop, List.length_append, List.length_append] at hlen
    have hbehind := (slice_eq hpos (hdrop.trans heq)).2
    rw [List.length_append, ← Nat.add_assoc] at hbehind
    rw [osc3008MarkersChecked, if_neg (by omega), slice_to_end hpos, Option.bind_some, hdrop, heq,
      windowPosition_append hgap]
    dsimp only
    rw [hbehind, oscEnd_of_unterminated hbody]
    rfl
  | @marker pos bs gap body rest t s spans cut heq hgap hbody hspan htail ih =>
    obtain ⟨turns, rfl⟩ : ∃ k, turns = k + 1 := ⟨turns - 1, by omega⟩
    have hlen := congrArg List.length (hdrop.trans heq)
    simp only [List.length_drop, List.length_append] at hlen
    rw [List.length_cons] at hturns
    have hbehind := (slice_eq hpos (hdrop.trans heq)).2
    rw [List.length_append, ← Nat.add_assoc] at hbehind
    have hmarker : raw.drop (pos + gap.length + oscPrefix.length) = body ++ (t.bytes ++ rest) := by
      rw [hbehind, List.append_assoc]
    have hbody_start : pos + gap.length + oscPrefix.length ≤ raw.length := by omega
    have hbody_end : pos + gap.length + oscPrefix.length + body.length ≤ raw.length := by omega
    obtain ⟨hslice, hterm⟩ := slice_eq hbody_start hmarker
    have hrest := (slice_eq hbody_end hterm).2
    subst hspan
    -- behind the marker the scan goes on with one turn less, and one span
    have ih := ih hrest (by dsimp only; omega) (Nat.lt_of_succ_lt_succ hturns)
    rw [osc3008MarkersChecked, if_neg (by omega), slice_to_end hpos, Option.bind_some, hdrop, heq,
      windowPosition_append hgap]
    dsimp only
    rw [hbehind, oscEnd_append hbody]
    dsimp only
    rw [hslice, Option.bind_some, parsed_cons, ih]
    unfold OscSpan.marker
    cases (fromUtf8 body).bind _ <;> rfl

/-- Where the checked scan comes to an end, so does the scan, and they agree. -/
theorem osc3008MarkersFrom_eq {turns' : Nat} {found : Option (List OscMarker)}
    (h : osc3008MarkersChecked raw turns pos = some found) (hturns : turns ≤ turns') :
    osc3008MarkersFrom raw turns' pos = found := by
  induction turns generalizing pos turns' found with
  | zero => cases h
  | succ turns ih =>
    obtain ⟨turns', rfl⟩ : ∃ k, turns' = k + 1 := ⟨turns' - 1, by omega⟩
    rw [osc3008MarkersChecked] at h
    rw [osc3008MarkersFrom]
    split at h
    next hshort =>
      -- too few bytes are left for a prefix
      have hplain : Unmarked (raw.drop pos) := by
        intro hin
        have hlen := hin.length_le
        rw [List.length_drop] at hlen
        have hprefix : 0 < oscPrefix.length := by decide
        omega
      rw [windowPosition_of_unmarked hplain]
      exact Option.some.inj h
    next hlong =>
      rw [slice_to_end (by omega), Option.bind_some] at h
      cases hfound : windowPosition oscPrefix (raw.drop pos) with
      | none =>
        rw [hfound] at h
        exact Option.some.inj h
      | some relative =>
        rw [hfound] at h
        dsimp only at h ⊢
        cases hend : oscEnd (pos + relative + oscPrefix.length)
            (raw.drop (pos + relative + oscPrefix.length)) with
        | none =>
          rw [hend] at h
          exact Option.some.inj h
        | some ends =>
          obtain ⟨bodyEnd, markerEnd⟩ := ends
          rw [hend] at h
          dsimp only at h ⊢
          obtain ⟨body, hslice, h⟩ := Option.bind_eq_some_iff.mp h
          rw [eq_of_slice hslice]
          cases hutf8 : fromUtf8 body with
          | none =>
            rw [hutf8] at h
            exact Option.some.inj h
          | some text =>
            rw [hutf8, Option.bind_some] at h
            dsimp only
            cases hparse : parseOscMarker (pos + relative) markerEnd text with
            | none =>
              rw [hparse] at h
              exact Option.some.inj h
            | some marker =>
              rw [hparse] at h
              obtain ⟨markers, htail, rfl⟩ := Option.map_eq_some_iff.mp h
              dsimp only
              rw [ih htail (by omega)]

theorem osc3008Markers_eq (h : Markers 0 raw spans cut) :
    osc3008Markers raw = parsed spans cut := by
  by_cases hraw : raw = []
  · subst hraw
    cases h with
    | plain => rfl
    | cutOff heq => simp [oscPrefix] at heq
    | marker heq => simp [oscPrefix] at heq
  · have hle := h.length_le
    have hpos := List.length_pos_iff.mpr hraw
    rw [show oscPrefix.length = 7 from rfl] at hle
    have hchecked := osc3008MarkersChecked_eq h List.drop_zero (Nat.zero_le _)
      (Nat.lt_succ_self spans.length)
    exact osc3008MarkersFrom_eq hchecked (by omega)

theorem marker_positions {s : OscSpan} {m : OscMarker} (h : s.marker = some m) :
    m.start = s.start ∧ m.stop = s.stop := by
  obtain ⟨text, _, hparse⟩ := Option.bind_eq_some_iff.mp h
  unfold parseOscMarker at hparse
  split at hparse
  · cases hparse
  · split at hparse
    · cases hparse
    · split at hparse
      · cases hparse
      · cases hparse
        exact ⟨rfl, rfl⟩

theorem parsed_eq_some {markers : List OscMarker} : parsed spans cut = some markers ↔
    cut = false ∧ spans.map OscSpan.marker = markers.map some := by
  induction spans generalizing markers with
  | nil => cases cut <;> cases markers <;> simp [parsed]
  | cons s spans ih =>
    rw [parsed_cons]
    cases hmarker : s.marker with
    | none => cases markers <;> simp [hmarker]
    | some m =>
      cases markers with
      | nil => simp
      | cons m' markers =>
        rw [Option.bind_some, Option.map_eq_some_iff, List.map_cons, List.map_cons, hmarker]
        simp only [List.cons.injEq, Option.some.injEq]
        constructor
        · rintro ⟨tail, htail, rfl, rfl⟩
          exact ⟨(ih.mp htail).1, rfl, (ih.mp htail).2⟩
        · rintro ⟨hcut, rfl, htail⟩
          exact ⟨markers, ih.mpr ⟨hcut, htail⟩, rfl, rfl⟩

theorem Markers.in_range (h : Markers pos bs spans cut) :
    ∀ s ∈ spans, pos ≤ s.start ∧ s.start ≤ s.stop ∧ s.stop ≤ pos + bs.length := by
  induction h with
  | plain => nofun
  | cutOff => nofun
  | marker heq _ _ hspan _ ih =>
    have hlen := congrArg List.length heq
    simp only [List.length_append] at hlen
    intro s' hs'
    rcases List.mem_cons.mp hs' with rfl | hs'
    · rw [hspan]
      dsimp only
      omega
    · obtain ⟨hstart, hle, hstop⟩ := ih s' hs'
      rw [hspan] at hstart hstop
      dsimp only at hstart hstop
      omega

end Scan

/-! ## One command -/

/-- The markers have one start of a command, and behind it one end with its id. -/
structure IsCommand (markers : List OscMarker) (start stop : OscMarker) : Prop where
  starts : (markers.filter fun m => m.kind = .start ∧ m.command) = [start]
  stops : (markers.filter fun m => m.kind = .stop ∧ m.id = start.id ∧ start.stop ≤ m.start) = [stop]

theorem IsCommand.unique {markers : List OscMarker} {start start' stop stop' : OscMarker}
    (h : IsCommand markers start stop) (h' : IsCommand markers start' stop') :
    start = start' ∧ stop = stop' := by
  obtain rfl : start = start' := by simpa using h.starts.symm.trans h'.starts
  exact ⟨rfl, by simpa using h.stops.symm.trans h'.stops⟩

theorem IsCommand.ordered {markers : List OscMarker} {start stop : OscMarker}
    (h : IsCommand markers start stop) : stop ∈ markers ∧ start.stop ≤ stop.start := by
  have hmem : stop ∈ markers.filter fun m =>
      m.kind = .stop ∧ m.id = start.id ∧ start.stop ≤ m.start := by
    rw [h.stops]
    exact List.mem_singleton_self stop
  obtain ⟨hin, hcond⟩ := List.mem_filter.mp hmem
  exact ⟨hin, (of_decide_eq_true hcond).2.2⟩

theorem parseOneOsc3008Command_eq_some {raw : List UInt8} {cmd : OscCommand} :
    parseOneOsc3008Command raw = some cmd ↔ ∃ markers start stop,
      osc3008Markers raw = some markers ∧ IsCommand markers start stop ∧
        cmd = ⟨(raw.take stop.start).drop start.stop, stop.status, stop.exitCode⟩ := by
  unfold parseOneOsc3008Command
  cases hmarkers : osc3008Markers raw with
  | none => simp
  | some markers =>
    dsimp only
    constructor
    · intro h
      split at h
      next start hstart =>
        split at h
        next stop hstop =>
          cases h
          exact ⟨markers, start, stop, rfl, ⟨hstart, hstop⟩, rfl⟩
        next => cases h
      next => cases h
    · rintro ⟨_, start, stop, ⟨⟩, hcommand, rfl⟩
      rw [hcommand.starts]
      dsimp only
      rw [hcommand.stops]

section OneCommand

variable {raw : List UInt8} {spans : List OscSpan} {cut : Bool} {markers : List OscMarker}
  {start stop : OscMarker}

/-- The markers that the scan found are those of the transcript, all whole and well formed. -/
theorem osc3008Markers_eq_some (h : Markers 0 raw spans cut) :
    osc3008Markers raw = some markers ↔
      cut = false ∧ spans.map OscSpan.marker = markers.map some := by
  rw [osc3008Markers_eq h, parsed_eq_some]

theorem marker_in_range (h : Markers 0 raw spans cut)
    (hmarkers : spans.map OscSpan.marker = markers.map some) {m : OscMarker} (hm : m ∈ markers) :
    m.start ≤ m.stop ∧ m.stop ≤ raw.length := by
  have hsome : some m ∈ spans.map OscSpan.marker := hmarkers ▸ List.mem_map_of_mem hm
  obtain ⟨s, hs, hmarker⟩ := List.mem_map.mp hsome
  obtain ⟨hstart, hstop⟩ := marker_positions hmarker
  have hrange := h.in_range s hs
  omega

theorem IsCommand.slice (hcommand : IsCommand markers start stop) (h : Markers 0 raw spans cut)
    (hmarkers : spans.map OscSpan.marker = markers.map some) :
    slice raw start.stop stop.start = some ((raw.take stop.start).drop start.stop) := by
  obtain ⟨hmem, hle⟩ := hcommand.ordered
  obtain ⟨hstart, hstop⟩ := marker_in_range h hmarkers hmem
  exact if_pos ⟨hle, hstart.trans hstop⟩

theorem parseOneOsc3008CommandChecked_eq (raw : List UInt8) :
    parseOneOsc3008CommandChecked raw = some (parseOneOsc3008Command raw) := by
  obtain ⟨spans, cut, h⟩ := exists_markers 0 raw
  have hturns : spans.length < raw.length + 1 := by
    have hle := h.length_le
    rw [show oscPrefix.length = 7 from rfl] at hle
    omega
  have hchecked := osc3008MarkersChecked_eq h List.drop_zero (Nat.zero_le _) hturns
  rw [← osc3008Markers_eq h] at hchecked
  unfold parseOneOsc3008CommandChecked parseOneOsc3008Command
  rw [hchecked, Option.bind_some]
  cases hmarkers : osc3008Markers raw with
  | none => rfl
  | some markers =>
    dsimp only
    cases hstarts : markers.filter fun m => m.kind = .start ∧ m.command with
    | nil => rfl
    | cons start others =>
      cases others with
      | cons => rfl
      | nil =>
        dsimp only
        cases hstops : markers.filter fun m =>
            m.kind = .stop ∧ m.id = start.id ∧ start.stop ≤ m.start with
        | nil => rfl
        | cons stop others =>
          cases others with
          | cons => rfl
          | nil =>
            have hcommand : IsCommand markers start stop := ⟨hstarts, hstops⟩
            dsimp only
            rw [hcommand.slice h ((osc3008Markers_eq_some h).mp hmarkers).2]
            rfl

/-- A command is returned for a transcript if and only if all of its markers are whole and
well formed and they hold one command; its output is what lies between the two markers. -/
theorem parseOneOsc3008Command_iff (h : Markers 0 raw spans cut) {cmd : OscCommand} :
    parseOneOsc3008Command raw = some cmd ↔ cut = false ∧ ∃ markers start stop,
      spans.map OscSpan.marker = markers.map some ∧ IsCommand markers start stop ∧
        slice raw start.stop stop.start = some cmd.output ∧ cmd.status = stop.status ∧
          cmd.exitCode = stop.exitCode := by
  rw [parseOneOsc3008Command_eq_some]
  constructor
  · rintro ⟨markers, start, stop, hmarkers, hcommand, rfl⟩
    obtain ⟨hcut, hmap⟩ := (osc3008Markers_eq_some h).mp hmarkers
    exact ⟨hcut, markers, start, stop, hmap, hcommand, hcommand.slice h hmap, rfl, rfl⟩
  · rintro ⟨hcut, markers, start, stop, hmap, hcommand, hslice, hstatus, hcode⟩
    refine ⟨markers, start, stop, (osc3008Markers_eq_some h).mpr ⟨hcut, hmap⟩, hcommand, ?_⟩
    rw [eq_of_slice hslice, ← hstatus, ← hcode]

end OneCommand

end McpSerial
