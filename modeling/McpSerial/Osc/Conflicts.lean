import McpSerial.Osc.Places
import McpSerial.Selection.LastWins

/-! The fields of an end marker that contradict each other: when they lead to no claim about
the command's status. -/

namespace McpSerial
open Utf8 LastWins

def exitField (field : List Char) : Option (Option String) :=
  if field = "exit=success".toList then some (some "success")
  else if field = "exit=failure".toList then some (some "failure")
  else none

/-- The exit code that a field sets: none when it is no number. -/
def statusField (field : List Char) : Option (Option Int) :=
  (stripPrefix "status=".toList field).map parseI32

theorem read_status_eq (f : OscFields) (field : List Char) :
    (f.read field).status = (exitField field).getD f.status := by
  unfold OscFields.read exitField
  split
  next h =>
    subst h
    rfl
  split
  · rfl
  split
  · rfl
  split
  · rfl
  · rfl

theorem read_exitCode_eq (f : OscFields) (field : List Char) :
    (f.read field).exitCode = (statusField field).getD f.exitCode := by
  unfold OscFields.read statusField
  split
  next h =>
    subst h
    rfl
  split
  next h =>
    subst h
    rfl
  split
  next h =>
    subst h
    rfl
  cases stripPrefix "status=".toList field with
  | none => rfl
  | some value => rfl

def OscMarker.withFields (m : OscMarker) (fields : List (List Char)) : OscMarker :=
  { m with
    command := (fields.foldl OscFields.read {}).command
    status := (last exitField fields).getD none
    exitCode := (last statusField fields).getD none }

section Report

variable {start stop : Nat} {first : List Char} {fields fields' : List (List Char)}
  {m : OscMarker}

theorem parseOscMarker_withFields (hfree : ∀ f ∈ first :: fields, ';' ∉ f)
    (hfree' : ∀ f ∈ first :: fields', ';' ∉ f)
    (h : parseOscMarker start stop (joinFields first fields) = some m) :
    parseOscMarker start stop (joinFields first fields') = some (m.withFields fields') := by
  have hstatus := foldl_last read_status_eq {} fields'
  have hexit := foldl_last read_exitCode_eq {} fields'
  unfold parseOscMarker at h ⊢
  rw [splitFields_joinFields hfree] at h
  rw [splitFields_joinFields hfree']
  dsimp only at h ⊢
  cases hheader : oscHeader first with
  | none =>
    rw [hheader] at h
    cases h
  | some header =>
    rw [hheader] at h
    dsimp only at h ⊢
    split at h
    · cases h
    next hid =>
      cases h
      rw [if_neg hid, hstatus, hexit]
      rfl

theorem oscClosed_separated (a b : List Char) :
    OscClosed (a ++ ';' :: b) ↔ OscClosed a ∨ OscClosed b := by
  have hpair : ['\x1b', '\\'] <:+: a ++ ';' :: b ↔
      ['\x1b', '\\'] <:+: a ∨ ['\x1b', '\\'] <:+: b := by
    induction a with
    | nil => simp [List.infix_cons_iff]
    | cons c a ih =>
      have hhead : ['\x1b', '\\'] <+: c :: (a ++ ';' :: b) ↔ ['\x1b', '\\'] <+: c :: a := by
        cases a with
        | nil => simp
        | cons d a => simp
      rw [List.cons_append, List.infix_cons_iff, List.infix_cons_iff, hhead, ih, or_assoc]
  simp only [OscClosed, List.mem_append, List.mem_cons, hpair]
  simp only [show ('\x07' = ';') = False by decide, false_or]
  tauto

theorem oscClosed_joinFields (first : List Char) (fields : List (List Char)) :
    OscClosed (joinFields first fields) ↔ ∃ f ∈ first :: fields, OscClosed f := by
  induction fields generalizing first with
  | nil => simp [joinFields]
  | cons f fields ih =>
    change OscClosed (first ++ ';' :: joinFields f fields) ↔ _
    rw [oscClosed_separated, ih]
    simp

theorem encode_joinFields_perm (first : List Char) (h : fields'.Perm fields) :
    (encode (joinFields first fields')).length = (encode (joinFields first fields)).length := by
  have hperm : (joinFields first fields').Perm (joinFields first fields) :=
    (h.flatMap_right _).append_left first
  exact (hperm.flatMap_right _).length_eq

end Report

/-! ## What is reported -/

structure EndFields (raw : List UInt8) (stop : OscMarker) (front : List UInt8) (first : List Char)
    (fields : List (List Char)) (t : OscTerminator) (rest : List UInt8) : Prop where
  place : MarkerAt raw stop front (joinFields first fields) t rest
  separated : ∀ f ∈ first :: fields, ';' ∉ f

theorem analyzeTranscript_claimed {raw : List UInt8} {cmd : OscCommand}
    (h : parseOneOsc3008Command raw = some cmd) (e : LineEnding) (echoMode : EchoMode) :
    (analyzeTranscript raw e echoMode .osc3008).semanticStatus = cmd.status ∧
      (analyzeTranscript raw e echoMode .osc3008).exitCode = cmd.exitCode := by
  unfold analyzeTranscript
  dsimp only
  rw [if_pos rfl, h]
  exact ⟨rfl, rfl⟩

section Permuted

variable {raw front rest : List UInt8} {markers : List OscMarker} {start stop : OscMarker}
  {first : List Char} {fields fields' : List (List Char)} {t : OscTerminator}

theorem exists_endFields (h : osc3008Markers raw = some markers)
    (hcommand : IsCommand markers start stop) :
    ∃ front first fields t rest, EndFields raw stop front first fields t rest := by
  obtain ⟨front, text, t, rest, hat⟩ := exists_markerAt h hcommand.ordered.1
  obtain ⟨first, fields, rfl, hfree⟩ := exists_joinFields text
  exact ⟨front, first, fields, t, rest, hat, hfree⟩

theorem IsCommand.replace {before after : List OscMarker} {stop' : OscMarker}
    (h : IsCommand (before ++ stop :: after) start stop) (hkind : stop'.kind = stop.kind)
    (hid : stop'.id = stop.id) (hstart : stop'.start = stop.start) :
    IsCommand (before ++ stop' :: after) start stop' := by
  have hstop : stop.kind = .stop ∧ stop.id = start.id ∧ start.stop ≤ stop.start := by
    have hmem : stop ∈ (before ++ stop :: after).filter fun m =>
        m.kind = .stop ∧ m.id = start.id ∧ start.stop ≤ m.start := by
      rw [h.stops]
      exact List.mem_singleton_self stop
    exact of_decide_eq_true (List.mem_filter.mp hmem).2
  have hstarts := h.starts
  have hstops := h.stops
  rw [List.filter_append, List.filter_cons] at hstarts hstops
  constructor
  · rw [List.filter_append, List.filter_cons]
    simpa [hkind, hstop.1] using hstarts
  · have hnone : before.filter (fun m => m.kind = .stop ∧ m.id = start.id ∧
        start.stop ≤ m.start) = [] ∧ after.filter (fun m => m.kind = .stop ∧ m.id = start.id ∧
        start.stop ≤ m.start) = [] := by
      rw [if_pos (decide_eq_true hstop)] at hstops
      have hlen := congrArg List.length hstops
      simp only [List.length_append, List.length_cons, List.length_nil] at hlen
      exact ⟨List.length_eq_zero_iff.mp (by omega), List.length_eq_zero_iff.mp (by omega)⟩
    rw [List.filter_append, List.filter_cons, hnone.1, hnone.2, hkind, hid, hstart,
      if_pos (decide_eq_true hstop), List.nil_append]

/-- What is reported of the transcript with the fields of its end marker in some order. -/
theorem report_fields (h : osc3008Markers raw = some markers)
    (hcommand : IsCommand markers start stop)
    (hend : EndFields raw stop front first fields t rest) (hperm : fields'.Perm fields)
    (e : LineEnding) (echoMode : EchoMode) :
    let report := analyzeTranscript
      (front ++ oscMarkerBytes (joinFields first fields') t ++ rest) e echoMode .osc3008
    report.semanticStatus = (last exitField fields').getD none ∧
      report.exitCode = (last statusField fields').getD none := by
  obtain ⟨before, after, rfl⟩ := List.append_of_mem hcommand.ordered.1
  obtain ⟨hparse, -⟩ := hend.place.parsed h hcommand.ordered.1
  have hmem : ∀ f ∈ first :: fields', f ∈ first :: fields := by
    intro f hf
    exact (hperm.cons first).mem_iff.mp hf
  have hparse' := parseOscMarker_withFields hend.separated
    (fun f hf => hend.separated f (hmem f hf)) hparse
  have hbody : Unterminated (encode (joinFields first fields')) := by
    have hopen := unterminated_encode_iff.mp hend.place.unterminated
    rw [unterminated_encode_iff, oscClosed_joinFields] at *
    rintro ⟨f, hf, hclosed⟩
    exact hopen ⟨f, hmem f hf, hclosed⟩
  have hmarkers := hend.place.replace h hbody (encode_joinFields_perm first hperm) hparse'
  have hcommand' : IsCommand (before ++ stop.withFields fields' :: after) start
      (stop.withFields fields') := hcommand.replace rfl rfl rfl
  have hcmd := parseOneOsc3008Command_eq_some.mpr ⟨_, _, _, hmarkers, hcommand', rfl⟩
  exact analyzeTranscript_claimed hcmd e echoMode

end Permuted

/-! ## Conflicts -/

/-- Contradicting fields lead to no claim, and the order of the fields to no other. -/
structure ConflictsUnclaimed (report : List (List Char) → TranscriptAnalysis)
    (fields : List (List Char)) : Prop where
  exits : "exit=success".toList ∈ fields → "exit=failure".toList ∈ fields →
    (report fields).semanticStatus = none
  statuses : ∀ v w, v ≠ w → "status=".toList ++ v ∈ fields → "status=".toList ++ w ∈ fields →
    (report fields).exitCode = none
  orders : ∀ fields' : List (List Char), fields'.Perm fields →
    (report fields').semanticStatus = (report fields).semanticStatus ∧
      (report fields').exitCode = (report fields).exitCode

structure NoConflict (fields : List (List Char)) : Prop where
  exits : ¬("exit=success".toList ∈ fields ∧ "exit=failure".toList ∈ fields)
  statuses : (∀ v w, "status=".toList ++ v ∈ fields → "status=".toList ++ w ∈ fields → v = w) ∨
    ∀ v, "status=".toList ++ v ∈ fields → parseI32 v = none

theorem exitField_eq_some {field : List Char} {status : Option String}
    (h : exitField field = some status) :
    field = "exit=success".toList ∧ status = some "success" ∨
      field = "exit=failure".toList ∧ status = some "failure" := by
  unfold exitField at h
  split at h
  next hsuccess =>
    cases h
    exact .inl ⟨hsuccess, rfl⟩
  · split at h
    next hfailure =>
      cases h
      exact .inr ⟨hfailure, rfl⟩
    next => cases h

theorem statusField_eq_some {field : List Char} {code : Option Int}
    (h : statusField field = some code) :
    ∃ v, field = "status=".toList ++ v ∧ parseI32 v = code := by
  obtain ⟨v, hv, hcode⟩ := Option.map_eq_some_iff.mp h
  unfold stripPrefix at hv
  split at hv
  next hpre =>
    obtain ⟨rest, rfl⟩ := List.isPrefixOf_iff_prefix.mp hpre
    rw [List.drop_left] at hv
    cases hv
    exact ⟨_, rfl, hcode⟩
  next => cases hv

theorem statusField_status (v : List Char) :
    statusField ("status=".toList ++ v) = some (parseI32 v) := by
  rw [statusField, stripPrefix_append, Option.map_some]

theorem NoConflict.agree {fields : List (List Char)} (h : NoConflict fields) :
    Agree exitField fields ∧ Agree statusField fields := by
  constructor
  · intro x hx y hy b c hb hc
    rcases exitField_eq_some hb with ⟨rfl, rfl⟩ | ⟨rfl, rfl⟩
    · rcases exitField_eq_some hc with ⟨rfl, rfl⟩ | ⟨rfl, rfl⟩
      · rfl
      · exact absurd ⟨hx, hy⟩ h.exits
    · rcases exitField_eq_some hc with ⟨rfl, rfl⟩ | ⟨rfl, rfl⟩
      · exact absurd ⟨hy, hx⟩ h.exits
      · rfl
  · intro x hx y hy b c hb hc
    obtain ⟨v, rfl, rfl⟩ := statusField_eq_some hb
    obtain ⟨w, rfl, rfl⟩ := statusField_eq_some hc
    rcases h.statuses with heq | hnone
    · rw [heq v w hx hy]
    · rw [hnone v hx, hnone w hy]

section Iff

variable {report : List (List Char) → TranscriptAnalysis} {fields : List (List Char)}
  (hreport : ∀ fields' : List (List Char), fields'.Perm fields →
    (report fields').semanticStatus = (last exitField fields').getD none ∧
      (report fields').exitCode = (last statusField fields').getD none)

include hreport

theorem unclaimed_of_noConflict (h : NoConflict fields) : ConflictsUnclaimed report fields where
  exits := fun hsuccess hfailure => absurd ⟨hsuccess, hfailure⟩ h.exits
  statuses := by
    intro v w hne hv hw
    rw [(hreport fields (.refl _)).2]
    rcases h.statuses with heq | hnone
    · exact absurd (heq v w hv hw) hne
    · cases hlast : last statusField fields with
      | none => rfl
      | some code =>
        obtain ⟨field, hfield, hcode⟩ := mem_of_last hlast
        obtain ⟨u, rfl, rfl⟩ := statusField_eq_some hcode
        exact hnone u hfield
  orders := by
    intro fields' hperm
    obtain ⟨hstatus, hcode⟩ := hreport fields (.refl _)
    obtain ⟨hstatus', hcode'⟩ := hreport fields' hperm
    rw [hstatus, hcode, hstatus', hcode', last_perm_iff.mpr h.agree.1 fields' hperm,
      last_perm_iff.mpr h.agree.2 fields' hperm]
    exact ⟨rfl, rfl⟩

theorem noConflict_of_unclaimed (h : ConflictsUnclaimed report fields) : NoConflict fields where
  exits := by
    rintro ⟨hsuccess, hfailure⟩
    have hnone := h.exits hsuccess hfailure
    have hread : exitField "exit=success".toList = some (some "success") := rfl
    obtain ⟨status, hlast⟩ := exists_last hsuccess hread
    obtain ⟨field, -, hstatus⟩ := mem_of_last hlast
    rw [(hreport fields (.refl _)).1, hlast] at hnone
    rcases exitField_eq_some hstatus with ⟨-, rfl⟩ | ⟨-, rfl⟩
    · cases hnone
    · cases hnone
  statuses := by
    by_contra hconflict
    simp only [not_or, not_forall] at hconflict
    obtain ⟨⟨v, w, hv, hw, hne⟩, u, hu, hparse⟩ := hconflict
    have hnone := h.statuses v w hne hv hw
    -- the order in which the number comes last
    obtain ⟨fields', hperm, hlast⟩ := exists_perm_last hu (statusField_status u)
    have hcode := (h.orders fields' hperm).2
    rw [hnone, (hreport fields' hperm).2, hlast] at hcode
    exact hparse hcode

end Iff

/-- For a transcript with one command, contradicting fields of its end marker lead to no claim
and the order of the fields decides nothing, if and only if it does not hold both `exit=success`
and `exit=failure`, and its `status=` fields all have one value or none of them is a number. -/
theorem conflicts_unclaimed_iff {raw : List UInt8} {markers : List OscMarker}
    {start stop : OscMarker} (h : osc3008Markers raw = some markers)
    (hcommand : IsCommand markers start stop) :
    (∃ front first fields t rest, EndFields raw stop front first fields t rest) ∧
      ∀ front first fields t rest, EndFields raw stop front first fields t rest →
        ∀ e echoMode,
          ConflictsUnclaimed (fun fields' => analyzeTranscript
            (front ++ oscMarkerBytes (joinFields first fields') t ++ rest) e echoMode .osc3008)
            fields ↔ NoConflict fields := by
  refine ⟨exists_endFields h hcommand, fun front first fields t rest hend e echoMode => ?_⟩
  have hreport := fun (fields' : List (List Char)) (hperm : fields'.Perm fields) =>
    report_fields h hcommand hend hperm e echoMode
  exact ⟨noConflict_of_unclaimed hreport, unclaimed_of_noConflict hreport⟩

def markedOutput : List UInt8 := oscMarkerBytes (startBody ['i']) .bel ++ [0x4f, 0x4b]

theorem conflicts_unclaimed_iff_success :
    ConflictsUnclaimed (fun fields => analyzeTranscript
      (markedOutput ++ oscMarkerBytes (joinFields "end=i".toList fields) .bel ++ []) .lf .unknown
        .osc3008) ["exit=success".toList, "status=0".toList] := by
  have hmarkers : osc3008Markers (markedOutput ++ oscMarkerBytes (joinFields "end=i".toList
      ["exit=success".toList, "status=0".toList]) .bel ++ []) =
        some [startMarker ['i'] 0 28, endMarker ['i'] .success 0 30 65] := by decide +kernel
  refine ((conflicts_unclaimed_iff hmarkers (isCommand_written (by decide))).2 markedOutput
    "end=i".toList _ .bel [] ⟨⟨rfl, by decide +kernel, ?_⟩, by decide +kernel⟩ .lf .unknown).mpr ?_
  · exact unterminated_encode (by decide) (by decide)
  · refine ⟨by decide, .inl fun v w hv hw => ?_⟩
    have hvalue (u : List Char) (hu : "status=".toList ++ u ∈
        ["exit=success".toList, "status=0".toList]) : u = ['0'] := by
      simpa using hu
    rw [hvalue v hv, hvalue w hw]

/-- Of `exit=success;exit=failure` the last is reported. -/
theorem conflicts_claimed :
    ¬∀ raw markers start stop, osc3008Markers raw = some markers →
      IsCommand markers start stop → ∀ front first fields t rest,
        EndFields raw stop front first fields t rest → ∀ e echoMode,
          ConflictsUnclaimed (fun fields' => analyzeTranscript
            (front ++ oscMarkerBytes (joinFields first fields') t ++ rest) e echoMode .osc3008)
            fields := by
  intro h
  have hmarkers : osc3008Markers (markedOutput ++ oscMarkerBytes (joinFields "end=i".toList
      ["exit=success".toList, "exit=failure".toList]) .bel ++ []) =
        some [startMarker ['i'] 0 28, ⟨30, 69, ['i'], .stop, false, some "failure", none⟩] := by
    decide +kernel
  have hclaims : (analyzeTranscript (markedOutput ++ oscMarkerBytes (joinFields "end=i".toList
      ["exit=success".toList, "exit=failure".toList]) .bel ++ []) .lf .unknown
        .osc3008).semanticStatus = some "failure" := by decide +kernel
  have hcommand : IsCommand
      [startMarker ['i'] 0 28, ⟨30, 69, ['i'], .stop, false, some "failure", none⟩]
      (startMarker ['i'] 0 28) ⟨30, 69, ['i'], .stop, false, some "failure", none⟩ :=
    ⟨by decide, by decide⟩
  have hunclaimed := h _ _ _ _ hmarkers hcommand markedOutput
    "end=i".toList ["exit=success".toList, "exit=failure".toList] .bel []
    ⟨⟨rfl, by decide +kernel, unterminated_encode (by decide) (by decide)⟩, by decide +kernel⟩
    .lf .unknown
  have hnone := hunclaimed.exits (by simp) (by simp)
  rw [hclaims] at hnone
  cases hnone

end McpSerial
