import McpSerial.Manager.MatchReports
import McpSerial.Mcp.Messages

/-! What a client is shown of the output of a pattern-driven call. -/

namespace McpSerial
open Interaction Interaction.Program Interaction.Discipline Utf8 Sliding

/-! ## The echoed line in the presented output -/

/-- The bytes at the front of the output that the normalized output leaves out. -/
def normalizedSkip (raw : List UInt8) (e : LineEnding) : Nat := (echoLineBoundary raw e).getD 0

/-- The bytes at the front of the output that the command output leaves out when no OSC 3008
command is recognised: everything, when there is no command output. -/
def commandSkip (raw : List UInt8) (e : LineEnding) : Nat :=
  (echoLineBoundary raw e).getD raw.length

def oscRecognised (prompt : SemanticPrompt) (raw : List UInt8) : Bool :=
  prompt = .osc3008 && (parseOneOsc3008Command raw).isSome

/-- The bytes at the front of the window that belong to the echoed line of the stream:
all of them as long as that line has not ended. -/
def echoLeft (e : LineEnding) (stream : List UInt8) : Nat :=
  match echoLineBoundary stream e with
  | some p => p - slid stream
  | none => (stream.rtake maxReadBuffer).length

/-- What the presented output leaves out of `raw` is what is left of the echoed line. -/
structure AgreesOnEcho (e : LineEnding) (prompt : SemanticPrompt) (stream raw : List UInt8) :
    Prop where
  normalized : normalizedSkip raw e = echoLeft e stream
  command : oscRecognised prompt raw = false → commandSkip raw e = echoLeft e stream

/-- The stream is empty, or its first terminator is whole in the window, or the window has
slid past the echoed line, holds no terminator and has an OSC 3008 command. -/
def EchoInWindow (e : LineEnding) (prompt : SemanticPrompt) (stream : List UInt8) : Prop :=
  stream = [] ∨ ∃ p, echoLineBoundary stream e = some p ∧
    (slid stream + e.bytes.length ≤ p ∨
      (p ≤ slid stream ∧ echoLineBoundary (stream.rtake maxReadBuffer) e = none ∧
        oscRecognised prompt (stream.rtake maxReadBuffer)))

section Echo

variable {e : LineEnding} {prompt : SemanticPrompt} {stream raw : List UInt8} {p b : Nat}

theorem slid_le (stream : List UInt8) : slid stream ≤ stream.length := Nat.sub_le ..

/-- A first terminator that is whole in the window is the window's first. -/
theorem window_boundary_of_whole (hp : echoLineBoundary stream e = some p)
    (hwhole : slid stream + e.bytes.length ≤ p) :
    echoLineBoundary (stream.rtake maxReadBuffer) e = some (p - slid stream) := by
  have hfirst := (echoLineBoundary_eq_some.mp hp).2.first
  have hdrop := echoLineBoundary_drop (slid_le stream) fun q hq => hwhole.trans (hfirst q hq)
  rw [hp] at hdrop
  obtain ⟨b, hb, heq⟩ := Option.map_eq_some_iff.mp hdrop.symm
  rw [← heq, Nat.add_sub_cancel_left]
  exact hb

/-- A terminator in the window ends behind the stream's first one, unless it is that one. -/
theorem window_boundary_gt (hcut : p < slid stream + e.bytes.length)
    (hb : echoLineBoundary (stream.rtake maxReadBuffer) e = some b) : p - slid stream < b := by
  have hends := (echoLineBoundary_eq_some.mp hb).2.ends
  have hlen := hends.length_le
  have hpos : 0 < e.bytes.length := by
    rw [List.length_pos_iff]
    exact fun hnil => (echoLineBoundary_eq_some.mp hb).1 (LineEnding.bytes_eq_nil.mp hnil)
  omega

theorem window_boundary_none (hnone : echoLineBoundary stream e = none) :
    echoLineBoundary (stream.rtake maxReadBuffer) e = none := by
  refine echoLineBoundary_eq_none.mpr ((echoLineBoundary_eq_none.mp hnone).imp_right ?_)
  exact fun h q hq => h _ ((endsAt_drop (slid_le stream)).mp hq).1

theorem normalizedSkip_some (hb : echoLineBoundary raw e = some b) : normalizedSkip raw e = b := by
  rw [normalizedSkip, hb, Option.getD_some]

theorem normalizedSkip_none (hnone : echoLineBoundary raw e = none) :
    normalizedSkip raw e = 0 := by
  rw [normalizedSkip, hnone, Option.getD_none]

theorem commandSkip_some (hb : echoLineBoundary raw e = some b) : commandSkip raw e = b := by
  rw [commandSkip, hb, Option.getD_some]

theorem commandSkip_none (hnone : echoLineBoundary raw e = none) :
    commandSkip raw e = raw.length := by
  rw [commandSkip, hnone, Option.getD_none]

theorem echoLeft_none (hnone : echoLineBoundary stream e = none) :
    echoLeft e stream = (stream.rtake maxReadBuffer).length := by
  rw [echoLeft, hnone]

theorem echoLeft_some (hp : echoLineBoundary stream e = some p) :
    echoLeft e stream = p - slid stream := by
  rw [echoLeft, hp]

theorem window_length_pos (hne : stream ≠ []) : 0 < (stream.rtake maxReadBuffer).length := by
  have hpos := List.length_pos_iff.mpr hne
  rw [rtake_length]
  exact Nat.lt_min.mpr ⟨hpos, by decide⟩

theorem agreesOnEcho_iff : AgreesOnEcho e prompt stream (stream.rtake maxReadBuffer) ↔
    EchoInWindow e prompt stream := by
  by_cases hne : stream = []
  · subst hne
    have hnil := echoLineBoundary_nil e
    have hleft : echoLeft e [] = 0 := by
      rw [echoLeft_none hnil, List.rtake_nil]
      rfl
    rw [List.rtake_nil]
    refine iff_of_true ⟨?_, fun _ => ?_⟩ (.inl rfl)
    · rw [normalizedSkip_none hnil, hleft]
    · rw [commandSkip_none hnil, hleft]
      rfl
  have hpos := window_length_pos hne
  cases hp : echoLineBoundary stream e with
  | none =>
    -- the whole window is echo, and the normalized output keeps it
    refine iff_of_false (fun h => ?_) ?_
    · have hskip := h.normalized
      rw [normalizedSkip_none (window_boundary_none hp), echoLeft_none hp] at hskip
      omega
    · simp [EchoInWindow, hne, hp]
  | some p =>
    have hleft := echoLeft_some hp
    by_cases hwhole : slid stream + e.bytes.length ≤ p
    · have hwindow := window_boundary_of_whole hp hwhole
      refine iff_of_true ⟨?_, fun _ => ?_⟩ (.inr ⟨p, hp, .inl hwhole⟩)
      · exact (normalizedSkip_some hwindow).trans hleft.symm
      · exact (commandSkip_some hwindow).trans hleft.symm
    · cases hwindow : echoLineBoundary (stream.rtake maxReadBuffer) e with
      | some b =>
        -- a later terminator is taken for that of the echo
        have hgt := window_boundary_gt (p := p) (by omega) hwindow
        refine iff_of_false (fun h => ?_) ?_
        · have hskip := h.normalized
          rw [normalizedSkip_some hwindow, hleft] at hskip
          omega
        · simp [EchoInWindow, hne, hp, hwindow, hwhole]
      | none =>
        have hskip := normalizedSkip_none hwindow
        constructor
        · intro h
          have hnormalized := h.normalized
          rw [hskip, hleft] at hnormalized
          refine .inr ⟨p, hp, .inr ⟨by omega, hwindow, ?_⟩⟩
          by_contra hosc
          have hall := h.command (eq_false_of_ne_true hosc)
          rw [commandSkip_none hwindow, hleft] at hall
          omega
        · rintro (hnil | ⟨q, hq, hcase⟩)
          · exact absurd hnil hne
          · obtain rfl := Option.some.inj (hp.symm.trans hq)
            rcases hcase with hle | ⟨hle, _, hosc⟩
            · exact absurd hle hwhole
            · refine ⟨?_, fun hnot => ?_⟩
              · rw [hskip, hleft, Nat.sub_eq_zero_of_le hle]
              · rw [hosc] at hnot
                cases hnot

end Echo

/-! ### What `exec_result` presents -/

section ExecResult

variable {o : ExecOutcome} {e : LineEnding} {prompt : SemanticPrompt} {normalizeOutput : Bool}

/-- The text a client is shown for the bytes of `raw` behind the first `skip`. -/
def shownFrom (raw : List UInt8) (skip : Nat) : List Char :=
  normalizeTerminalOutput (fromUtf8Lossy (raw.drop skip))

theorem normalizeExecOutput_eq (raw : List UInt8) (boundary : Option Nat) :
    normalizeExecOutput raw boundary = shownFrom raw (boundary.getD 0) := by
  cases boundary <;> rfl

theorem analyzeTranscript_normalized (raw : List UInt8) (e : LineEnding) (prompt : SemanticPrompt) :
    (analyzeTranscript raw e .line prompt).normalizedOutput =
      shownFrom raw (normalizedSkip raw e) := by
  rw [normalizedSkip, ← normalizeExecOutput_eq]
  unfold analyzeTranscript
  dsimp only
  split <;> rfl

theorem analyzeTranscript_command {raw : List UInt8} (hosc : oscRecognised prompt raw = false) :
    (analyzeTranscript raw e .line prompt).commandOutput =
      (echoLineBoundary raw e).map fun _ => shownFrom raw (commandSkip raw e) := by
  have hnone : (if prompt = .osc3008 then parseOneOsc3008Command raw else none) = none := by
    unfold oscRecognised at hosc
    split_ifs with hprompt
    · simpa [hprompt] using hosc
    · rfl
  unfold analyzeTranscript commandSkip
  dsimp only
  rw [hnone]
  cases echoLineBoundary raw e <;> rfl

theorem execResult_normalized :
    (execResult o e .line prompt true).normalizedOutput =
      some (shownFrom o.output (normalizedSkip o.output e)) := by
  rw [← analyzeTranscript_normalized o.output e prompt]
  rfl

theorem execResult_command (hosc : oscRecognised prompt o.output = false) :
    (execResult o e .line prompt normalizeOutput).commandOutput =
      (echoLineBoundary o.output e).map fun _ => shownFrom o.output (commandSkip o.output e) := by
  rw [← analyzeTranscript_command hosc]
  cases normalizeOutput <;> rfl

end ExecResult

/-- The matching that led to the outcome excluded the echoed line of the stream: it
searched behind what is left of it, and reported nothing before it had ended. -/
def ExcludesEcho (e : LineEnding) (stream : List UInt8) (found : UntilOutcome) : Prop :=
  (∀ p, echoLineBoundary stream e = some p → found.matcher.searchStart = echoLeft e stream) ∧
  (echoLineBoundary stream e = none → found.matchDetails = none)

theorem UntilSpec.excludesEcho {regex : Regex} {e : LineEnding} {chunks : List (List UInt8)}
    {found : UntilOutcome} (h : UntilSpec regex .line e chunks found) :
    ExcludesEcho e chunks.flatten found := by
  obtain ⟨seen, htracks, hdetails⟩ := h.tracks
  cases seen with
  | false =>
    have hnone := (htracks.waiting rfl).2
    refine ⟨fun p hp => ?_, fun _ => hdetails⟩
    rw [hnone] at hp
    cases hp
  | true =>
    obtain ⟨p, hp, hstart⟩ := htracks.crossed rfl rfl
    refine ⟨fun _ _ => hstart.trans (echoLeft_some hp).symm, fun hnone => ?_⟩
    rw [hp] at hnone
    cases hnone

theorem UntilSpec.output {regex : Regex} {echoMode : EchoMode} {e : LineEnding}
    {chunks : List (List UInt8)} {found : UntilOutcome}
    (h : UntilSpec regex echoMode e chunks found) :
    found.matcher.intoBuffer = chunks.flatten.rtake maxReadBuffer := by
  obtain ⟨seen, htracks, _⟩ := h.tracks
  exact htracks.live

theorem RunSpec.presents {regex : Regex} {e : LineEnding} {i : Intake} {o : ExecOutcome}
    (h : RunSpec regex .line e i o) : o.output = i.answer.rtake maxReadBuffer ∧
      ∃ found, Presents found o ∧ ExcludesEcho e i.answer found := by
  cases h with
  | unread hunsent =>
    have hanswer : i.answer = [] := by simp [Intake.answer, hunsent]
    refine ⟨by rw [hanswer, List.rtake_nil]; rfl,
      ⟨.cancelled, 0, none, { regex, maxBuffer := maxReadBuffer }⟩,
      ⟨rfl, rfl, rfl, rfl, by simp [cancelledBeforeWrite, maxReadBuffer]⟩, fun p hp => ?_,
      fun _ => rfl⟩
    rw [hanswer, echoLineBoundary_nil] at hp
    cases hp
  | read hsent _ hfinds hpresents =>
    have hanswer : i.answer = i.chunks.flatten := by simp [Intake.answer, hsent]
    rw [hanswer]
    exact ⟨hpresents.output.trans hfinds.output, _, hpresents, hfinds.excludesEcho⟩

/-- The output of an `exec` in echo mode `line` is presented without the part of it that
was excluded from matching if and only if the window still has the end of the echoed line,
or has nothing that could be taken for it. -/
theorem echo_presentation {rx : RegexCrate} {id expect : String} {command : List UInt8}
    {timeoutMs : Nat} {options : ExecOptions} {token : Token} {es : List Ask} {o : ExecOutcome}
    (hline : options.echoMode = .line)
    (h : Runs (execWithOptions rx id command expect timeoutMs options token).run es
      (ret (.ok o))) (prompt : SemanticPrompt) (normalizeOutput : Bool) :
    let stream := (Intake.run es).answer
    let e := options.lineEnding
    o.output = stream.rtake maxReadBuffer ∧
    (∃ found, Presents found o ∧ ExcludesEcho e stream found) ∧
    (execResult o e .line prompt true).normalizedOutput =
      some (shownFrom o.output (normalizedSkip o.output e)) ∧
    (oscRecognised prompt o.output = false →
      (execResult o e .line prompt normalizeOutput).commandOutput =
        (echoLineBoundary o.output e).map fun _ => shownFrom o.output (commandSkip o.output e)) ∧
    (AgreesOnEcho e prompt stream o.output ↔ EchoInWindow e prompt stream) := by
  obtain ⟨regex, _, hspec⟩ := execWithOptions_spec h
  rw [hline] at hspec
  obtain ⟨houtput, hfound⟩ := hspec.presents
  refine ⟨houtput, hfound, execResult_normalized, execResult_command, ?_⟩
  rw [houtput]
  exact agreesOnEcho_iff

/-! ### Output that is taken for echo -/

def neverRegexes : RegexCrate := ⟨fun _ => .ok neverRegex⟩

def lineOptions : ExecOptions := ⟨false, .line, .lf⟩

def sentExec : List Ask :=
  [⟨.get firstId, some firstSession⟩, ⟨.isCancelled .never, false⟩, ⟨.timeLeft, true⟩,
    ⟨.lock (0 : Nat) .never, .ready ()⟩, ⟨.get firstId, some firstSession⟩,
    ⟨.isCancelled .never, false⟩, ⟨.timeLeft, true⟩, ⟨.cancelPicked .never, false⟩,
    ⟨.write (0 : Nat) [10] .never, .ready (.ok ⟨1, by decide⟩)⟩, ⟨.timeLeft, true⟩,
    ⟨.flush (0 : Nat) .never, .ready (.ok ())⟩]

def execReport (found : UntilOutcome) : ExecOutcome :=
  { status := found.status
    output := found.matcher.intoBuffer
    bytesWritten := 1
    bytesRead := found.bytesRead
    elapsedMs := 5
    truncated := maxReadBuffer ≤ found.matcher.intoBuffer.length
    matchDetails := found.matchDetails
    commandWritten := true
    sessionUsable := true
    clearedBeforeWrite := none }

theorem sentExec_runs {es : List Ask} {found : UntilOutcome}
    (h : Runs (readUntilLocked (0 : Nat) { regex := neverRegex, maxBuffer := maxReadBuffer } .never
      .line .lf).run es (ret (.ok found))) :
    Runs (execWithOptions neverRegexes firstId [10] "x" 5 lineOptions .never).run
      (sentExec ++ (es ++ [⟨.elapsedMs, (5 : Nat)⟩, ⟨.unlock (0 : Nat), ()⟩]))
      (ret (.ok (execReport found))) := by
  refine .step (.step (.step (.step (.step (.step (.step (.step (.step (.step (.step ?_))))))))))
  refine @Runs.append _ _ _ _ _ _ es _ ((h.bind _).under _) ?_
  exact .step (.step (.refl _))

def longAnswer : List ReadChunk := longOutput 17 ++ [⟨[10, 98], by decide⟩]

def longExec : List Ask :=
  sentExec ++ (⟨.turns, longAnswer.length⟩ :: longAnswer.map (readEvent (0 : Nat) .never) ++
    [⟨.elapsedMs, (5 : Nat)⟩, ⟨.unlock (0 : Nat), ()⟩])

theorem longExec_runs : ∃ o,
    Runs (execWithOptions neverRegexes firstId [10] "x" 5 lineOptions .never).run longExec
      (ret (.ok o)) := by
  have hne : ∀ b ∈ longAnswer, b.1 ≠ [] := by
    intro b hb
    rcases List.mem_append.mp hb with hb | hb
    · exact longOutput_ne_nil 17 b hb
    · rw [List.mem_singleton.mp hb]
      exact List.cons_ne_nil 10 [98]
  have hread : ∃ found, Runs (readUntilLocked (0 : Nat)
      { regex := neverRegex, maxBuffer := maxReadBuffer } .never .line .lf).run
      (⟨.turns, longAnswer.length⟩ :: longAnswer.map (readEvent (0 : Nat) .never))
      (ret (.ok found)) := readUntilLocked_unmatched rfl longAnswer hne
  obtain ⟨found, h⟩ := hread
  exact ⟨_, sentExec_runs h⟩

theorem foldl_readEvents (port : Handle) (token : Token) (bytes : List ReadChunk) (i : Intake) :
    (bytes.map (readEvent port token)).foldl (fun i e => i.advance e.req e.resp) i =
      { i with chunks := i.chunks ++ bytes.map Subtype.val } := by
  induction bytes generalizing i with
  | nil => simp
  | cons b bytes ih =>
    rw [List.map_cons, List.foldl_cons, ih]
    show { i with chunks := i.chunks ++ [b.1] ++ _ } = _
    rw [List.append_assoc]
    rfl

theorem longExec_answer : (Intake.run longExec).answer =
    10 :: List.replicate (17 * chunkLen) 97 ++ [10, 98] := by
  have hread : Intake.run longExec = ⟨[], longAnswer.map Subtype.val, true⟩ := by
    rw [longExec, Intake.run, List.foldl_append, List.cons_append, List.foldl_cons,
      List.foldl_append, foldl_readEvents]
    rfl
  rw [hread, ← longOutput_bytes]
  show (longAnswer.map Subtype.val).flatten = _
  rw [longAnswer, List.map_append, List.flatten_append]
  rfl

theorem longExec_slid : slid (Intake.run longExec).answer = 4099 := by
  rw [longExec_answer, slid, List.length_append, List.length_cons, List.length_replicate]
  decide

theorem longExec_boundary : echoLineBoundary (Intake.run longExec).answer .lf = some 1 := by
  refine echoLineBoundary_eq_some.mpr ⟨by decide, ?_⟩
  rw [longExec_answer]
  exact ⟨endsAt_length.mpr ⟨_, rfl⟩, fun q hq => hq.length_le⟩

theorem longExec_window_boundary : ∃ b,
    echoLineBoundary ((Intake.run longExec).answer.rtake maxReadBuffer) .lf = some b := by
  have hends : EndsAt LineEnding.lf.bytes (Intake.run longExec).answer (17 * chunkLen + 2) := by
    let lines : List UInt8 := 10 :: List.replicate (17 * chunkLen) 97 ++ [10]
    have hlength : lines.length = 17 * chunkLen + 2 := by
      rw [List.length_append, List.length_cons, List.length_replicate]
      rfl
    have hlines : EndsAt LineEnding.lf.bytes lines lines.length :=
      ⟨Nat.le_refl _, by rw [List.take_length]; exact List.suffix_append ..⟩
    have happend := hlines.append [98]
    rw [hlength, List.append_assoc] at happend
    rw [longExec_answer]
    exact happend
  refine Option.ne_none_iff_exists'.mp fun hnone => ?_
  refine (echoLineBoundary_eq_none.mp hnone).elim (by decide) fun h => ?_
  apply h (17 * chunkLen + 2 - 4099)
  rw [List.rtake, ← slid, endsAt_drop (slid_le _), longExec_slid]
  exact ⟨hends, by decide⟩

/-- The window has slid past the echoed line, and the output up to its last line is left
out as if it were echo. -/
theorem long_output_dropped_as_echo : ∃ o,
    Runs (execWithOptions neverRegexes firstId [10] "x" 5 lineOptions .never).run longExec
      (ret (.ok o)) ∧
    echoLeft .lf (Intake.run longExec).answer = 0 ∧ 0 < normalizedSkip o.output .lf ∧
      ¬AgreesOnEcho .lf .none (Intake.run longExec).answer o.output := by
  obtain ⟨o, h⟩ := longExec_runs
  obtain ⟨regex, _, hspec⟩ := execWithOptions_spec h
  have hleft : echoLeft .lf (Intake.run longExec).answer = 0 := by
    rw [echoLeft_some longExec_boundary, longExec_slid]
  have hskip : 0 < normalizedSkip o.output .lf := by
    obtain ⟨b, hb⟩ := longExec_window_boundary
    have hlen := (echoLineBoundary_eq_some.mp hb).2.ends.length_le
    rw [hspec.presents.1, normalizedSkip_some hb]
    exact hlen
  refine ⟨o, h, hleft, hskip, fun hagrees => ?_⟩
  have heq := hagrees.normalized
  omega

theorem echo_presentation_long : ∃ o : ExecOutcome,
    o.output = (Intake.run longExec).answer.rtake maxReadBuffer ∧
      (AgreesOnEcho .lf .none (Intake.run longExec).answer o.output ↔
        EchoInWindow .lf .none (Intake.run longExec).answer) := by
  obtain ⟨o, h⟩ := longExec_runs
  have hpresented := echo_presentation (by decide) h .none true
  exact ⟨o, hpresented.1, hpresented.2.2.2.2⟩

end McpSerial
