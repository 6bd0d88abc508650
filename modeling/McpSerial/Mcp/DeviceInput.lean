import McpSerial.Manager.Delivery
import McpSerial.Mcp.MatchOffsets
import McpSerial.Mcp.WriteGate
import McpSerial.Terminal.Normalization

/-! What the responses of the calls tell of the bytes that a device has sent, and how much
of them they carry. -/

namespace McpSerial
open Interaction Interaction.Program Interaction.Discipline Utf8

/-- Device output as a client gets it: the end of `answer`, decoded. -/
structure Excerpt (answer : List UInt8) (text : List Char) (bytesRead : Nat) (truncated : Bool) :
    Prop where
  shown : text = fromUtf8Lossy (answer.rtake maxReadBuffer)
  count : bytesRead = answer.length
  truncated_iff : truncated = true ↔ maxReadBuffer ≤ answer.length

def ToolCall.readLimit : ToolCall → Nat
  | .read p => min (p.maxBytes.getD McpServer.defaultReadMaxBytes) maxReadBuffer
  | .drain p | .clearInput p => min (p.maxBytes.getD maxReadBuffer) maxReadBuffer
  | _ => 0

def ExecResult.discarded (r : ExecResult) : Nat :=
  (r.clearedBeforeWrite.map (·.discardedBytes)).getD 0

structure Limited (limit : Nat) (segment : List UInt8) (bytesRead : Nat) (truncated : Bool) :
    Prop where
  count : bytesRead = segment.length
  bounded : segment.length ≤ limit
  full : truncated = true → segment.length = limit

/-- What a response says of the bytes that its call has taken from the device. -/
def Tells (call : ToolCall) (segment : List UInt8) : CallToolResponse → Prop
  | .complete (.read r) =>
    r.data = fromUtf8Lossy segment ∧ Limited call.readLimit segment r.bytesRead r.truncated
  | .complete (.clearInput r) =>
    r.discardedBytes = segment.length ∧
      Limited call.readLimit segment r.bytesRead r.truncated
  | .complete (.readUntil r) => Excerpt segment r.data r.bytesRead r.truncated
  | .complete (.exec r) =>
    segment.length = r.discarded + r.bytesRead ∧
      Excerpt (segment.drop r.discarded) r.output r.bytesRead r.truncated
  | .complete (.error body) => body.bytesConsumed = false → segment = []
  | _ => segment = []

def CallToolResponse.texts : CallToolResponse → List (List Char)
  | .complete (.read r) => [r.data]
  | .complete (.readUntil r) => r.data :: r.matchDetails.toList.map (·.text)
  | .complete (.exec r) =>
    [r.output, r.rawOutput] ++ r.normalizedOutput.toList ++ r.commandOutput.toList ++
      r.matchDetails.toList.map (·.text)
  | _ => []

/-! ## The size of what is shown -/

theorem normalizeExecOutput_length_le (raw : List UInt8) (boundary : Option Nat) :
    (normalizeExecOutput raw boundary).length ≤ raw.length := by
  have hshown (visible : List UInt8) (h : visible.length ≤ raw.length) :
      (normalizeTerminalOutput (fromUtf8Lossy visible)).length ≤ raw.length :=
    ((normalizeTerminalOutput_length_le _).trans (fromUtf8Lossy_length_le visible)).trans h
  cases boundary with
  | none => exact hshown raw le_rfl
  | some n => exact hshown (raw.drop n) (by simp)

theorem parseOneOsc3008Command_length_le {raw : List UInt8} {command : OscCommand}
    (h : parseOneOsc3008Command raw = some command) : command.output.length ≤ raw.length := by
  unfold parseOneOsc3008Command at h
  split at h
  · cases h
  · split at h
    · split at h
      · obtain rfl := Option.some.inj h
        rw [List.length_drop, List.length_take]
        omega
      · cases h
    · cases h

theorem analyzeTranscript_length_le (raw : List UInt8) (e : LineEnding) (echoMode : EchoMode)
    (semanticPrompt : SemanticPrompt) :
    (analyzeTranscript raw e echoMode semanticPrompt).normalizedOutput.length ≤ raw.length ∧
      ∀ out, (analyzeTranscript raw e echoMode semanticPrompt).commandOutput = some out →
        out.length ≤ raw.length := by
  have hnormalized (boundary : Option Nat) := normalizeExecOutput_length_le raw boundary
  unfold analyzeTranscript
  dsimp only
  split
  next command hcommand =>
    refine ⟨hnormalized _, ?_⟩
    rintro _ ⟨⟩
    have hfound : parseOneOsc3008Command raw = some command := by
      split_ifs at hcommand
      exact hcommand
    exact ((normalizeTerminalOutput_length_le _).trans (fromUtf8Lossy_length_le _)).trans
      (parseOneOsc3008Command_length_le hfound)
  next =>
    refine ⟨hnormalized _, fun out hout => ?_⟩
    cases echoMode with
    | line =>
      obtain ⟨n, _, rfl⟩ := Option.map_eq_some_iff.mp hout
      exact normalizeExecOutput_length_le raw (some n)
    | none =>
      cases hout
      exact hnormalized _
    | unknown =>
      have hout : (if semanticPrompt ≠ .none then some (normalizeExecOutput raw none) else none) =
        some out := hout
      split_ifs at hout
      obtain rfl := Option.some.inj hout
      exact hnormalized none

theorem MatchDetails.SliceOf.length_le {d : MatchDetails} {text : List Char}
    (h : d.SliceOf text) : d.text.length ≤ text.length := by
  obtain ⟨before, after, rfl, _⟩ := h
  simp only [List.length_append]
  omega

/-! ## The outcomes of the pattern-driven operations -/

structure Recounts (segment : List UInt8) (o : ExecOutcome) : Prop
    extends RunAccount segment o where
  truncated_iff : o.truncated = true ↔ maxReadBuffer ≤ (segment.drop (clearedBytes o)).length
  slice : ∀ d, o.matchDetails = some d → d.SliceOf (fromUtf8Lossy o.output)

section Outcomes

variable {regex : Regex} {echoMode : EchoMode} {e : LineEnding} {chunks : List (List UInt8)}
  {i : Intake} {o : ExecOutcome} {segment : List UInt8}

theorem UntilSpec.slice {found : UntilOutcome} (h : UntilSpec regex echoMode e chunks found)
    {d : MatchDetails} (hd : found.matchDetails = some d) :
    d.SliceOf (fromUtf8Lossy found.matcher.intoBuffer) := by
  obtain ⟨seen, _, hdetails⟩ := h.tracks
  rw [hdetails] at hd
  cases seen with
  | false => cases hd
  | true => exact (PatternMatcher.matchDetails_slice hd).1

theorem Presents.recounts {found : UntilOutcome} (h : Presents found o)
    (hclears : Clears i.before o.clearedBeforeWrite)
    (hfinds : UntilSpec regex echoMode e i.chunks found) : Recounts i.bytes o where
  toRunAccount := h.account hclears hfinds
  truncated_iff := by
    rw [h.truncated, decide_eq_true_iff, (h.account hclears hfinds).output,
      Sliding.rtake_length]
    omega
  slice d hd := by
    rw [h.output]
    exact hfinds.slice (h.details ▸ hd)

theorem RunSpec.recounts (h : RunSpec regex echoMode e i o) : Recounts i.bytes o := by
  have haccount := h.account
  cases h with
  | read _ hclears hfinds hpresents => exact hpresents.recounts hclears hfinds
  | @unread elapsedMs cleared =>
    -- nothing was read for the outcome to show
    refine ⟨haccount, ?_, nofun⟩
    have hcount : i.bytes.length = clearedBytes (cancelledBeforeWrite elapsedMs cleared) :=
      haccount.count
    rw [← hcount, List.drop_length]
    simp [cancelledBeforeWrite, maxReadBuffer]

theorem Recounts.output_length_le (h : Recounts segment o) : o.output.length ≤ maxReadBuffer := by
  rw [h.output, Sliding.rtake_length]
  exact Nat.min_le_right ..

theorem Recounts.excerpt (h : Recounts segment o) :
    Excerpt (segment.drop (clearedBytes o)) (fromUtf8Lossy o.output) o.bytesRead o.truncated where
  shown := by rw [h.output]
  count := by rw [List.length_drop, h.count, Nat.add_sub_cancel_left]
  truncated_iff := h.truncated_iff

theorem Recounts.discarded (h : Recounts segment o) :
    ((o.clearedBeforeWrite.map clearInputResult).map (·.discardedBytes)).getD 0 =
      clearedBytes o := by
  cases hcleared : o.clearedBeforeWrite with
  | none =>
    unfold clearedBytes
    rw [hcleared]
    rfl
  | some r =>
    have hdata := congrArg List.length (h.cleared r hcleared)
    have hcount := h.count
    rw [List.length_take, Nat.min_eq_left (by omega)] at hdata
    exact hdata

theorem Recounts.text_le (h : Recounts segment o) :
    (fromUtf8Lossy o.output).length ≤ maxReadBuffer :=
  (fromUtf8Lossy_length_le o.output).trans h.output_length_le

theorem Recounts.details_le (h : Recounts segment o) {d : MatchDetails}
    (hd : o.matchDetails = some d) : d.text.length ≤ maxReadBuffer :=
  (h.slice d hd).length_le.trans h.text_le

end Outcomes

/-! ## Calls -/

theorem intake_write_silent (id : String) (data : List UInt8) (token : Token) :
    intake.Meets {} (writeWithCancel id data token) (fun i _ => i.bytes = [])
      (fun _ _ => True) := by
  unfold writeWithCancel
  rw [meets_bind]
  refine meets_checkoutPortAndTimeout trivial (fun x port _ => ?_) (fun _ _ => trivial) trivial
  apply intake_detached.withPort _ fun _ => trivial
  apply Meets.bind (Q := fun (i : Intake) _ => i = {})
  · apply meets_writeAllDeadline intake_plain (I := fun (i : Intake) _ => i = {})
    · exact fun _ _ _ _ => trivial
    · exact fun _ _ _ _ h => h
    · exact fun _ _ _ _ _ => trivial
    · rfl
  · rintro _ _ rfl
    apply Meets.bind (Q := fun (i : Intake) _ => i.bytes = [])
    · exact meets_flushDeadline intake_plain trivial rfl fun _ _ => trivial
    · exact fun _ _ h => h

theorem intake_open_silent (env : Environment) (args : SessionArgs) :
    intake.Meets {} (openWithConsoleAndPolicy env args) (fun i _ => i.bytes = [])
      (fun _ _ => True) := by
  unfold openWithConsoleAndPolicy
  split
  · rw [meets_bind, meets_ask]
    refine ⟨trivial, fun reserved => ?_⟩
    cases reserved with
    | error e => trivial
    | ok id =>
      refine ⟨trivial, fun result => ⟨trivial, fun completed => ?_⟩⟩
      cases completed with
      | error e => trivial
      | ok id => rfl
  · trivial

theorem intake_close_silent (id : String) (timeoutMs : Nat) :
    intake.Meets {} (closeWithTimeout id timeoutMs) (fun i _ => i.bytes = [])
      (fun _ _ => True) := by
  unfold closeWithTimeout
  rw [meets_bind, meets_ask]
  refine ⟨trivial, fun begun => ?_⟩
  rcases begun with e | (none | port)
  · trivial
  · exact ⟨trivial, fun _ => rfl⟩
  · show intake.Meets {} (Fallible.attempt (lockPort port timeoutMs .never) >>= _) _ _
    rw [meets_bind, meets_attempt]
    apply meets_lockPort intake_plain trivial
    · exact ⟨trivial, fun _ => ⟨trivial, fun _ => rfl⟩⟩
    · exact ⟨trivial, fun _ => trivial⟩
    · exact ⟨trivial, fun _ => trivial⟩

/-- A successful response tells of the intake of its call, and no text in it is longer than
the buffer. -/
structure Answers (call : ToolCall) (i : Intake) (response : CallToolResponse) : Prop where
  tells : (∀ body, response ≠ .complete (.error body)) → Tells call i.bytes response
  bounded : ∀ text ∈ response.texts, text.length ≤ maxReadBuffer

section Calls

variable {call : ToolCall} {i : Intake}

theorem Answers.of_error (body : ToolErrorBody) : Answers call i (.complete (.error body)) where
  tells h := absurd rfl (h body)
  bounded := by simp [CallToolResponse.texts]

theorem Answers.of_silent {response : CallToolResponse} (htexts : response.texts = [])
    (htells : Tells call i.bytes response) : Answers call i response where
  tells _ := htells
  bounded := by simp [htexts]

theorem ReadSpec.limited {limit : Nat} {o : ReadOutcome}
    (h : i.before = [] ∧ ReadSpec limit i.chunks o) :
    o.data = i.bytes ∧ Limited limit i.bytes o.bytesRead o.truncated := by
  have hbytes : i.bytes = i.chunks.flatten := by
    rw [Intake.bytes, h.1]
    rfl
  rw [hbytes]
  exact ⟨h.2.data, h.2.bytes_read, h.2.bounded, fun ht => h.2.complete (h.2.truncated.mp ht)⟩

theorem Answers.of_read {o : ReadOutcome} (hcall : call.readLimit ≤ maxReadBuffer)
    (h : i.before = [] ∧ ReadSpec call.readLimit i.chunks o) :
    Answers call i (.complete (.read (readResult o))) := by
  obtain ⟨hdata, hlimited⟩ := ReadSpec.limited h
  refine ⟨fun _ => ⟨congrArg fromUtf8Lossy hdata, hlimited⟩, fun text htext => ?_⟩
  obtain rfl := List.mem_singleton.mp htext
  have hbounded := hlimited.bounded
  rw [← hdata] at hbounded
  exact ((fromUtf8Lossy_length_le o.data).trans hbounded).trans hcall

theorem Answers.of_clearInput {o : ReadOutcome}
    (h : i.before = [] ∧ ReadSpec call.readLimit i.chunks o) :
    Answers call i (.complete (.clearInput (clearInputResult o))) := by
  obtain ⟨hdata, hlimited⟩ := ReadSpec.limited h
  exact .of_silent rfl ⟨congrArg List.length hdata, hlimited⟩

theorem Answers.of_readUntil {o : ExecOutcome} (h : Recounts i.bytes o)
    (hcleared : o.clearedBeforeWrite = none) :
    Answers call i (.complete (.readUntil (readUntilResult o))) := by
  have hnone : clearedBytes o = 0 := by
    unfold clearedBytes
    rw [hcleared]
    rfl
  refine ⟨fun _ => ?_, fun text htext => ?_⟩
  · have hexcerpt := h.excerpt
    rw [hnone] at hexcerpt
    exact hexcerpt
  · rcases List.mem_cons.mp htext with rfl | htext
    · exact h.text_le
    · obtain ⟨d, hd, rfl⟩ := List.mem_map.mp htext
      exact h.details_le (Option.mem_toList.mp hd)

theorem execResult_texts_le {o : ExecOutcome} (hfits : o.output.length ≤ maxReadBuffer)
    (e : LineEnding) (echoMode : EchoMode) (semanticPrompt : SemanticPrompt)
    (normalizeOutput : Bool) :
    let r := execResult o e echoMode semanticPrompt normalizeOutput
    (∀ text, r.normalizedOutput = some text → text.length ≤ maxReadBuffer) ∧
      ∀ text, r.commandOutput = some text → text.length ≤ maxReadBuffer := by
  obtain ⟨hnormalized, hcommand⟩ :=
    analyzeTranscript_length_le o.output e echoMode semanticPrompt
  cases normalizeOutput with
  | true =>
    refine ⟨?_, fun text htext => (hcommand text htext).trans hfits⟩
    rintro _ ⟨⟩
    exact hnormalized.trans hfits
  | false =>
    refine ⟨nofun, fun text htext => ?_⟩
    obtain ⟨analysis, hanalysis, hout⟩ := Option.bind_eq_some_iff.mp htext
    split_ifs at hanalysis
    obtain rfl := Option.some.inj hanalysis
    exact (hcommand text hout).trans hfits

theorem Answers.of_exec {o : ExecOutcome} (h : Recounts i.bytes o) (e : LineEnding)
    (echoMode : EchoMode) (semanticPrompt : SemanticPrompt) (normalizeOutput : Bool) :
    Answers call i
      (.complete (.exec (execResult o e echoMode semanticPrompt normalizeOutput))) := by
  obtain ⟨hnormalized, hcommand⟩ :=
    execResult_texts_le h.output_length_le e echoMode semanticPrompt normalizeOutput
  refine ⟨fun _ => ⟨?_, ?_⟩, fun text htext => ?_⟩
  · rw [ExecResult.discarded]
    exact (congrArg (· + o.bytesRead) h.discarded).symm ▸ h.count
  · rw [ExecResult.discarded]
    exact h.discarded.symm ▸ h.excerpt
  · simp only [CallToolResponse.texts, List.mem_append, Option.mem_toList, List.mem_map] at htext
    rcases htext with ((hraw | htext) | htext) | ⟨d, hd, rfl⟩
    · have hshown : text = fromUtf8Lossy o.output := by simpa [execResult] using hraw
      rw [hshown]
      exact h.text_le
    · exact hnormalized text htext
    · exact hcommand text htext
    · exact h.details_le hd

end Calls

theorem toolCode_answers (srv : McpServer) (call : ToolCall) :
    intake.Follows {} (toolCode srv call) (Answers call) := by
  cases call with
  | listPorts =>
    exact follows_listPorts intake_plain (fun _ => .of_silent rfl rfl) fun _ => .of_error _
  | «open» p =>
    apply follows_open intake_plain
    · intro _ args _
      apply (intake_open_silent srv.toEnvironment args).mono
      · exact fun _ _ h => .of_silent rfl h
      · exact fun _ _ _ => .of_error _
    · exact fun _ => .of_error _
  | sessions => exact follows_sessions intake_plain fun _ => .of_silent rfl rfl
  | getSession p =>
    exact follows_getSession (lookup_intake _) (fun _ _ => .of_silent rfl rfl) fun _ => .of_error _
  | write p context inputResponses =>
    apply follows_write (lookup_intake _)
    · intro _ _ _ _ _ _
      apply follows_run_bind.mpr
      apply (intake_write_silent p.sessionId _ .call).mono
      · exact fun _ _ h => .of_silent rfl h
      · exact fun _ _ _ => .of_error _
    · exact fun _ _ _ _ _ _ _ => .of_silent rfl rfl
    all_goals intros; exact .of_error _
  | read p =>
    apply follows_operationTimeoutMs (lookup_intake _)
    · intro timeoutMs
      apply follows_run_bind.mpr
      apply (intake_readWithCancel p.sessionId _ timeoutMs .call).mono
      · exact fun _ _ h => .of_read (Nat.min_le_right ..) h
      · exact fun _ _ _ => .of_error _
    · exact fun _ => .of_error _
  | drain p =>
    apply follows_run_bind.mpr
    apply (intake_drain p.sessionId _ .call).mono
    · exact fun _ _ h => .of_read (Nat.min_le_right ..) h
    · exact fun _ _ _ => .of_error _
  | clearInput p =>
    apply follows_run_bind.mpr
    apply (intake_drain p.sessionId _ .call).mono
    · exact fun _ _ h => .of_clearInput h
    · exact fun _ _ _ => .of_error _
  | readUntil p =>
    apply follows_readUntil (lookup_intake _)
    · intro timeoutMs
      apply (intake_readUntilWithCancel _ p.sessionId p.pattern timeoutMs .call).mono
      -- nothing is cleared first, so what is reported starts with the first byte that is read
      · rintro _ o ⟨hfirst, _, _, found, hfinds, hpresents, hcleared⟩
        exact .of_readUntil (hpresents.recounts (by rw [hcleared]; exact hfirst) hfinds) hcleared
      · exact fun _ _ _ => .of_error _
    · exact fun _ => .of_error _
  | exec p context inputResponses =>
    apply follows_exec (lookup_intake _)
    · intro _ _ _ _ _ _ _ _
      apply follows_sendExec (lookup_intake _)
      · intro timeoutMs clearBeforeWrite
        apply (intake_execWithOptions _ p.sessionId _ p.expect timeoutMs _ .call).mono
        · rintro _ o ⟨_, _, h⟩
          exact .of_exec h.recounts ..
        · exact fun _ _ _ => .of_error _
      · exact fun _ => .of_error _
    · exact fun _ _ _ _ _ _ _ _ _ => .of_silent rfl rfl
    all_goals intros; exact .of_error _
  | close p =>
    apply follows_run_bind.mpr
    apply (intake_close_silent p.sessionId _).mono
    · exact fun _ _ h => .of_silent rfl h
    · exact fun _ _ _ => .of_error _

/-! ## In a run -/

theorem toolCode_io (srv : McpServer) {call : ToolCall} {es : List Ask}
    {q : Handler CallToolResponse} (h : Runs (toolCode srv call) es q) {e : Ask} (he : e ∈ es)
    (hio : e.req.ioPort ≠ none) : call.usesPort ∧ ∃ id, call.sessionId = some id := by
  have hnamed : call.sessionId ≠ none := by
    intro hid
    have hunnamed := toolCode_unnamed srv hid h e he
    apply hio
    revert hunnamed
    cases e.req <;> first | exact fun _ => rfl | nofun
  cases call with
  | listPorts | «open» | sessions => exact absurd rfl hnamed
  | close p =>
    have hcode : (only fun r : Request => r.closes = true).Follows () (McpServer.close p)
        fun _ _ => True := follows_run_bind.mpr (OnlyAsks.closeWithTimeout p.sessionId maxTimeoutMs)
    exact absurd (Request.ioPort_of_closes (Follows.only_mem hcode h e he)) hio
  | _ => exact ⟨rfl, _, rfl⟩

theorem IoLog.run_consumed (es : List Ask) : (IoLog.run es).consumed = es.flatMap obtained := by
  have hfold (l : IoLog) : (es.foldl (fun l e => l.advance e.req e.resp) l).consumed =
      l.consumed ++ es.flatMap obtained := by
    induction es generalizing l with
    | nil => simp
    | cons e es ih =>
      have hstep : (l.advance e.req e.resp).consumed = l.consumed ++ obtained e := by
        obtain ⟨r, x⟩ := e
        cases r <;> (try exact (List.append_nil _).symm) <;> rcases x with (_ | _) | _ | _ <;>
          first | rfl | exact (List.append_nil _).symm
      rw [List.foldl_cons, ih, hstep, List.flatMap_cons, List.append_assoc]
  exact hfold {}

section Runs

variable {srv : McpServer} {tr : List ToolLabel} {c : ToolConfig} {id : String}
  {args : SessionArgs} {port : Handle} {t : Nat} {th : ToolThread}

theorem got_names (h : Run machine (toolCode srv) tr c) (hopened : Opened tr id args port)
    (ht : t ∈ lockOrder port tr) (hgot : got t tr ≠ []) :
    ∃ th, c.threads t = some th ∧ th.call.sessionId = some id := by
  have hcode := toolCode_orderly srv
  have hblock : block t (ioEvents port tr) ≠ [] := by
    intro hnone
    rw [got, ← (hcode.serialized h).flatMap_block ht fun _ => obtained_eq_nil, hnone] at hgot
    exact hgot rfl
  obtain ⟨⟨u, e⟩, hown⟩ := List.exists_mem_of_ne_nil _ hblock
  obtain ⟨hmem, rfl⟩ := mem_block.mp hown
  obtain ⟨hact, hio⟩ := mem_ioEvents.mp hmem
  obtain ⟨th, hth, he⟩ := h.thread_of_act hact
  have hruns := (Run.started h hth).runs
  obtain ⟨huses, id', hid'⟩ := toolCode_io srv hruns he (by rw [hio]; exact Option.some_ne_none _)
  obtain ⟨v, hv⟩ := hcode.io_readied h hth (toolCode_usesPort srv huses hid' hruns) he hio
  obtain ⟨w, _, hw⟩ := hopened
  exact ⟨th, hth, by rw [hcode.port_unique h hw hv]; exact hid'⟩

/-- A response tells of all that its call has read. -/
theorem response_tells (h : Run machine (toolCode srv) tr c) (ht : c.threads t = some th)
    {response : CallToolResponse} (hret : th.rest = .ret response) :
    Tells th.call (got t tr) response := by
  have hstarted := Run.started h ht
  have hruns : Runs (toolCode srv th.call) th.past (.ret response) := hret ▸ hstarted.runs
  have hgot : got t tr = th.past.flatMap obtained := by
    rw [hstarted.past_eq]
    rfl
  have hanswers : Answers th.call (Intake.run th.past) response :=
    (toolCode_answers srv th.call).returns hruns
  have hreports : ToolReports (th.call.Sends (Found th)) (IoLog.run th.past) response :=
    (toolCode_ioLog srv (Found th) th.call).returns hruns _ (assuming_after (finds_found th))
  have htells := hanswers.tells
  rw [Intake.run_bytes, ← hgot] at htells
  cases response with
  | inputRequired ask => exact htells nofun
  | complete result =>
    cases result with
    | error body =>
      intro hunread
      rw [hgot, ← IoLog.run_consumed]
      exact hreports.2 hunread
    | _ => exact htells nofun

end Runs

/-- In every run: the bytes that the device of a session has sent are cut into those of the
calls on the session, in the order of their locks, and whatever a call has read its response
tells: as the text and the counts that it returns, or at least as an error that owns up. No
text in a response is longer than the buffer. -/
theorem device_input (srv : McpServer) {tr : List ToolLabel} {c : ToolConfig}
    (h : Run machine (toolCode srv) tr c) {id : String} {args : SessionArgs} {port : Handle}
    (hopened : Opened tr id args port) :
    delivered port tr = (lockOrder port tr).flatMap (fun t => got t tr) ∧
      (lockOrder port tr).Nodup ∧
      (∀ t ∈ lockOrder port tr, got t tr ≠ [] →
        ∃ th, c.threads t = some th ∧ th.call.sessionId = some id) ∧
      ∀ t th response, c.threads t = some th → th.rest = .ret response →
        Tells th.call (got t tr) response ∧
          ∀ text ∈ response.texts, text.length ≤ maxReadBuffer := by
  have hserial := (toolCode_orderly srv).serialized h
  refine ⟨hserial.delivered_eq port, (hserial.blocks port).nodup,
    fun t ht => got_names h hopened ht, fun t th response ht hret => ⟨response_tells h ht hret, ?_⟩⟩
  exact ((toolCode_answers srv th.call).returns (hret ▸ (Run.started h ht).runs)).bounded

def noiseTrace : List ToolLabel :=
  guardedTrace ++ [.start 1 (.readUntil readUntilParams)] ++
    [⟨.get firstId, some guardedSession⟩, ⟨.timeLeft, true⟩, ⟨.lock (0 : Nat) .call, .ready ()⟩,
      ⟨.get firstId, some guardedSession⟩, ⟨.turns, (1 : Nat)⟩,
      ⟨.read (0 : Nat) chunkLen .call, .ready (.ok ⟨[0xFF, 111, 107], by decide⟩)⟩,
      ⟨.elapsedMs, (5 : Nat)⟩, ⟨.unlock (0 : Nat), ()⟩].map (Label.act 1)

theorem noise_run : ∃ threads owner th r,
    Run machine (toolCode wordServer) noiseTrace
      ⟨⟨AList.singleton firstId guardedSession, owner, (1 : Nat)⟩, threads⟩ ∧
    threads 1 = some th ∧ th.call = .readUntil readUntilParams ∧
    th.rest = .ret (.complete (.readUntil r)) := by
  obtain ⟨threads, h₀, hfree⟩ := guarded_run
  have h₁ := h₀.start 1 (.readUntil readUntilParams) (hfree 1 (by decide))
  have h₂ := h₁.act 1 (r := .get firstId) (some guardedSession) rfl ⟨rfl, rfl⟩
  have h₃ := h₂.act 1 (r := .timeLeft) true rfl rfl
  have h₄ := h₃.act 1 (r := .lock (0 : Nat) .call) (.ready ()) rfl ⟨rfl, rfl⟩
  have h₅ := h₄.act 1 (r := .get firstId) (some guardedSession) rfl ⟨rfl, rfl⟩
  have h₆ := h₅.act 1 (r := .turns) (1 : Nat) rfl rfl
  have h₇ := h₆.act 1 (r := .read (0 : Nat) chunkLen .call)
    (.ready (.ok ⟨[0xFF, 111, 107], by decide⟩)) rfl ⟨trivial, rfl⟩
  have h₈ := h₇.act 1 (r := .elapsedMs) (5 : Nat) rfl rfl
  have h₉ := h₈.act 1 (r := .unlock (0 : Nat)) () rfl rfl
  exact ⟨_, _, _, _, h₉, rfl, rfl, rfl⟩

/-- Line noise and a match, all three bytes of them told to the one call that read them. -/
theorem device_input_noise : ∃ tr c r, Run machine (toolCode wordServer) tr c ∧
    delivered (0 : Nat) tr = got 1 tr ∧ got 1 tr = [0xFF, 111, 107] ∧
    Tells (.readUntil readUntilParams) (got 1 tr) (.complete (.readUntil r)) ∧
    r.data.length ≤ maxReadBuffer := by
  obtain ⟨threads, owner, th, r, h, hth, hcall, hret⟩ := noise_run
  have hopened : Opened noiseTrace firstId guardedArgs (0 : Nat) :=
    ⟨0, by simp [Reserved, noiseTrace, guardedTrace], by simp [Readied, noiseTrace, guardedTrace]⟩
  obtain ⟨hdelivered, _, _, hresponses⟩ := device_input wordServer h hopened
  obtain ⟨htells, hbounded⟩ := hresponses 1 th _ hth hret
  rw [hcall] at htells
  have horder : lockOrder (0 : Nat) noiseTrace = [1] := rfl
  rw [horder] at hdelivered
  exact ⟨_, _, r, h, hdelivered.trans (List.append_nil _), rfl, htells,
    hbounded _ List.mem_cons_self⟩

end McpSerial
