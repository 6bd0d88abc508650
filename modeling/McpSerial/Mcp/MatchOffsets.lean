import McpSerial.Manager.Intake
import McpSerial.Mcp.Calls

/-! The byte offsets of a reported match are offsets in the text that the client gets. -/

namespace McpSerial
open Interaction Interaction.Discipline Utf8

/-- The offsets cut the match out of `text`, at character boundaries. -/
structure MatchDetails.ValidIn (d : MatchDetails) (text : List Char) : Prop where
  ordered : d.startByte ≤ d.endByte
  start : IsBoundary text d.startByte
  stop : IsBoundary text d.endByte
  slice : ((encode text).take d.endByte).drop d.startByte = encode d.text

theorem MatchDetails.SliceOf.validIn {d : MatchDetails} {text : List Char} (h : d.SliceOf text) :
    d.ValidIn text := by
  obtain ⟨before, after, rfl, hstart, hstop⟩ := h
  have hlen : len (before ++ d.text) = d.endByte := by rw [len_append, hstop]
  refine ⟨by omega, ⟨before, d.text ++ after, by simp, hstart.symm⟩,
    ⟨before ++ d.text, after, rfl, hlen⟩, ?_⟩
  rw [encode_append, ← hlen, ← encode_length, List.take_left, encode_append, hstart,
    ← encode_length, List.drop_left]

/-! ## Operations -/

def ExecOutcome.OffsetsValid (o : ExecOutcome) : Prop :=
  ∀ d, o.matchDetails = some d → d.ValidIn (fromUtf8Lossy o.output)

theorem UntilSpec.offsets {regex : Regex} {echoMode : EchoMode} {e : LineEnding}
    {chunks : List (List UInt8)} {found : UntilOutcome}
    (h : UntilSpec regex echoMode e chunks found) {d : MatchDetails}
    (hd : found.matchDetails = some d) : d.ValidIn (fromUtf8Lossy found.matcher.intoBuffer) := by
  obtain ⟨seen, _, hdetails⟩ := h.tracks
  rw [hdetails] at hd
  cases seen with
  | false => cases hd
  | true => exact (PatternMatcher.matchDetails_slice hd).1.validIn

theorem Presents.offsets {regex : Regex} {echoMode : EchoMode} {e : LineEnding}
    {chunks : List (List UInt8)} {found : UntilOutcome} {o : ExecOutcome} (h : Presents found o)
    (hfinds : UntilSpec regex echoMode e chunks found) : o.OffsetsValid := by
  intro d hd
  rw [h.output]
  exact hfinds.offsets (h.details ▸ hd)

theorem RunSpec.offsets {regex : Regex} {echoMode : EchoMode} {e : LineEnding} {i : Intake}
    {o : ExecOutcome} (h : RunSpec regex echoMode e i o) : o.OffsetsValid := by
  cases h with
  | unread => nofun
  | read _ _ hfinds hpresents => exact hpresents.offsets hfinds

/-! ## Calls -/

/-- Any details of a response are valid in its `data` or `output`. -/
def CallToolResponse.OffsetsValid : CallToolResponse → Prop
  | .complete (.readUntil r) => ∀ d, r.matchDetails = some d → d.ValidIn r.data
  | .complete (.exec r) => ∀ d, r.matchDetails = some d → d.ValidIn r.output
  | _ => True

theorem lookup_intake (id : String) {Q : Intake → CallToolResponse → Prop} :
    Lookup intake {} id (fun _ => True) Q :=
  .of_still trivial fun _ => rfl

theorem toolCode_offsets (srv : McpServer) (call : ToolCall) :
    intake.Follows {} (toolCode srv call) fun _ response => response.OffsetsValid := by
  cases call with
  | listPorts => exact follows_listPorts intake_plain (fun _ => trivial) fun _ => trivial
  | «open» p =>
    apply follows_open intake_plain
    · exact fun _ args _ => intake_openWithConsoleAndPolicy srv.toEnvironment args
    · exact fun _ => trivial
  | sessions => exact follows_sessions intake_plain fun _ => trivial
  | getSession p =>
    exact follows_getSession (lookup_intake _) (fun _ _ => trivial) fun _ => trivial
  | write p context inputResponses =>
    apply follows_write (lookup_intake _)
    · intro _ _ _ _ _ _
      exact follows_run_bind.mpr (intake_writeWithCancel p.sessionId _ .call)
    all_goals intros; trivial
  | read p =>
    apply follows_read (lookup_intake _)
    · intro maxBytes timeoutMs
      apply (intake_readWithCancel p.sessionId maxBytes timeoutMs .call).mono
      · exact fun _ _ _ => trivial
      · exact fun _ _ _ => trivial
    · exact fun _ => trivial
  | drain p =>
    apply follows_run_bind.mpr
    apply (intake_drain p.sessionId _ .call).mono
    · exact fun _ _ _ => trivial
    · exact fun _ _ _ => trivial
  | clearInput p =>
    apply follows_run_bind.mpr
    apply (intake_drain p.sessionId _ .call).mono
    · exact fun _ _ _ => trivial
    · exact fun _ _ _ => trivial
  | readUntil p =>
    apply follows_readUntil (lookup_intake _)
    · intro timeoutMs
      apply (intake_readUntilWithCancel _ p.sessionId p.pattern timeoutMs .call).mono
      · rintro _ o ⟨_, _, _, found, hfinds, hpresents, _⟩
        exact hpresents.offsets hfinds
      · exact fun _ _ _ => trivial
    · exact fun _ => trivial
  | exec p context inputResponses =>
    apply follows_exec (lookup_intake _)
    · intro _ _ _ _ _ _ _ _
      apply follows_sendExec (lookup_intake _)
      · intro timeoutMs clearBeforeWrite
        apply (intake_execWithOptions _ p.sessionId _ p.expect timeoutMs _ .call).mono
        · rintro _ o ⟨_, _, h⟩
          exact h.offsets
        · exact fun _ _ _ => trivial
      · exact fun _ => trivial
    all_goals intros; trivial
  | close p => exact follows_run_bind.mpr (intake_closeWithTimeout p.sessionId _)

/-- Whatever the device sent and however it came in, the offsets of a match that a call
reports are character boundaries of the text it returns, and cut the match out of it. -/
theorem match_offsets_valid (srv : McpServer) {tr : List ToolLabel} {c : ToolConfig}
    (h : Run machine (toolCode srv) tr c) {t : Nat} {th : ToolThread}
    (ht : c.threads t = some th) {response : CallToolResponse} (hret : th.rest = .ret response) :
    response.OffsetsValid :=
  (toolCode_offsets srv th.call).returns (hret ▸ (Run.started h ht).runs)

def readUntilParams : ReadUntilParams :=
  { sessionId := firstId, pattern := "ok", timeoutMs := some 100 }

/-- Line noise takes one byte of the stream and three of the text. -/
theorem match_offsets_valid_noise : ∃ r d, r.matchDetails = some d ∧ d.startByte = 3 ∧
    d.text = ['o', 'k'] ∧ d.ValidIn r.data ∧ ∃ tr c th,
      Run machine (toolCode wordServer) tr c ∧ c.threads 1 = some th ∧
      th.rest = .ret (.complete (.readUntil r)) := by
  obtain ⟨threads, h₀, hfree⟩ := guarded_run
  have h₁ := h₀.start 1 (.readUntil readUntilParams) (hfree 1 (by decide))
  have h₂ := h₁.act 1 (r := .get firstId) (some guardedSession) rfl ⟨rfl, rfl⟩
  have h₃ := h₂.act 1 (r := .timeLeft) true rfl rfl
  have h₄ := h₃.act 1 (r := .lock (0 : Nat) .call) (.ready ()) rfl ⟨rfl, rfl⟩
  have h₅ := h₄.act 1 (r := .get firstId) (some guardedSession) rfl ⟨rfl, rfl⟩
  have h₆ := h₅.act 1 (r := .turns) (1 : Nat) rfl rfl
  have h₇ := h₆.act 1 (r := .read (0 : Nat) chunkLen .call)
    (.ready (.ok ⟨[0xFF, 111, 107], by decide⟩)) rfl ⟨trivial, rfl⟩
  have h₈ := h₇.act 1 (r := .elapsedMs) (5 : Nat) rfl rfl
  have h₉ := h₈.act 1 (r := .unlock (0 : Nat)) () rfl rfl
  have hvalid := match_offsets_valid wordServer h₉ (t := 1) rfl rfl
  exact ⟨_, ⟨['o', 'k'], 3, 5⟩, rfl, rfl, rfl, hvalid _ rfl, _, _, _, h₉, rfl, rfl⟩

end McpSerial
