import McpSerial.Manager.IoLog
import McpSerial.Mcp.Calls

/-! What a response says about the bytes that its call has written and read. -/

namespace McpSerial
open Interaction Interaction.Discipline Utf8

/-- The bytes that a call sends when it sends any, with the sessions that it may find. -/
def ToolCall.Sends (A : Option Session → Prop) : ToolCall → List UInt8 → Prop
  | .write p _ _, data => data = asBytes p.data
  | .exec p _ _, data => ∃ y, A (some y) ∧ data = p.transmitted y
  | _, _ => False

/-- The bytes that a call has been let through to the port with. -/
inductive Permitted (srv : McpServer) (A : Option Session → Prop) :
    ToolCall → List UInt8 → Prop where
  | write {p : WriteParams} {context : RequestContext} {inputResponses : Option InputResponses}
      {y z : Session} (hy : A (some y)) (hz : A (some z)) (passes : p.Passes y)
      (confirmed : Confirmed srv p.sessionId (p.confirm.getD false) context inputResponses
        "serial.write" (asBytes p.data) z.writePolicy) :
      Permitted srv A (.write p context inputResponses) (asBytes p.data)
  | exec {p : ExecParams} {context : RequestContext} {inputResponses : Option InputResponses}
      {y z w : Session} (hy : A (some y)) (hz : A (some z)) (hw : A (some w))
      (passes : p.Passes srv y z)
      (confirmed : Confirmed srv p.sessionId (p.confirm.getD false) context inputResponses
        "serial.exec" (p.transmitted y) w.writePolicy) :
      Permitted srv A (.exec p context inputResponses) (p.transmitted y)

structure SentWhole (payload : List UInt8 → Prop) (l : IoLog) (bytesWritten : Nat) : Prop where
  whole : payload l.written
  flushed : l.flushed = true
  count : bytesWritten = l.written.length

/-- What a response says about the log of its call. -/
def ToolReports (payload : List UInt8 → Prop) (l : IoLog) : CallToolResponse → Prop
  | .complete (.error body) =>
    (body.commandWritten = false → l.written = []) ∧ (body.bytesConsumed = false → l.consumed = [])
  | .complete (.write result) => SentWhole payload l result.bytesWritten
  | .complete (.exec result) =>
    (result.commandWritten = true → SentWhole payload l result.bytesWritten) ∧
    (result.commandWritten = false → l.written = [])
  | .complete _ => l.written = []
  | .inputRequired _ => l.written = [] ∧ l.consumed = []

theorem Permitted.sends {srv : McpServer} {A : Option Session → Prop} {call : ToolCall}
    {payload : List UInt8} (h : Permitted srv A call payload) : call.Sends A payload := by
  cases h with
  | write => rfl
  | exec hy => exact ⟨_, hy, rfl⟩

/-! ## From an empty log -/

section Logs

variable {P payload : List UInt8 → Prop} {l : IoLog} {e : SerialError} {sid : Option String}

theorem ToolReports.mono {response : CallToolResponse} (h : ToolReports P l response)
    (hP : ∀ data, P data → payload data) : ToolReports payload l response := by
  have hwhole {n : Nat} (h : SentWhole P l n) : SentWhole payload l n :=
    ⟨hP _ h.whole, h.flushed, h.count⟩
  cases response with
  | complete result =>
    cases result with
    | write => exact hwhole h
    | exec => exact ⟨fun hwritten => hwhole (h.1 hwritten), h.2⟩
    | _ => exact h
  | inputRequired => exact h

theorem toolReports_refused (e : SerialError) (sid : Option String) :
    ToolReports payload {} (.complete (refused e sid)) := ⟨fun _ => rfl, fun _ => rfl⟩

theorem ReadsOnly.reports (h : ReadsOnly l) (hclean : l.FailsClean e) :
    ToolReports payload l (.complete (toolError e sid false e.possibleSerialSideEffect)) :=
  ⟨fun _ => h.2, fun hconsumed => (hclean hconsumed).2⟩

theorem lookup_log {id : String} {Q : IoLog → CallToolResponse → Prop} :
    Lookup (ioLog P) l id (fun _ => True) Q :=
  .of_still trivial fun _ => rfl

theorem ioLog_sendWrite {p : WriteParams} (hP : P (asBytes p.data))
    (hpayload : payload (asBytes p.data)) :
    (ioLog P).Follows {} (McpServer.sendWrite p) (ToolReports payload) := by
  apply follows_run_bind.mpr
  apply (ioLog_writeWithCancel p.sessionId (asBytes p.data) .call hP).mono
  · rintro l n ⟨_, hwritten, hflushed, _, rfl⟩
    exact ⟨hwritten ▸ hpayload, hflushed, by rw [hwritten]⟩
  · rintro l e ⟨_, hconsumed, hclean⟩
    exact ⟨fun hwritten => (hclean hwritten).1, fun _ => hconsumed⟩

theorem ioLog_sendExec {srv : McpServer} {p : ExecParams} {plan : McpServer.ExecPlan}
    (hP : P plan.transmitted) (hpayload : payload plan.transmitted) :
    (ioLog P).Follows {} (srv.sendExec p plan) (ToolReports payload) := by
  apply follows_sendExec lookup_log
  · intro timeoutMs clearBeforeWrite
    apply (ioLog_execWithOptions srv.toRegexCrate p.sessionId plan.transmitted p.expect timeoutMs _
      .call hP).mono
    · intro l o h
      refine ⟨fun hwritten => ?_, h.unwritten⟩
      obtain ⟨hwhole, hflushed, hcount⟩ := h.written hwritten
      exact ⟨hwhole ▸ hpayload, hflushed, by rw [hwhole]; exact hcount⟩
    · rintro l e ⟨_, hclean⟩
      exact ⟨fun hwritten => (hclean hwritten).1, fun hconsumed => (hclean hconsumed).2⟩
  · exact fun _ => toolReports_refused ..

end Logs

/-- A call writes only what it was let through with, and reports what it has done. -/
theorem toolCode_ioLog (srv : McpServer) (A : Option Session → Prop) (call : ToolCall) :
    ((ioLog (Permitted srv A call)).assuming (Finds call.sessionId A)).Follows (some {})
      (toolCode srv call) (assumed (ToolReports (call.Sends A))) := by
  cases call with
  | listPorts =>
    apply Follows.assuming
    exact follows_listPorts ioLog_plain (fun _ => rfl) fun e => toolReports_refused e none
  | «open» p =>
    apply Follows.assuming
    apply follows_open ioLog_plain
    · intro target args _
      apply (ioLog_openWithConsoleAndPolicy srv.toEnvironment args).mono
      · rintro _ id rfl
        rfl
      · rintro _ e rfl
        exact toolReports_refused e none
    · exact fun e => toolReports_refused e none
  | sessions =>
    apply Follows.assuming
    exact follows_sessions ioLog_plain fun _ => rfl
  | getSession p =>
    apply Follows.assuming
    exact follows_getSession lookup_log (fun _ _ => rfl) fun _ => toolReports_refused ..
  | write p context inputResponses =>
    apply follows_write (lookup_assuming trivial fun _ => rfl)
    · intro y z hy hz hpasses hconfirmed
      apply Follows.assuming
      exact ioLog_sendWrite (.write hy hz hpasses hconfirmed) rfl
    · -- a question to the client comes before anything is sent
      rintro _ _ _ _ _ _ _ _ ⟨⟩
      exact ⟨rfl, rfl⟩
    -- whatever turns the request down does so before anything is sent
    all_goals
      intros
      rintro _ ⟨⟩
      exact toolReports_refused ..
  | read p =>
    apply Follows.assuming
    apply follows_read lookup_log
    · intro maxBytes timeoutMs
      apply (ioLog_readWithCancel p.sessionId maxBytes timeoutMs .call).mono
      · exact fun l o h => h.1.2
      · exact fun l e h => h.1.reports h.2
    · exact fun _ => toolReports_refused ..
  | drain p =>
    apply Follows.assuming
    apply follows_run_bind.mpr
    apply (ioLog_drain p.sessionId _ .call).mono
    · exact fun l o h => h.1.2
    · exact fun l e h => h.1.reports h.2
  | clearInput p =>
    apply Follows.assuming
    apply follows_run_bind.mpr
    apply (ioLog_drain p.sessionId _ .call).mono
    · exact fun l o h => h.1.2
    · exact fun l e h => h.1.reports h.2
  | readUntil p =>
    apply Follows.assuming
    apply follows_readUntil lookup_log
    · intro timeoutMs
      apply (ioLog_readUntilWithCancel srv.toRegexCrate p.sessionId p.pattern timeoutMs .call).mono
      · exact fun l o h => h.1.2
      · exact fun l e h => h.1.reports h.2
    · exact fun _ => toolReports_refused ..
  | exec p context inputResponses =>
    apply follows_exec (lookup_assuming trivial fun _ => rfl)
    · intro y z w hy hz hw hpasses hconfirmed
      apply Follows.assuming
      exact ioLog_sendExec (.exec hy hz hw hpasses hconfirmed) ⟨y, hy, rfl⟩
    · -- a question to the client comes before anything is sent
      rintro _ _ _ _ _ _ _ _ _ _ ⟨⟩
      exact ⟨rfl, rfl⟩
    all_goals
      intros
      rintro _ ⟨⟩
      exact toolReports_refused ..
  | close p =>
    apply Follows.assuming
    apply follows_run_bind.mpr
    apply (ioLog_closeWithTimeout p.sessionId _).mono
    · rintro _ _ rfl
      rfl
    · rintro _ e rfl
      exact toolReports_refused ..

/-! ## In a run -/

def Found (th : ToolThread) (x : Option Session) : Prop :=
  ∃ id, th.call.sessionId = some id ∧ ⟨.get id, x⟩ ∈ th.past

theorem finds_found (th : ToolThread) :
    ∀ e ∈ th.past, Finds th.call.sessionId (Found th) e.req e.resp := by
  rintro ⟨r, x⟩ he
  cases r with
  | get id =>
    intro hid
    exact ⟨id, hid, he⟩
  | _ => trivial

/-- Whatever becomes of a call, its response says what it has done to the port: an error
that denies a write or a read is one of a call that wrote or read nothing, and a success
that reports a write is one of a call whose whole payload was written and flushed. -/
theorem side_effects_reported (srv : McpServer) {tr : List ToolLabel} {c : ToolConfig}
    (h : Run machine (toolCode srv) tr c) {t : Nat} {th : ToolThread} (ht : c.threads t = some th)
    {response : CallToolResponse} (hret : th.rest = .ret response) :
    ToolReports (th.call.Sends (Found th)) (IoLog.run th.past) response := by
  have hruns : Runs (toolCode srv th.call) th.past (.ret response) := hret ▸ (Run.started h ht).runs
  apply (toolCode_ioLog srv (Found th) th.call).returns hruns
  exact assuming_after (finds_found th)

theorem side_effects_reported_broken_off : ∃ tr c, ∃ th : ToolThread,
    Run machine (toolCode wordServer) tr c ∧ c.threads 1 = some th ∧
    ToolReports (th.call.Sends (Found th)) (IoLog.run th.past)
      (.complete (toolError (.timeout 100) (some firstId) true true)) := by
  obtain ⟨threads, owner, th, h, ht, _, hret, _⟩ := broken_off_run
  exact ⟨_, _, th, h, ht, side_effects_reported wordServer h ht hret⟩

end McpSerial
