import McpSerial.Manager.Footprint
import McpSerial.Mcp.Rules

/-! Tool calls, run by any number of threads on one server. -/

namespace McpSerial
open Interaction Interaction.Discipline Utf8

abbrev ToolLabel := Label Request Response ToolCall
abbrev ToolThread := Thread Request Response ToolCall CallToolResponse
abbrev ToolConfig := Config machine ToolCall CallToolResponse

def ToolCall.sessionId : ToolCall → Option String
  | .listPorts | .open _ | .sessions => none
  | .getSession p => some p.sessionId
  | .write p _ _ => some p.sessionId
  | .read p => some p.sessionId
  | .drain p => some p.sessionId
  | .clearInput p => some p.sessionId
  | .readUntil p => some p.sessionId
  | .exec p _ _ => some p.sessionId
  | .close p => some p.sessionId

/-! ## The lifecycle -/

theorem lookup_idle (id : String) {Q : Role → CallToolResponse → Prop} :
    Lookup lifecycle .idle id (fun _ => True) Q :=
  .of_still trivial fun x => by cases x <;> rfl

theorem toolCode_orderly (srv : McpServer) : Orderly (toolCode srv) := by
  intro call
  cases call with
  | listPorts =>
    exact follows_listPorts lifecycle_plain (fun _ => Role.settled_idle) fun _ => Role.settled_idle
  | «open» p =>
    apply follows_open lifecycle_plain
    · exact fun _ args _ => concludes_openWithConsoleAndPolicy srv.toEnvironment args
    · exact fun _ => Role.settled_idle
  | sessions => exact follows_sessions lifecycle_plain fun _ => Role.settled_idle
  | getSession p =>
    exact follows_getSession (lookup_idle _) (fun _ _ => Role.settled_idle)
      fun _ => Role.settled_idle
  | write p context inputResponses =>
    apply follows_write (lookup_idle _)
    · intro _ _ _ _ _ _
      exact follows_run_bind.mpr (concludes_writeWithCancel p.sessionId _ .call)
    all_goals intros; exact Role.settled_idle
  | read p =>
    apply follows_read (lookup_idle _)
    · exact fun _ _ => concludes_readWithCancel ..
    · exact fun _ => Role.settled_idle
  | drain p => exact follows_run_bind.mpr (concludes_drain p.sessionId _ .call)
  | clearInput p => exact follows_run_bind.mpr (concludes_drain p.sessionId _ .call)
  | readUntil p =>
    apply follows_readUntil (lookup_idle _)
    · exact fun _ => concludes_readUntilWithCancel ..
    · exact fun _ => Role.settled_idle
  | exec p context inputResponses =>
    apply follows_exec (lookup_idle _)
    · intro _ _ _ _ _ _ _ _
      apply follows_sendExec (lookup_idle _)
      · exact fun _ _ => concludes_execWithOptions ..
      · exact fun _ => Role.settled_idle
    all_goals intros; exact Role.settled_idle
  | close p => exact follows_run_bind.mpr (concludes_closeWithTimeout p.sessionId _)

/-! ## Footprints -/

def ToolCall.usesPort : ToolCall → Bool
  | .open _ | .close _ => false
  | _ => true

theorem lookup_only {P : Request → Prop} {id : String} {Q : Unit → CallToolResponse → Prop}
    (hP : P (.get id)) : Lookup (only P : Discipline Request Response) () id (fun _ => True) Q :=
  .of_still hP fun _ => rfl

theorem toolCode_usesPort (srv : McpServer) {call : ToolCall} {id : String} (h : call.usesPort)
    (hid : call.sessionId = some id) {es : List Ask} {q : Handler CallToolResponse}
    (k : Runs (toolCode srv call) es q) : ∀ e ∈ es, e.req.usesPort id := by
  have hget (id : String) : Request.usesPort id (.get id) :=
    Request.usesPort_of_queries (decide_eq_true rfl)
  have hreads {α : Type} {p : Op α} (h : OnlyAsks (fun r => r.reads id) p) :
      OnlyAsks (fun r => r.usesPort id) p := h.mono fun _ => Request.usesPort_of_reads
  refine Follows.only_mem (P := fun r => r.usesPort id) (Q := fun _ _ => True) ?_ k
  cases call with
  | listPorts | «open» | sessions => cases hid
  | close => cases h
  | getSession p =>
    cases hid
    exact follows_getSession (lookup_only (hget _)) (fun _ _ => trivial) fun _ => trivial
  | write p context inputResponses =>
    cases hid
    apply follows_write (lookup_only (hget _))
    · intro _ _ _ _ _ _
      exact follows_run_bind.mpr (OnlyAsks.writeWithCancel p.sessionId _ .call)
    all_goals intros; trivial
  | read p =>
    cases hid
    apply follows_read (lookup_only (hget _))
    · exact fun _ _ => hreads (OnlyAsks.readWithCancel ..)
    · exact fun _ => trivial
  | drain p =>
    cases hid
    exact follows_run_bind.mpr (hreads (OnlyAsks.drain p.sessionId _ .call))
  | clearInput p =>
    cases hid
    exact follows_run_bind.mpr (hreads (OnlyAsks.drain p.sessionId _ .call))
  | readUntil p =>
    cases hid
    apply follows_readUntil (lookup_only (hget _))
    · exact fun _ => hreads (OnlyAsks.readUntilWithCancel ..)
    · exact fun _ => trivial
  | exec p context inputResponses =>
    cases hid
    apply follows_exec (lookup_only (hget _))
    · intro _ _ _ _ _ _ _ _
      apply follows_sendExec (lookup_only (hget _))
      · exact fun _ _ => OnlyAsks.execWithOptions ..
      · exact fun _ => trivial
    all_goals intros; trivial

def Request.unnamed : Request → Bool
  | .reserve _ | .backendOpen .. | .completeOpen .. => true
  | r => r.isQuery

theorem toolCode_unnamed (srv : McpServer) {call : ToolCall} (h : call.sessionId = none)
    {es : List Ask} {q : Handler CallToolResponse} (k : Runs (toolCode srv call) es q) :
    ∀ e ∈ es, e.req.unnamed := by
  have hplain : Plain (only fun r : Request => r.unnamed) := by
    constructor <;> intros <;> first | exact ⟨rfl, fun _ => rfl⟩ | rfl
  refine Follows.only_mem (P := fun r => r.unnamed) (Q := fun _ _ => True) ?_ k
  cases call with
  | listPorts => exact follows_listPorts hplain (fun _ => trivial) fun _ => trivial
  | sessions => exact follows_sessions hplain fun _ => trivial
  | «open» p =>
    refine follows_open hplain (fun _ args _ => ?_) fun _ => trivial
    unfold openWithConsoleAndPolicy
    split
    · refine ⟨rfl, fun reserved => ?_⟩
      cases reserved with
      | error e => trivial
      | ok id =>
        refine ⟨rfl, fun result => ⟨rfl, fun completed => ?_⟩⟩
        cases completed <;> trivial
    · trivial
  | _ => cases h

/-! ## A guarded session opened by the first call -/

def findWord (word : List Char) : (text : List Char) → Option (Match text)
  | [] => if word = [] then some ⟨[], [], [], rfl⟩ else none
  | c :: text =>
    if h : word.isPrefixOf (c :: text) then
      some ⟨[], word, (c :: text).drop word.length,
        List.prefix_iff_eq_append.mp (List.isPrefixOf_iff_prefix.mp h)⟩
    else (findWord word text).map fun m => ⟨c :: m.before, m.hit, m.after, congrArg (c :: ·) m.cut⟩

def wordRegex : RegexCrate where
  build pattern :=
    if pattern.toList.all Char.isAlphanum then .ok ⟨findWord pattern.toList⟩
    else .error "not supported"

/-- `serde_json` on the object of an `ElicitResult`. -/
def decodeElicitResult (v : Value) : Option ElicitResult :=
  match v.get "action" with
  | some (.string "accept") => some ⟨.accept, v.get "content"⟩
  | some (.string "decline") => some ⟨.decline, v.get "content"⟩
  | some (.string "cancel") => some ⟨.cancel, v.get "content"⟩
  | _ => none

def wordServer : McpServer :=
  { toEnvironment := defaultEnv
    toRegexCrate := wordRegex
    profiles := []
    hash := fun bytes => bytes.foldl (fun h b => h * 31 + b.toUInt64) 7
    elicitResult := decodeElicitResult
    escapes := fun _ => false }

def guardedParams : OpenParams :=
  { port := some "/dev/ttyUSB0"
    device := none
    baud := none
    timeoutMs := none
    writePolicy := some .confirm
    denyPatterns := some ["reboot"]
    lineEnding := some .lf }

def guardedArgs : SessionArgs :=
  { portPath := "/dev/ttyUSB0"
    baud := defaultBaud
    defaultTimeoutMs := McpSerial.defaultTimeoutMs
    writePolicy := .confirm
    consoleSettings := { lineEnding := .lf }
    commandPolicy := { deny := [⟨"deny.caller.0", ⟨findWord "reboot".toList⟩⟩] } }

def guardedSession : Session :=
  (Session.opening firstId guardedArgs).transitionToReady (0 : Nat)

def guardedTrace : List ToolLabel :=
  [.start 0 (.open guardedParams), .act 0 ⟨.reserve guardedArgs, .ok firstId⟩,
    .act 0 ⟨.backendOpen "/dev/ttyUSB0" defaultBaud, .ok (0 : Nat)⟩,
    .act 0 ⟨.completeOpen firstId (.ok (0 : Nat)), .ok firstId⟩]

theorem guarded_run : ∃ threads,
    Run machine (toolCode wordServer) guardedTrace
      ⟨⟨AList.singleton firstId guardedSession, fun _ => none, (1 : Nat)⟩, threads⟩ ∧
    ∀ t, t ≠ 0 → threads t = none := by
  have h₀ : Run machine (toolCode wordServer) [] _ := .refl
  have h₁ := h₀.start 0 (.open guardedParams) rfl
  have h₂ := h₁.act 0 (r := .reserve guardedArgs) (.ok firstId) rfl
    ⟨[.ok (Vector.replicate 16 0)], _, rfl, rfl⟩
  have h₃ := h₂.act 0 (r := .backendOpen "/dev/ttyUSB0" defaultBaud) (.ok (0 : Nat)) rfl
    ⟨rfl, rfl⟩
  have h₄ := h₃.act 0 (r := .completeOpen firstId (.ok (0 : Nat))) (.ok firstId) rfl ⟨rfl, rfl⟩
  refine ⟨_, h₄, fun t ht => ?_⟩
  simp [Config.put, Function.update_of_ne ht, initial]

/-! ## A `close` of it -/

def closedTrace : List ToolLabel :=
  guardedTrace ++ [.start 1 (.close ⟨firstId⟩)] ++
    [⟨.beginClose firstId, .ok (some (0 : Nat))⟩, ⟨.timeLeft, true⟩,
      ⟨.lock (0 : Nat) .never, .ready ()⟩, ⟨.unlock (0 : Nat), ()⟩,
      ⟨.finishClose firstId, true⟩].map (Label.act 1)

theorem closed_run : ∃ threads owner th,
    Run machine (toolCode wordServer) closedTrace ⟨⟨∅, owner, (1 : Nat)⟩, threads⟩ ∧
    threads 1 = some th ∧ th.call = .close ⟨firstId⟩ ∧ th.rest = .ret (.complete (.close true)) ∧
    ∀ t, 1 < t → threads t = none := by
  obtain ⟨threads, h₀, hfree⟩ := guarded_run
  have h₁ := h₀.start 1 (.close ⟨firstId⟩) (hfree 1 (by decide))
  have h₂ := h₁.act 1 (r := .beginClose firstId) (.ok (some (0 : Nat))) rfl ⟨rfl, rfl⟩
  have h₃ := h₂.act 1 (r := .timeLeft) true rfl rfl
  have h₄ := h₃.act 1 (r := .lock (0 : Nat) .never) (.ready ()) rfl ⟨rfl, rfl⟩
  have h₅ := h₄.act 1 (r := .unlock (0 : Nat)) () rfl rfl
  have h₆ := h₅.act 1 (r := .finishClose firstId) true rfl ⟨rfl, rfl⟩
  refine ⟨_, _, _, h₆, rfl, rfl, rfl, fun t ht => ?_⟩
  have hone : t ≠ 1 := Nat.ne_of_gt ht
  simp only [Config.put, Function.update_of_ne hone]
  exact hfree t (by omega)

/-! ## An `exec` on it that breaks off -/

def plainContext : RequestContext := { protocolVersion := none, elicitation := none }

def execParams (command : String) : ExecParams :=
  { sessionId := firstId
    command
    expect := "ok"
    lineEnding := none
    echoMode := none
    semanticPrompt := none
    confirm := some true
    clearBeforeWrite := none
    normalizeOutput := none
    timeoutMs := some 100 }

def brokenOffTrace : List ToolLabel :=
  guardedTrace ++ [.start 1 (.exec (execParams "re") plainContext none)] ++
    [⟨.get firstId, some guardedSession⟩, ⟨.get firstId, some guardedSession⟩,
      ⟨.get firstId, some guardedSession⟩, ⟨.get firstId, some guardedSession⟩,
      ⟨.isCancelled .call, false⟩, ⟨.timeLeft, true⟩, ⟨.lock (0 : Nat) .call, .ready ()⟩,
      ⟨.get firstId, some guardedSession⟩, ⟨.isCancelled .call, false⟩, ⟨.timeLeft, true⟩,
      ⟨.cancelPicked .call, false⟩,
      ⟨.write (0 : Nat) [114, 101, 10] .call, .ready (.ok ⟨2, by decide⟩)⟩,
      ⟨.write (0 : Nat) [10] .call, .elapsed⟩, ⟨.unlock (0 : Nat), ()⟩].map (Label.act 1)

theorem broken_off_run : ∃ threads owner th,
    Run machine (toolCode wordServer) brokenOffTrace
      ⟨⟨AList.singleton firstId guardedSession, owner, (1 : Nat)⟩, threads⟩ ∧
    threads 1 = some th ∧ th.call = .exec (execParams "re") plainContext none ∧
    th.rest = .ret (.complete (toolError (.timeout 100) (some firstId) true true)) ∧
    owner (0 : Nat) = none ∧ ∀ t, 1 < t → threads t = none := by
  obtain ⟨threads, h₀, hfree⟩ := guarded_run
  have h₁ := h₀.start 1 (.exec (execParams "re") plainContext none) (hfree 1 (by decide))
  have h₂ := h₁.act 1 (r := .get firstId) (some guardedSession) rfl ⟨rfl, rfl⟩
  have h₃ := h₂.act 1 (r := .get firstId) (some guardedSession) rfl ⟨rfl, rfl⟩
  have h₄ := h₃.act 1 (r := .get firstId) (some guardedSession) rfl ⟨rfl, rfl⟩
  have h₅ := h₄.act 1 (r := .get firstId) (some guardedSession) rfl ⟨rfl, rfl⟩
  have h₆ := h₅.act 1 (r := .isCancelled .call) false rfl ⟨nofun, rfl⟩
  have h₇ := h₆.act 1 (r := .timeLeft) true rfl rfl
  have h₈ := h₇.act 1 (r := .lock (0 : Nat) .call) (.ready ()) rfl ⟨rfl, rfl⟩
  have h₉ := h₈.act 1 (r := .get firstId) (some guardedSession) rfl ⟨rfl, rfl⟩
  have h₁₀ := h₉.act 1 (r := .isCancelled .call) false rfl ⟨nofun, rfl⟩
  have h₁₁ := h₁₀.act 1 (r := .timeLeft) true rfl rfl
  have h₁₂ := h₁₁.act 1 (r := .cancelPicked .call) false rfl ⟨nofun, rfl⟩
  have h₁₃ := h₁₂.act 1 (r := .write (0 : Nat) [114, 101, 10] .call) (.ready (.ok ⟨2, by decide⟩))
    rfl ⟨trivial, rfl⟩
  have h₁₄ := h₁₃.act 1 (r := .write (0 : Nat) [10] .call) .elapsed rfl ⟨trivial, rfl⟩
  have h₁₅ := h₁₄.act 1 (r := .unlock (0 : Nat)) () rfl rfl
  refine ⟨_, _, _, h₁₅, rfl, rfl, rfl, rfl, fun t ht => ?_⟩
  have hone : t ≠ 1 := Nat.ne_of_gt ht
  simp only [Config.put, Function.update_of_ne hone]
  exact hfree t (by omega)

end McpSerial
