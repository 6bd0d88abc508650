import McpSerial.Manager.Rules
import McpSerial.Mcp.Handlers

/-! What the handlers do between a lookup and the operation they guard, as rules for any
discipline. A premise about a session names what the gate has found out about it. -/

namespace McpSerial
open Interaction Interaction.Discipline Utf8

/-- A lookup of `id` leaves the state alone and comes back as `A` says, or nothing is asked
of the rest of the call. -/
structure Lookup (D : Discipline Request Response) (s : D.State) (id : String)
    (A : Option Session → Prop) (Q : D.State → CallToolResponse → Prop) : Prop where
  admits : D.admits s (.get id)
  answer : ∀ x, (D.advance s (.get id) x = s ∧ A x) ∨
    ∀ p, D.Follows (D.advance s (.get id) x) p Q

variable {D : Discipline Request Response} {s : D.State} {id : String}
  {A : Option Session → Prop} {Q : D.State → CallToolResponse → Prop}

theorem Lookup.of_still (admits : D.admits s (.get id))
    (still : ∀ x, D.advance s (.get id) x = s) : Lookup D s id (fun _ => True) Q where
  admits := admits
  answer x := .inl ⟨still x, trivial⟩

theorem Lookup.ask (h : Lookup D s id A Q) {next : Option Session → Handler CallToolResponse}
    (found : ∀ y, A (some y) → D.Follows s (next (some y)) Q)
    (absent : A none → D.Follows s (next none) Q) : D.Follows s (.ask (.get id) next) Q := by
  refine ⟨h.admits, fun x => ?_⟩
  rcases h.answer x with ⟨hstill, hA⟩ | hfree
  · rw [hstill]
    cases x with
    | none => exact absent hA
    | some y => exact found y hA
  · exact hfree _

def Finds (sid : Option String) (A : Option Session → Prop) : (r : Request) → Response r → Prop
  | .get id, x => sid = some id → A x
  | _, _ => True

theorem lookup_assuming {Q : D.State → CallToolResponse → Prop} (admits : D.admits s (.get id))
    (still : ∀ x, D.advance s (.get id) x = s) :
    Lookup (D.assuming (Finds (some id) A)) (some s) id A (assumed Q) where
  admits := by
    rintro _ ⟨⟩
    exact admits
  answer x := by
    by_cases hx : A x
    · have hfinds : Finds (some id) A (.get id) x := fun _ => hx
      rw [assuming_advance_of hfinds, still]
      exact .inl ⟨rfl, hx⟩
    · have hfails : ¬Finds (some id) A (.get id) x := fun h => hx (h rfl)
      rw [assuming_advance_not hfails]
      exact .inr fun _ => follows_assuming_none

theorem follows_consoleSettings (h : Lookup D s id A Q)
    {k : Except SerialError ConsoleSettings → Handler CallToolResponse}
    (found : ∀ y, A (some y) → D.Follows s (k (.ok y.consoleSettings)) Q)
    (absent : A none → D.Follows s (k (.error (.sessionNotFound id))) Q) :
    D.Follows s ((consoleSettings id).run >>= k) Q :=
  h.ask found absent

theorem follows_operationTimeoutMs (h : Lookup D s id A Q) {requested : Option Nat}
    {k : Except SerialError Nat → Handler CallToolResponse}
    (known : ∀ timeoutMs, D.Follows s (k (.ok timeoutMs)) Q)
    (absent : A none → D.Follows s (k (.error (.sessionNotFound id))) Q) :
    D.Follows s ((McpServer.operationTimeoutMs id requested).run >>= k) Q := by
  cases requested with
  | some timeoutMs => exact known _
  | none => exact h.ask (fun y _ => known _) absent

/-! ## The gates -/

theorem follows_gateRawWritePolicy (h : Lookup D s id A Q)
    {k : Option CallToolResult → Handler CallToolResponse}
    (unguarded : ∀ y, A (some y) → y.commandPolicy.isEmpty → D.Follows s (k none) Q)
    (guarded : ∀ y, A (some y) → y.commandPolicy.isEmpty = false →
      D.Follows s (k (some (refused (.rawWriteForbidden id) (some id)))) Q)
    (absent : A none → D.Follows s (k (some (refused (.sessionNotFound id) (some id)))) Q) :
    D.Follows s (McpServer.gateRawWritePolicy id >>= k) Q := by
  refine h.ask (fun y hy => ?_) absent
  show D.Follows s ((if y.commandPolicy.isEmpty then return none
    else return some (refused (.rawWriteForbidden id) (some id)) : Handler _) >>= k) Q
  cases hempty : y.commandPolicy.isEmpty with
  | true => exact unguarded y hy hempty
  | false => exact guarded y hy hempty

theorem follows_gateCommandPolicy (h : Lookup D s id A Q) {command : List Char}
    {ending : LineEnding} {requested : Option LineEnding}
    {k : Option CallToolResult → Handler CallToolResponse}
    (accepted : ∀ y, A (some y) → y.commandPolicy.check command ending requested = none →
      D.Follows s (k none) Q)
    (blocked : ∀ y rule, A (some y) → y.commandPolicy.check command ending requested = some rule →
      D.Follows s (k (some (refused (.commandBlocked rule) (some id)))) Q)
    (absent : A none → D.Follows s (k (some (refused (.sessionNotFound id) (some id)))) Q) :
    D.Follows s (McpServer.gateCommandPolicy id command ending requested >>= k) Q := by
  refine h.ask (fun y hy => ?_) absent
  show D.Follows s (k ((y.commandPolicy.check command ending requested).map
    fun rule => refused (.commandBlocked rule) (some id))) Q
  cases hcheck : y.commandPolicy.check command ending requested with
  | none => exact accepted y hy hcheck
  | some rule => exact blocked y rule hy hcheck

/-- When the write policy lets a call through. -/
inductive Confirmed (srv : McpServer) (id : String) (confirmed : Bool) (context : RequestContext)
    (inputResponses : Option InputResponses) (tool : String) (payload : List UInt8) :
    WritePolicy → Prop where
  | allowed : Confirmed srv id confirmed context inputResponses tool payload .allow
  | answered {answer : Value} (elicits : clientCanElicit context)
      (given : inputResponses.bind (·.lookup (confirmationKey srv id tool payload)) = some answer)
      (accepts : confirmationAnswer srv answer = .ok ()) :
      Confirmed srv id confirmed context inputResponses tool payload .confirm
  | flagged (elicits : clientCanElicit context = false) (flag : confirmed = true) :
      Confirmed srv id confirmed context inputResponses tool payload .confirm

inductive Declined (srv : McpServer) (id : String) (confirmed : Bool) (context : RequestContext)
    (inputResponses : Option InputResponses) (tool : String) (payload : List UInt8) :
    WritePolicy → SerialError → Prop where
  | denied :
      Declined srv id confirmed context inputResponses tool payload .deny (.writeForbidden id)
  | answered {answer : Value} {action : String} (elicits : clientCanElicit context)
      (given : inputResponses.bind (·.lookup (confirmationKey srv id tool payload)) = some answer)
      (rejects : confirmationAnswer srv answer = .error action) :
      Declined srv id confirmed context inputResponses tool payload .confirm
        (.confirmationDeclined id action)
  | unflagged (elicits : clientCanElicit context = false) (flag : confirmed = false) :
      Declined srv id confirmed context inputResponses tool payload .confirm
        (.confirmationRequired id)

theorem follows_gateWrite (h : Lookup D s id A Q) {srv : McpServer} {confirmed : Bool}
    {context : RequestContext} {inputResponses : Option InputResponses} {tool : String}
    {payload : List UInt8} {k : WriteGate → Handler CallToolResponse}
    (proceed : ∀ y, A (some y) →
      Confirmed srv id confirmed context inputResponses tool payload y.writePolicy →
      D.Follows s (k .proceed) Q)
    (elicit : ∀ y z, A (some y) → A (some z) → y.writePolicy = .confirm → clientCanElicit context →
      inputResponses.bind (·.lookup (confirmationKey srv id tool payload)) = none →
      D.Follows s (k (.elicit (confirmationRequest srv (snapshot z) tool payload
        (confirmationKey srv id tool payload)))) Q)
    (declined : ∀ y err, A (some y) →
      Declined srv id confirmed context inputResponses tool payload y.writePolicy err →
      D.Follows s (k (.refused err id)) Q)
    (absent : A none → D.Follows s (k (.refused (.sessionNotFound id) id)) Q) :
    D.Follows s (srv.gateWrite id confirmed context inputResponses tool payload >>= k) Q := by
  refine h.ask (fun y hy => ?_) absent
  show D.Follows s
    (srv.gateByPolicy id confirmed context inputResponses tool payload y.writePolicy >>= k) Q
  have hproceed := proceed y hy
  have hdeclined := fun err => declined y err hy
  have helicit := fun z => elicit y z hy
  cases hpolicy : y.writePolicy with
  | allow =>
    rw [hpolicy] at hproceed
    exact hproceed .allowed
  | deny =>
    rw [hpolicy] at hdeclined
    exact hdeclined _ .denied
  | confirm =>
    rw [hpolicy] at hproceed hdeclined
    unfold McpServer.gateByPolicy
    by_cases hcan : clientCanElicit context = true
    · rw [if_pos hcan]
      dsimp only
      cases hanswer : inputResponses.bind (·.lookup (confirmationKey srv id tool payload)) with
      | none =>
        -- the request to the client shows the session as it is by now
        exact h.ask (fun z hz => helicit z hz hpolicy hcan hanswer) absent
      | some answer =>
        dsimp only
        cases hresult : confirmationAnswer srv answer with
        | ok _ => exact hproceed (.answered hcan hanswer hresult)
        | error action => exact hdeclined _ (.answered hcan hanswer hresult)
    · have hcan' : clientCanElicit context = false := eq_false_of_ne_true hcan
      rw [if_neg hcan]
      cases hflag : confirmed with
      | true => exact hproceed (.flagged hcan' hflag)
      | false => exact hdeclined _ (.unflagged hcan' hflag)

/-! ## The handlers that write -/

structure WriteParams.Passes (p : WriteParams) (y : Session) : Prop where
  fits : (asBytes p.data).length ≤ maxWriteChunk
  unguarded : y.commandPolicy.isEmpty = true

theorem follows_write {srv : McpServer} {p : WriteParams} {context : RequestContext}
    {inputResponses : Option InputResponses} (h : Lookup D s p.sessionId A Q)
    (send : ∀ y z, A (some y) → A (some z) → p.Passes y →
      Confirmed srv p.sessionId (p.confirm.getD false) context inputResponses "serial.write"
        (asBytes p.data) z.writePolicy → D.Follows s (McpServer.sendWrite p) Q)
    (elicit : ∀ y z, A (some y) → A (some z) → y.writePolicy = .confirm → clientCanElicit context →
      inputResponses.bind
        (·.lookup (confirmationKey srv p.sessionId "serial.write" (asBytes p.data))) = none →
      Q s (.inputRequired (confirmationRequest srv (snapshot z) "serial.write" (asBytes p.data)
        (confirmationKey srv p.sessionId "serial.write" (asBytes p.data)))))
    (declined : ∀ y err, A (some y) →
      Declined srv p.sessionId (p.confirm.getD false) context inputResponses "serial.write"
        (asBytes p.data) y.writePolicy err → Q s (.complete (refused err (some p.sessionId))))
    (invalid : ∀ reason, maxWriteChunk < (asBytes p.data).length →
      Q s (.complete (refused (.invalidParam "data" reason) (some p.sessionId))))
    (guarded : ∀ y, A (some y) → y.commandPolicy.isEmpty = false →
      Q s (.complete (refused (.rawWriteForbidden p.sessionId) (some p.sessionId))))
    (absent : A none →
      Q s (.complete (refused (.sessionNotFound p.sessionId) (some p.sessionId)))) :
    D.Follows s (srv.write p context inputResponses) Q := by
  unfold McpServer.write
  split
  next hlong => exact invalid _ hlong
  next hfits =>
    apply follows_gateRawWritePolicy h
    · intro y hy hempty
      apply follows_gateWrite h
      · exact fun z hz hconfirmed => send y z hy hz ⟨Nat.le_of_not_lt hfits, hempty⟩ hconfirmed
      · exact fun y z hy hz hpolicy hcan hnone => elicit y z hy hz hpolicy hcan hnone
      · exact fun z err hz hdeclined => declined z err hz hdeclined
      · exact absent
    · exact fun y hy hguarded => guarded y hy hguarded
    · exact absent

/-- What the checks of `serial.exec` before the write gate have found out: `y` gave the
console settings and `z` the command policy. -/
structure ExecParams.Passes (p : ExecParams) (srv : McpServer) (y z : Session) : Prop where
  arguments : srv.execArgumentError p = none
  accepted : z.commandPolicy.check p.command.toList y.consoleSettings.lineEnding p.lineEnding = none
  plan : McpServer.execPlanError (McpServer.execPlan p y.consoleSettings) = none

def ExecParams.transmitted (p : ExecParams) (y : Session) : List UInt8 :=
  (McpServer.execPlan p y.consoleSettings).transmitted

theorem ExecParams.Passes.fits {p : ExecParams} {srv : McpServer} {y z : Session}
    (h : p.Passes srv y z) : (p.transmitted y).length ≤ maxWriteChunk := by
  have hplan := h.plan
  unfold McpServer.execPlanError at hplan
  split_ifs at hplan with _ hlong
  exact Nat.le_of_not_lt hlong

theorem ExecParams.Passes.matcher {p : ExecParams} {srv : McpServer} {y z : Session}
    (h : p.Passes srv y z) : ∃ m, PatternMatcher.new srv.toRegexCrate p.expect = .ok m := by
  have harguments := h.arguments
  unfold McpServer.execArgumentError at harguments
  split_ifs at harguments with _ hempty
  unfold PatternMatcher.new PatternMatcher.withCapacity
  rw [if_neg hempty]
  cases hregex : boundedRegex srv.toRegexCrate p.expect with
  | ok regex => exact ⟨_, rfl⟩
  | error reason =>
    rw [hregex] at harguments
    cases harguments

theorem follows_exec {srv : McpServer} {p : ExecParams} {context : RequestContext}
    {inputResponses : Option InputResponses} (h : Lookup D s p.sessionId A Q)
    (send : ∀ y z w, A (some y) → A (some z) → A (some w) → p.Passes srv y z →
      Confirmed srv p.sessionId (p.confirm.getD false) context inputResponses "serial.exec"
        (p.transmitted y) w.writePolicy →
      D.Follows s (srv.sendExec p (McpServer.execPlan p y.consoleSettings)) Q)
    (elicit : ∀ x y z, A (some x) → A (some y) → A (some z) → y.writePolicy = .confirm →
      clientCanElicit context →
      inputResponses.bind
        (·.lookup (confirmationKey srv p.sessionId "serial.exec" (p.transmitted x))) = none →
      Q s (.inputRequired (confirmationRequest srv (snapshot z) "serial.exec" (p.transmitted x)
        (confirmationKey srv p.sessionId "serial.exec" (p.transmitted x)))))
    (declined : ∀ x y err, A (some x) → A (some y) →
      Declined srv p.sessionId (p.confirm.getD false) context inputResponses "serial.exec"
        (p.transmitted x) y.writePolicy err → Q s (.complete (refused err (some p.sessionId))))
    (invalid : ∀ err, srv.execArgumentError p = some err →
      Q s (.complete (refused err (some p.sessionId))))
    (blocked : ∀ y z rule, A (some y) → A (some z) →
      z.commandPolicy.check p.command.toList y.consoleSettings.lineEnding p.lineEnding = some rule →
      Q s (.complete (refused (.commandBlocked rule) (some p.sessionId))))
    (unfit : ∀ y err, A (some y) →
      McpServer.execPlanError (McpServer.execPlan p y.consoleSettings) = some err →
      Q s (.complete (refused err (some p.sessionId))))
    (absent : A none →
      Q s (.complete (refused (.sessionNotFound p.sessionId) (some p.sessionId)))) :
    D.Follows s (srv.exec p context inputResponses) Q := by
  unfold McpServer.exec
  cases hargs : srv.execArgumentError p with
  | some err => exact invalid err hargs
  | none =>
    apply follows_consoleSettings h
    · intro y hy
      apply follows_gateCommandPolicy h
      · intro z hz haccepted
        dsimp only
        cases hplan : McpServer.execPlanError (McpServer.execPlan p y.consoleSettings) with
        | some err => exact unfit y err hy hplan
        | none =>
          apply follows_gateWrite h
          · -- `y`, `z` and `w` are the answers to three lookups and may differ
            intro w hw hconfirmed
            exact send y z w hy hz hw ⟨hargs, haccepted, hplan⟩ hconfirmed
          · intro w v hw hv hpolicy hcan hnone
            exact elicit y w v hy hw hv hpolicy hcan hnone
          · exact fun w err hw hdeclined => declined y w err hy hw hdeclined
          · exact absent
      · exact fun z rule hz hrule => blocked y z rule hy hz hrule
      · exact absent
    · exact absent

theorem follows_sendExec {srv : McpServer} {p : ExecParams} {plan : McpServer.ExecPlan}
    (h : Lookup D s p.sessionId A Q)
    (run : ∀ timeoutMs clearBeforeWrite, D.Meets s
      (execWithOptions srv.toRegexCrate p.sessionId plan.transmitted p.expect timeoutMs
        { clearBeforeWrite, echoMode := plan.echoMode, lineEnding := plan.lineEnding } .call)
      (fun s' o => Q s' (.complete (.exec (execResult o plan.lineEnding plan.echoMode
        plan.semanticPrompt (p.normalizeOutput.getD false)))))
      (fun s' e => Q s' (.complete (toolError e (some p.sessionId) e.possibleSerialSideEffect
        e.possibleSerialSideEffect))))
    (absent : A none →
      Q s (.complete (refused (.sessionNotFound p.sessionId) (some p.sessionId)))) :
    D.Follows s (srv.sendExec p plan) Q := by
  apply follows_operationTimeoutMs h
  · intro timeoutMs
    exact follows_run_bind.mpr (run timeoutMs _)
  · exact absent

/-! ## The handlers that open, list and read -/

def Rests {α : Type} (D : Discipline Request Response) (s : D.State) (p : Op α) : Prop :=
  D.Meets s p (fun s' _ => s' = s) (fun s' _ => s' = s)

theorem Rests.bind {α β : Type} {p : Op α} {next : α → Op β} (h : Rests D s p)
    (k : ∀ a, Rests D s (next a)) : Rests D s (p >>= next) := by
  apply Meets.bind h
  rintro _ a rfl
  exact k a

theorem Rests.pure {α : Type} (a : α) : Rests D s (pure a : Op α) := rfl

theorem Rests.throw {α : Type} (e : SerialError) : Rests D s (throw e : Op α) := rfl

theorem rests_availablePorts (hD : Plain D) : Rests D s availablePorts := by
  apply meets_query (hD.availablePorts s)
  intro found
  cases found with
  | ok raw => exact Rests.pure raw
  | error e => exact Rests.throw _

theorem rests_canonical (hD : Plain D) (path : String) : Rests D s (canonical path) := by
  apply meets_query (hD.canonicalize s path)
  exact fun found => Rests.pure (found.getD path)

theorem rests_canonicalPorts (hD : Plain D) (raw : List SerialPortInfo) :
    Rests D s (canonicalPorts raw) := by
  induction raw with
  | nil => exact .pure []
  | cons info raw ih =>
    apply (rests_canonical hD _).bind
    intro path
    exact ih.bind fun ports => .pure _

theorem rests_resolveDevice (hD : Plain D) (env : Environment) (deviceName : String)
    (profiles : List DeviceProfile) : Rests D s (resolveDevice env deviceName profiles) := by
  unfold resolveDevice
  cases profiles.find? fun p => p.name == deviceName with
  | none => exact .throw _
  | some profile =>
    apply (rests_availablePorts hD).bind
    intro raw
    dsimp only
    cases (filterAllowlisted env raw).find? fun port => profileMatchesPort profile port with
    | none => exact .throw _
    | some port => exact .pure _

theorem rests_resolvePortProfile (hD : Plain D) (portPath : String)
    (profiles : List DeviceProfile) : Rests D s (resolvePortProfile portPath profiles) := by
  unfold resolvePortProfile
  split
  · exact .pure none
  · apply (rests_availablePorts hD).bind
    intro raw
    apply (rests_canonicalPorts hD raw).bind
    intro ports
    exact (rests_canonical hD portPath).bind fun path => .pure _

theorem rests_openTarget (hD : Plain D) (srv : McpServer) (p : OpenParams) :
    Rests D s (srv.openTarget p) := by
  unfold McpServer.openTarget
  split
  · exact .throw _
  · exact .throw _
  · apply (rests_resolvePortProfile hD _ _).bind
    intro resolved
    cases resolved <;> exact .pure _
  · exact (rests_resolveDevice hD _ _ _).bind fun resolved => .pure _

theorem follows_open (hD : Plain D) {srv : McpServer} {p : OpenParams}
    (run : ∀ target args, srv.openArgs p target = .ok args →
      D.Meets s (openWithConsoleAndPolicy srv.toEnvironment args)
        (fun s' id => Q s' (.complete (.open ⟨id⟩)))
        (fun s' e => Q s' (.complete (refused e none))))
    (refuse : ∀ e, Q s (.complete (refused e none))) :
    D.Follows s (srv.open p) Q := by
  apply follows_run_bind.mpr
  unfold McpServer.openSession
  refine meets_bind.mpr (Meets.mono (rests_openTarget hD srv p) ?_ ?_)
  · rintro _ target rfl
    refine meets_bind.mpr (meets_ofResult.mpr ?_)
    cases hargs : srv.openArgs p target with
    | error e => exact refuse e
    | ok args => exact run target args hargs
  · rintro _ e rfl
    exact refuse e

theorem follows_listPorts (hD : Plain D) {srv : McpServer}
    (found : ∀ ports, Q s (.complete (.listPorts ports)))
    (refuse : ∀ e, Q s (.complete (refused e none))) : D.Follows s srv.listPorts Q := by
  apply follows_run_bind.mpr
  apply Meets.mono ((rests_availablePorts hD).bind fun raw => .pure _)
  · rintro _ ports rfl
    exact found ports
  · rintro _ e rfl
    exact refuse e

theorem follows_sessions (hD : Plain D) (found : ∀ all, Q s (.complete (.sessions all))) :
    D.Follows s McpServer.sessions Q := by
  refine ⟨(hD.values s).1, fun x => ?_⟩
  rw [(hD.values s).2]
  exact found _

theorem follows_getSession {p : GetSessionParams} (h : Lookup D s p.sessionId A Q)
    (found : ∀ y, A (some y) → Q s (.complete (.getSession (snapshot y))))
    (absent : A none →
      Q s (.complete (refused (.sessionNotFound p.sessionId) (some p.sessionId)))) :
    D.Follows s (McpServer.getSession p) Q :=
  h.ask found absent

theorem follows_read {p : ReadParams} (h : Lookup D s p.sessionId A Q)
    (run : ∀ maxBytes timeoutMs, D.Meets s (readWithCancel p.sessionId maxBytes timeoutMs .call)
      (fun s' o => Q s' (.complete (.read (readResult o))))
      (fun s' e => Q s' (.complete (toolError e (some p.sessionId) false
        e.possibleSerialSideEffect))))
    (absent : A none →
      Q s (.complete (refused (.sessionNotFound p.sessionId) (some p.sessionId)))) :
    D.Follows s (McpServer.read p) Q := by
  apply follows_operationTimeoutMs h
  · intro timeoutMs
    exact follows_run_bind.mpr (run _ timeoutMs)
  · exact absent

theorem follows_readUntil {srv : McpServer} {p : ReadUntilParams} (h : Lookup D s p.sessionId A Q)
    (run : ∀ timeoutMs, D.Meets s
      (readUntilWithCancel srv.toRegexCrate p.sessionId p.pattern timeoutMs .call)
      (fun s' o => Q s' (.complete (.readUntil (readUntilResult o))))
      (fun s' e => Q s' (.complete (toolError e (some p.sessionId) false
        e.possibleSerialSideEffect))))
    (absent : A none →
      Q s (.complete (refused (.sessionNotFound p.sessionId) (some p.sessionId)))) :
    D.Follows s (srv.readUntil p) Q := by
  apply follows_operationTimeoutMs h
  · intro timeoutMs
    exact follows_run_bind.mpr (run timeoutMs)
  · exact absent

end McpSerial
