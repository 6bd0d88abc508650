import McpSerial.Mcp.WriteGate

/-! The two rounds of a confirmed write: the question, the answer to it, and the same
answer on another request. -/

namespace McpSerial
open Interaction Interaction.Discipline Utf8

/-! ## Requests -/

inductive Transmits (y : Session) : ToolCall → String → List UInt8 → Prop where
  | write {p : WriteParams} {context : RequestContext} {inputResponses : Option InputResponses}
      (names : p.sessionId = y.id) :
      Transmits y (.write p context inputResponses) "serial.write" (asBytes p.data)
  | exec {p : ExecParams} {context : RequestContext} {inputResponses : Option InputResponses}
      (names : p.sessionId = y.id) :
      Transmits y (.exec p context inputResponses) "serial.exec" (p.transmitted y)

namespace ToolCall

def canElicit : ToolCall → Bool
  | .write _ context _ | .exec _ context _ => clientCanElicit context
  | _ => false

def answer (key : String) : ToolCall → Option Value
  | .write _ _ inputResponses | .exec _ _ inputResponses => inputResponses.bind (·.lookup key)
  | _ => none

def answering (inputResponses : InputResponses) : ToolCall → ToolCall
  | .write p context _ => .write p context (some inputResponses)
  | .exec p context _ => .exec p context (some inputResponses)
  | call => call

def operation (srv : McpServer) (y : Session) : ToolCall → Handler CallToolResponse
  | .write p _ _ => McpServer.sendWrite p
  | .exec p _ _ => srv.sendExec p (McpServer.execPlan p y.consoleSettings)
  | call => toolCode srv call

/-- No check before the write gate turns the request on `y` down. -/
def ReachesGate (srv : McpServer) (y : Session) : ToolCall → Prop
  | .write p _ _ => p.Passes y
  | .exec p _ _ => p.Passes srv y y
  | _ => False

end ToolCall

/-- Every lookup of `y` has found it as it is. -/
def Sees (y : Session) (es : List Ask) : Prop := ∀ x, ⟨.get y.id, x⟩ ∈ es → x = some y

def SeesLike (y : Session) (es : List Ask) : Prop :=
  ∀ z, ⟨.get y.id, some z⟩ ∈ es → z.toSessionArgs = y.toSessionArgs

theorem Sees.finds {y : Session} {es : List Ask} (h : Sees y es) :
    ∀ e ∈ es, Finds (some y.id) (· = some y) e.req e.resp := by
  rintro ⟨r, x⟩ he
  cases r with
  | get id =>
    intro hid
    cases hid
    exact h x he
  | _ => trivial

theorem SeesLike.finds {y : Session} {es : List Ask} (h : SeesLike y es) :
    ∀ e ∈ es, Finds (some y.id) (fun x => ∀ z, x = some z → z.toSessionArgs = y.toSessionArgs)
      e.req e.resp := by
  rintro ⟨r, x⟩ he
  cases r with
  | get id =>
    rintro hid z rfl
    cases hid
    exact h z he
  | _ => trivial

/-! ## The gate of a confirmed session -/

section Gate

variable {D : Discipline Request Response} {s : D.State} {A : Option Session → Prop}
  {Q : D.State → CallToolResponse → Prop} {srv : McpServer} {y : Session} {call : ToolCall}
  {tool : String} {payload : List UInt8} {confirmed : Bool} {context : RequestContext}
  {inputResponses : Option InputResponses} {err : SerialError}

theorem Confirmed.answer (h : Confirmed srv y.id confirmed context inputResponses tool payload
      .confirm) (hcan : clientCanElicit context) :
    ∃ answer, inputResponses.bind (·.lookup (confirmationKey srv y.id tool payload)) = some answer ∧
      confirmationAnswer srv answer = .ok () := by
  cases h with
  | answered _ given accepts => exact ⟨_, given, accepts⟩
  | flagged elicits _ =>
    rw [elicits] at hcan
    cases hcan

theorem Declined.answer (h : Declined srv y.id confirmed context inputResponses tool payload
      .confirm err) (hcan : clientCanElicit context) :
    ∃ answer action,
      inputResponses.bind (·.lookup (confirmationKey srv y.id tool payload)) = some answer ∧
      confirmationAnswer srv answer = .error action := by
  cases h with
  | answered _ given rejects => exact ⟨_, _, given, rejects⟩
  | unflagged elicits _ =>
    rw [elicits] at hcan
    cases hcan

/-- What a client that can be elicited gets from a request on the confirmed session `y`. -/
theorem follows_request (h : Lookup D s y.id A Q)
    (hA : ∀ z, A (some z) → z.toSessionArgs = y.toSessionArgs) (hpolicy : y.writePolicy = .confirm)
    (hcan : call.canElicit) (ht : Transmits y call tool payload)
    (send : ∀ answer, call.answer (confirmationKey srv y.id tool payload) = some answer →
      confirmationAnswer srv answer = .ok () → D.Follows s (call.operation srv y) Q)
    (elicit : ∀ z, A (some z) → call.answer (confirmationKey srv y.id tool payload) = none →
      Q s (.inputRequired (confirmationRequest srv (snapshot z) tool payload
        (confirmationKey srv y.id tool payload))))
    (declined : ∀ answer action err,
      call.answer (confirmationKey srv y.id tool payload) = some answer →
      confirmationAnswer srv answer = .error action → Q s (.complete (refused err (some y.id))))
    (early : ∀ err, ¬call.ReachesGate srv y → Q s (.complete (refused err (some y.id))))
    (absent : A none → Q s (.complete (refused (.sessionNotFound y.id) (some y.id)))) :
    D.Follows s (toolCode srv call) Q := by
  have hargs {β : Type} (f : SessionArgs → β) {z : Session} (hz : A (some z)) :
      f z.toSessionArgs = f y.toSessionArgs := congrArg f (hA z hz)
  have hconfirm {z : Session} (hz : A (some z)) : z.writePolicy = .confirm :=
    (hargs SessionArgs.writePolicy hz).trans hpolicy
  cases ht with
  | @write p context inputResponses names =>
    obtain ⟨sessionId, data, confirm⟩ := p
    subst names
    apply follows_write h
    · intro z w hz hw hpasses hconfirmed
      rw [hconfirm hw] at hconfirmed
      obtain ⟨answer, hgiven, haccepts⟩ := hconfirmed.answer hcan
      exact send answer hgiven haccepts
    · exact fun z w hz hw _ _ hnone => elicit w hw hnone
    · intro z err hz hdeclined
      rw [hconfirm hz] at hdeclined
      obtain ⟨answer, action, hgiven, hrejects⟩ := hdeclined.answer hcan
      exact declined answer action err hgiven hrejects
    · exact fun reason hlong => early _ fun hpasses => absurd hpasses.fits (Nat.not_le_of_lt hlong)
    · intro z hz hguarded
      refine early _ fun hpasses => ?_
      have hempty := hpasses.unguarded
      rw [← hargs SessionArgs.commandPolicy hz, hguarded] at hempty
      cases hempty
    · exact absent
  | @exec p context inputResponses names =>
    obtain ⟨sessionId, command, expect, lineEnding, echoMode, semanticPrompt, confirm,
      clearBeforeWrite, normalizeOutput, timeoutMs⟩ := p
    subst names
    -- `exec` looks the session up at every gate, but always with the same arguments
    have hplan {z : Session} (hz : A (some z)) (p : ExecParams) :
        McpServer.execPlan p z.consoleSettings = McpServer.execPlan p y.consoleSettings :=
      hargs (fun args => McpServer.execPlan p args.consoleSettings) hz
    have hbytes {z : Session} (hz : A (some z)) (p : ExecParams) :
        p.transmitted z = p.transmitted y := congrArg McpServer.ExecPlan.transmitted (hplan hz p)
    apply follows_exec h
    · intro z _ w hz _ hw hpasses hconfirmed
      rw [hconfirm hw, hbytes hz] at hconfirmed
      obtain ⟨answer, hgiven, haccepts⟩ := hconfirmed.answer hcan
      rw [hplan hz]
      exact send answer hgiven haccepts
    · intro x z w hx _ hw _ _ hnone
      rw [hbytes hx] at hnone ⊢
      exact elicit w hw hnone
    · intro x z err hx hz hdeclined
      rw [hconfirm hz, hbytes hx] at hdeclined
      obtain ⟨answer, action, hgiven, hrejects⟩ := hdeclined.answer hcan
      exact declined answer action err hgiven hrejects
    · intro err herr
      refine early _ fun hpasses => ?_
      have hnone := hpasses.arguments
      rw [herr] at hnone
      cases hnone
    · intro x z rule hx hz hrule
      refine early _ fun hpasses => ?_
      have hnone := hpasses.accepted
      rw [← hargs SessionArgs.commandPolicy hz, ← hargs SessionArgs.consoleSettings hx,
        hrule] at hnone
      cases hnone
    · intro z err hz herr
      refine early _ fun hpasses => ?_
      have hnone := hpasses.plan
      rw [← hplan hz, herr] at hnone
      cases hnone
    · exact absent

end Gate

section Rounds

variable {srv : McpServer} {y : Session} {call : ToolCall} {tool : String} {payload : List UInt8}
  {es : List Ask} {q : Handler CallToolResponse}

/-! ## The first round -/

/-- A request that reaches the gate without an answer gets the question, and does no input
or output. -/
theorem first_round (hpolicy : y.writePolicy = .confirm) (hcan : call.canElicit)
    (ht : Transmits y call tool payload) (hgate : call.ReachesGate srv y)
    (hnone : call.answer (confirmationKey srv y.id tool payload) = none)
    (k : Runs (toolCode srv call) es q) (hsees : Sees y es) :
    (∀ e ∈ es, e.req.ioPort = none) ∧
    ∀ response, q = .ret response → response =
      .inputRequired (confirmationRequest srv (snapshot y) tool payload
        (confirmationKey srv y.id tool payload)) := by
  have hfollows : ((only fun r => r.ioPort = none).assuming (Finds (some y.id)
      (· = some y))).Follows (some ()) (toolCode srv call) (assumed fun _ response => response =
        .inputRequired (confirmationRequest srv (snapshot y) tool payload
          (confirmationKey srv y.id tool payload))) := by
    apply follows_request (lookup_assuming rfl fun _ => rfl) _ hpolicy hcan ht
    · intro answer hgiven
      rw [hnone] at hgiven
      cases hgiven
    · rintro z hz _ _ ⟨⟩
      rw [Option.some.inj hz]
    · intro answer action err hgiven
      rw [hnone] at hgiven
      cases hgiven
    · exact fun err hearly => absurd hgate hearly
    · nofun
    · intro z hz
      rw [Option.some.inj hz]
  refine ⟨hfollows.assuming_mem k hsees.finds, ?_⟩
  rintro response rfl
  exact hfollows.returns k () (assuming_after hsees.finds)

/-! ## The answer on another request -/

/-- An answer under the key of one request is none for a request that differs from it in
session, tool or bytes. -/
theorem replay_withheld {z : Session} {other : ToolCall} {tool' : String} {payload' : List UInt8}
    (hpolicy : z.writePolicy = .confirm) (hcan : other.canElicit)
    (ht : Transmits z other tool' payload')
    (honly : ∀ key answer, other.answer key = some answer →
      key = confirmationKey srv y.id tool payload)
    (hhash : srv.hash (keyInput z.id tool' payload') = srv.hash (keyInput y.id tool payload) →
      keyInput z.id tool' payload' = keyInput y.id tool payload)
    (hdiffers : ¬(z.id = y.id ∧ tool' = tool ∧ payload' = payload))
    (k : Runs (toolCode srv other) es q) (hsees : SeesLike z es) :
    (∀ e ∈ es, e.req.ioPort = none) ∧
    ∀ response, q = .ret response → (∃ ask, response = .inputRequired ask) ∨
      ∃ err, response = .complete (refused err (some z.id)) := by
  have hnone (answer : Value)
      (hgiven : other.answer (confirmationKey srv z.id tool' payload') = some answer) : False :=
    hdiffers (confirmationKey_injective hhash (honly _ answer hgiven))
  have hfollows : ((only fun r => r.ioPort = none).assuming (Finds (some z.id) fun x =>
      ∀ w, x = some w → w.toSessionArgs = z.toSessionArgs)).Follows (some ()) (toolCode srv other)
        (assumed fun _ response => (∃ ask, response = .inputRequired ask) ∨
          ∃ err, response = .complete (refused err (some z.id))) := by
    apply follows_request (lookup_assuming rfl fun _ => rfl) _ hpolicy hcan ht
    · exact fun answer hgiven => (hnone answer hgiven).elim
    · exact fun w _ _ _ _ => .inl ⟨_, rfl⟩
    · exact fun answer _ err hgiven => (hnone answer hgiven).elim
    · exact fun err _ _ _ => .inr ⟨err, rfl⟩
    · exact fun _ _ _ => .inr ⟨_, rfl⟩
    · exact fun w hw => hw w rfl
  refine ⟨hfollows.assuming_mem k hsees.finds, ?_⟩
  rintro response rfl
  exact hfollows.returns k () (assuming_after hsees.finds)

end Rounds

/-! ## The second round -/

noncomputable abbrev attending (y : Session) (port : Handle) : Discipline Request Response :=
  (only fun r => ∀ p, r.ioPort = some p → p = port).assuming (Finds (some y.id) (· = some y))

section Attending

variable {y : Session} {port : Handle} {α : Type} {timeoutMs : Nat} {token : Token}

theorem attending_plain : Plain (attending y port) := by
  have hstill (s : Option Unit) : s.map (fun _ => ()) = s := by cases s <;> rfl
  constructor <;> intros <;> first
    | exact ⟨fun _ _ => nofun, fun _ => (if_pos trivial).trans (hstill _)⟩
    | exact (if_pos trivial).trans (hstill _)

theorem attending_steady : Steady (attending y port) (some ()) port where
  read _ _ := ⟨fun _ _ _ h => (Option.some.inj h).symm, fun _ => if_pos trivial⟩
  write _ _ := ⟨fun _ _ _ h => (Option.some.inj h).symm, fun _ => if_pos trivial⟩
  flush _ := ⟨fun _ _ _ h => (Option.some.inj h).symm, fun _ => if_pos trivial⟩

theorem attending_found : (attending y port).advance (some ()) (.get y.id) (some y) = some () :=
  assuming_advance_of fun _ => rfl

theorem attending_lost {x : Option Session} (h : x ≠ some y) (s : Option Unit) :
    (attending y port).advance s (.get y.id) x = none :=
  assuming_advance_not fun hfinds => h (hfinds rfl)

theorem attending_checkout (hport : y.port = some port) {Q : Option Unit → Handle × Nat → Prop}
    {E : Option Unit → SerialError → Prop} (h : Q (some ()) (port, y.defaultTimeoutMs))
    (hQ : ∀ a, Q none a) (hE : ∀ e, E none e) :
    (attending y port).Meets (some ()) (checkoutPortAndTimeout y.id) Q E := by
  apply meets_checkoutPortAndTimeout
  · exact fun _ _ => nofun
  · intro x port' hx
    by_cases hxy : x = y
    · subst hxy
      obtain rfl := Option.some.inj (hx.symm.trans hport)
      rw [attending_found]
      exact h
    · rw [attending_lost fun heq => hxy (Option.some.inj heq)]
      exact hQ _
  · intro x hx
    rw [attending_lost]
    · exact hE _
    · rintro ⟨⟩
      rw [hport] at hx
      cases hx
  · rw [attending_lost (x := none) nofun]
    exact hE _

theorem attending_withPort (hport : y.port = some port) (hready : y.state = .ready)
    {body : Op α} {R : α → Prop}
    (h : (attending y port).Meets (some ()) body (fun s a => s = some () ∧ R a)
      (fun s e => s = some () ∧ e.possibleSerialSideEffect)) :
    (attending y port).Meets (some ()) (withPort y.id port timeoutMs token body)
      (assumed fun _ a => R a) (assumed fun _ e => e.possibleSerialSideEffect) := by
  have hlock : (attending y port).advance (some ()) (.lock port token) (.ready ()) = some () :=
    assuming_advance_of trivial
  have hgone {β : Type} (S : β → Prop) (b : β) : (attending y port).admits none (.unlock port) ∧
      assumed (fun _ b => S b) ((attending y port).advance none (.unlock port) ()) b := by
    rw [show (attending y port).advance none (.unlock port) () = none from if_pos trivial]
    exact ⟨nofun, nofun⟩
  apply meets_withPort attending_plain
  · exact fun _ _ => nofun
  · exact fun _ _ => rfl
  · exact fun _ _ => rfl
  · exact fun _ _ => nofun
  · intro x _ _
    rw [hlock]
    by_cases hxy : x = y
    · subst hxy
      rw [attending_found]
      apply h.mono
      · rintro _ a ⟨rfl, ha⟩
        exact ⟨fun _ _ => nofun, fun _ _ => ha⟩
      · rintro _ e ⟨rfl, he⟩
        exact ⟨fun _ _ => nofun, fun _ _ => he⟩
    · rw [attending_lost fun heq => hxy (Option.some.inj heq)]
      exact meets_assuming_none (hgone R) (hgone fun e : SerialError => e.possibleSerialSideEffect)
  · intro x hstale
    have hxy : some x ≠ some y := by
      rintro ⟨⟩
      exact hstale ⟨hport, hready⟩
    rw [attending_lost hxy]
    exact hgone (fun e : SerialError => e.possibleSerialSideEffect) _
  · rw [attending_lost (x := none) nofun]
    exact hgone (fun e : SerialError => e.possibleSerialSideEffect) _

theorem attending_writeWithCancel (hport : y.port = some port) (hready : y.state = .ready)
    (data : List UInt8) :
    (attending y port).Meets (some ()) (writeWithCancel y.id data token) (assumed fun _ _ => True)
      (assumed fun _ e => e.possibleSerialSideEffect) := by
  unfold writeWithCancel
  rw [meets_bind]
  refine attending_checkout hport ?_ (fun _ => meets_assumed_none) (assumed_none _)
  apply attending_withPort hport hready
  exact (attending_steady.writeAndFlush attending_plain data y.defaultTimeoutMs data.length
    token).mono (fun _ _ hs => ⟨hs, trivial⟩) fun _ _ hs => hs

theorem attending_execWithOptions (hport : y.port = some port) (hready : y.state = .ready)
    {rx : RegexCrate} {command : List UInt8} {expect : String} {m : PatternMatcher}
    (hfits : command.length ≤ maxWriteChunk) (hexpect : PatternMatcher.new rx expect = .ok m)
    (options : ExecOptions) :
    (attending y port).Meets (some ())
      (execWithOptions rx y.id command expect timeoutMs options token)
      (assumed fun _ o => o.commandWritten = true ∨ o.status = .cancelled)
      (assumed fun _ e => e.possibleSerialSideEffect) := by
  unfold execWithOptions
  rw [if_neg (Nat.not_lt_of_le hfits), hexpect]
  unfold checkoutPort
  rw [meets_bind, meets_bind]
  refine attending_checkout hport ?_
    (fun _ => meets_assuming_none (fun _ => meets_assumed_none) (assumed_none _)) (assumed_none _)
  show (attending y port).Meets (some ()) (_ >>= _) _ _
  rw [meets_bind, meets_ofResult]
  apply meets_query (attending_plain.isCancelled (some ()) token)
  intro cancelled
  cases cancelled with
  | true => exact fun _ _ => .inr rfl
  | false =>
    apply attending_withPort hport hready
    apply Meets.bind (attending_steady.toSteadyRead.clearBefore attending_plain options token)
    rintro _ cleared rfl
    exact attending_steady.execOutcome attending_plain command m timeoutMs options token cleared

end Attending

/-- How an operation on `y` ends: it has sent the payload, or the deadline, a cancellation
or the port came in between. -/
inductive CarriedOut (id : String) (payload : List UInt8) (l : IoLog) :
    CallToolResponse → Prop where
  | wrote {result : WriteResult} (whole : SentWhole (· = payload) l result.bytesWritten) :
      CarriedOut id payload l (.complete (.write result))
  | ran {result : ExecResult} (written : result.commandWritten = true)
      (whole : SentWhole (· = payload) l result.bytesWritten) :
      CarriedOut id payload l (.complete (.exec result))
  | cancelled {result : ExecResult} (status : result.status = "cancelled")
      (unwritten : result.commandWritten = false) (nothing : l.written = []) :
      CarriedOut id payload l (.complete (.exec result))
  | failed {err : SerialError} {bytesConsumed : Bool} (sideEffect : err.possibleSerialSideEffect) :
      CarriedOut id payload l (.complete (toolError err (some id) true bytesConsumed))

inductive Outcome (id : String) : CallToolResponse → Prop where
  | wrote (result : WriteResult) : Outcome id (.complete (.write result))
  | ran {result : ExecResult} (h : result.commandWritten = true ∨ result.status = "cancelled") :
      Outcome id (.complete (.exec result))
  | failed {err : SerialError} {bytesConsumed : Bool} (sideEffect : err.possibleSerialSideEffect) :
      Outcome id (.complete (toolError err (some id) true bytesConsumed))

section Second

variable {srv : McpServer} {y : Session} {call : ToolCall} {tool : String} {payload : List UInt8}
  {port : Handle}

theorem Outcome.carriedOut {id : String} {l : IoLog} {response : CallToolResponse}
    (h : Outcome id response) (hreports : ToolReports (· = payload) l response) :
    CarriedOut id payload l response := by
  cases h with
  | wrote result => exact .wrote hreports
  | @ran result h =>
    cases hwritten : result.commandWritten with
    | true => exact .ran hwritten (hreports.1 hwritten)
    | false =>
      rcases h with h | h
      · rw [hwritten] at h
        cases h
      · exact .cancelled h hwritten (hreports.2 hwritten)
  | failed sideEffect => exact .failed sideEffect

theorem attending_operation (hport : y.port = some port) (hready : y.state = .ready)
    (ht : Transmits y call tool payload) (hgate : call.ReachesGate srv y) :
    (attending y port).Follows (some ()) (call.operation srv y)
      (assumed fun _ response => Outcome y.id response) := by
  cases ht with
  | @write p context inputResponses names =>
    obtain ⟨sessionId, data, confirm⟩ := p
    subst names
    apply follows_run_bind.mpr
    apply (attending_writeWithCancel hport hready (asBytes data)).mono
    · exact fun _ n _ _ _ => .wrote ⟨n⟩
    · rintro _ e he _ rfl
      have hside : e.possibleSerialSideEffect = true := he () rfl
      show Outcome y.id (.complete (toolError e (some y.id) e.possibleSerialSideEffect false))
      rw [hside]
      exact .failed hside
  | @exec p context inputResponses names =>
    have hpasses : p.Passes srv y y := hgate
    obtain ⟨m, hmatcher⟩ := hpasses.matcher
    have hfits := hpasses.fits
    obtain ⟨sessionId, command, expect, lineEnding, echoMode, semanticPrompt, confirm,
      clearBeforeWrite, normalizeOutput, timeoutMs⟩ := p
    subst names
    have hlookup : Lookup (attending y port) (some ()) y.id (· = some y)
        (assumed fun _ response => Outcome y.id response) :=
      lookup_assuming (fun _ => nofun) fun _ => rfl
    apply follows_sendExec hlookup
    · intro timeoutMs clearBeforeWrite
      apply (attending_execWithOptions hport hready hfits hmatcher _).mono
      -- an `exec` that has not written was cancelled first
      · rintro _ o ho _ rfl
        refine .ran ((ho () rfl).imp_right fun hcancelled => ?_)
        show o.status.asStr = "cancelled"
        rw [hcancelled]
        rfl
      · rintro _ e he _ rfl
        have hside : e.possibleSerialSideEffect = true := he () rfl
        rw [hside]
        exact .failed hside
    · nofun

theorem gateByPolicy_answered {context : RequestContext} {inputResponses : Option InputResponses}
    {id : String} {confirmed : Bool} {answer : Value} (hcan : clientCanElicit context)
    (hgiven : inputResponses.bind (·.lookup (confirmationKey srv id tool payload)) = some answer)
    (haccepts : confirmationAnswer srv answer = .ok ()) :
    srv.gateByPolicy id confirmed context inputResponses tool payload .confirm =
      .ret .proceed := by
  unfold McpServer.gateByPolicy
  rw [if_pos hcan]
  dsimp only
  rw [hgiven]
  dsimp only
  rw [haccepts]
  rfl

theorem gateWrite_passes {context : RequestContext} {inputResponses : Option InputResponses}
    (id : String) (confirmed : Bool) {answer : Value} (hpolicy : y.writePolicy = .confirm)
    (hcan : clientCanElicit context)
    (hgiven : inputResponses.bind (·.lookup (confirmationKey srv id tool payload)) = some answer)
    (haccepts : confirmationAnswer srv answer = .ok ()) :
    Runs (srv.gateWrite id confirmed context inputResponses tool payload)
      [⟨.get id, some y⟩] (.ret .proceed) := by
  refine .step ?_
  show Runs (srv.gateByPolicy id confirmed context inputResponses tool payload y.writePolicy) _ _
  rw [hpolicy, gateByPolicy_answered hcan hgiven haccepts]
  exact .refl _

theorem gateRawWritePolicy_passes (id : String) (hunguarded : y.commandPolicy.isEmpty) :
    Runs (McpServer.gateRawWritePolicy id) [⟨.get id, some y⟩] (.ret none) := by
  refine .step ?_
  show Runs (if y.commandPolicy.isEmpty then return none else _ : Handler _) _ _
  rw [if_pos hunguarded]
  exact .refl _

theorem gateCommandPolicy_passes (id : String) {command : List Char} {ending : LineEnding}
    {requested : Option LineEnding}
    (haccepted : y.commandPolicy.check command ending requested = none) :
    Runs (McpServer.gateCommandPolicy id command ending requested)
      [⟨.get id, some y⟩] (.ret none) := by
  refine .step ?_
  show Runs (.ret ((y.commandPolicy.check command ending requested).map _)) _ _
  rw [haccepted]
  exact .refl _

/-- With an answer that accepts, a request that finds `y` each time gets to its operation. -/
theorem passes_gates (hpolicy : y.writePolicy = .confirm) (hcan : call.canElicit)
    (ht : Transmits y call tool payload) (hgate : call.ReachesGate srv y) {answer : Value}
    (hgiven : call.answer (confirmationKey srv y.id tool payload) = some answer)
    (haccepts : confirmationAnswer srv answer = .ok ()) :
    ∃ n, Runs (toolCode srv call) (List.replicate n ⟨.get y.id, some y⟩)
      (call.operation srv y) := by
  cases ht with
  | @write p context inputResponses names =>
    have hpasses : p.Passes y := hgate
    have hraw := gateRawWritePolicy_passes p.sessionId hpasses.unguarded
    have hwrite := gateWrite_passes p.sessionId (p.confirm.getD false) hpolicy hcan
      (names ▸ hgiven) haccepts
    refine ⟨2, ?_⟩
    show Runs (srv.write p context inputResponses) _ _
    unfold McpServer.write
    rw [if_neg (Nat.not_lt_of_le hpasses.fits), ← names]
    exact (hraw.bind _).append (hwrite.bind _)
  | @exec p context inputResponses names =>
    have hpasses : p.Passes srv y y := hgate
    have hsettings : Runs (consoleSettings p.sessionId).run [⟨.get p.sessionId, some y⟩]
        (.ret (.ok y.consoleSettings)) := .step (.refl _)
    have hcommand := gateCommandPolicy_passes p.sessionId hpasses.accepted
    have hwrite := gateWrite_passes p.sessionId (p.confirm.getD false) hpolicy hcan
      (names ▸ hgiven) haccepts
    refine ⟨3, ?_⟩
    show Runs (srv.exec p context inputResponses) _ _
    unfold McpServer.exec
    rw [hpasses.arguments, ← names]
    refine (hsettings.bind _).append ((hcommand.bind _).append ?_)
    dsimp only
    rw [hpasses.plan]
    exact hwrite.bind _

/-- The identical request with an answer that accepts under its key passes every gate and
hands exactly its payload to the port. -/
theorem second_round (hready : y.state = .ready) (hport : y.port = some port)
    (hpolicy : y.writePolicy = .confirm) (hcan : call.canElicit)
    (ht : Transmits y call tool payload) (hgate : call.ReachesGate srv y) {answer : Value}
    (hgiven : call.answer (confirmationKey srv y.id tool payload) = some answer)
    (haccepts : confirmationAnswer srv answer = .ok ()) {es : List Ask}
    {q : Handler CallToolResponse} (k : Runs (toolCode srv call) es q) (hsees : Sees y es) :
    (∀ before after p data token x, es = before ++ ⟨.write p data token, x⟩ :: after →
      p = port ∧ before.flatMap accepted ++ data = payload) ∧
    ∀ response, q = .ret response → CarriedOut y.id payload (IoLog.run es) response := by
  -- no gate turns the request back, as its answer accepts
  have hfollows : (attending y port).Follows (some ()) (toolCode srv call)
      (assumed fun _ response => Outcome y.id response) := by
    apply follows_request (lookup_assuming (fun _ => nofun) fun _ => rfl) _ hpolicy hcan ht
    · exact fun _ _ _ => attending_operation hport hready ht hgate
    · intro z _ hnone
      rw [hgiven] at hnone
      cases hnone
    · intro answer' action err hgiven' hrejects
      rw [hgiven] at hgiven'
      cases hgiven'
      rw [haccepts] at hrejects
      cases hrejects
    · exact fun err hearly => absurd hgate hearly
    · nofun
    · intro z hz
      rw [Option.some.inj hz]
  have hid : call.sessionId = some y.id := by
    cases ht with
    | write names => exact congrArg some names
    | exec names => exact congrArg some names
  have hfinds {es' : List Ask} (h : ∀ e ∈ es', e ∈ es) :
      ∀ e ∈ es', Finds call.sessionId (· = some y) e.req e.resp := by
    intro e he
    rw [hid]
    exact hsees.finds e (h e he)
  have hpayload (data : List UInt8) (hsends : call.Sends (· = some y) data) : data = payload := by
    cases ht with
    | write => exact hsends
    | exec =>
      obtain ⟨z, hz, hdata⟩ := hsends
      rw [hdata, Option.some.inj hz]
  constructor
  · rintro before after p data token x rfl
    refine ⟨hfollows.assuming_mem k hsees.finds _
      (List.mem_append_right _ List.mem_cons_self) p rfl, ?_⟩
    -- the call as it stood before this write has handed over what came before
    obtain ⟨next, hbefore, _⟩ := k.cut
    apply hpayload
    apply Permitted.sends
    exact handed_permitted hbefore (hfinds fun e he => List.mem_append_left _ he)
  · rintro response rfl
    apply (hfollows.returns k () (assuming_after hsees.finds)).carriedOut
    apply ToolReports.mono _ hpayload
    exact (toolCode_ioLog srv (· = some y) call).returns k _
      (assuming_after (hfinds fun _ he => he))

end Second

/-! ## Both rounds -/

section Answering

variable {srv : McpServer} {y : Session} {call : ToolCall} {tool : String} {payload : List UInt8}
  {inputResponses : InputResponses}

theorem Transmits.answering (h : Transmits y call tool payload) :
    Transmits y (call.answering inputResponses) tool payload := by
  cases h with
  | write names => exact .write names
  | exec names => exact .exec names

theorem Transmits.answer_answering (h : Transmits y call tool payload) (key : String)
    (inputResponses : InputResponses) :
    (call.answering inputResponses).answer key = inputResponses.lookup key := by
  cases h with
  | write => rfl
  | exec => rfl

theorem canElicit_answering (call : ToolCall) (inputResponses : InputResponses) :
    (call.answering inputResponses).canElicit = call.canElicit := by
  cases call <;> rfl

theorem reachesGate_answering (call : ToolCall) (inputResponses : InputResponses) :
    (call.answering inputResponses).ReachesGate srv y = call.ReachesGate srv y := by
  cases call <;> rfl

end Answering

/-- A request on a confirmed session from a client that can be elicited, which no check before
the write gate turns down. Without an answer it gets the question about its payload and does
no input or output. Sent again with an answer that accepts, it passes every gate, hands that
payload to the port and is turned down by nothing but the deadline, a cancellation or the
port. The answer lets no other request through, if the hash tells the two apart. -/
theorem two_round_confirmation (srv : McpServer) {y : Session} {port : Handle}
    (hready : y.state = .ready) (hport : y.port = some port) (hpolicy : y.writePolicy = .confirm)
    {call : ToolCall} {tool : String} {payload : List UInt8} (hcan : call.canElicit)
    (ht : Transmits y call tool payload) (hgate : call.ReachesGate srv y) :
    (call.answer (confirmationKey srv y.id tool payload) = none →
      ∀ es response, Runs (toolCode srv call) es (.ret response) → Sees y es →
        response = .inputRequired (confirmationRequest srv (snapshot y) tool payload
          (confirmationKey srv y.id tool payload)) ∧
        ∀ e ∈ es, e.req.ioPort = none) ∧
    (∀ inputResponses answer content,
      inputResponses.lookup (confirmationKey srv y.id tool payload) = some answer →
      srv.elicitResult answer = some ⟨.accept, some content⟩ →
      content.get "confirm" = some (.bool true) →
      (∃ n, Runs (toolCode srv (call.answering inputResponses))
        (List.replicate n ⟨.get y.id, some y⟩)
        ((call.answering inputResponses).operation srv y)) ∧
      ∀ es q, Runs (toolCode srv (call.answering inputResponses)) es q → Sees y es →
        (∀ before after p data token x, es = before ++ ⟨.write p data token, x⟩ :: after →
          p = port ∧ before.flatMap accepted ++ data = payload) ∧
        ∀ response, q = .ret response → CarriedOut y.id payload (IoLog.run es) response) ∧
    (∀ inputResponses, (∀ key answer, inputResponses.lookup key = some answer →
        key = confirmationKey srv y.id tool payload) →
      ∀ z other tool' payload', z.writePolicy = .confirm → other.canElicit →
        Transmits z other tool' payload' →
        (srv.hash (keyInput z.id tool' payload') = srv.hash (keyInput y.id tool payload) →
          keyInput z.id tool' payload' = keyInput y.id tool payload) →
        ¬(z.id = y.id ∧ tool' = tool ∧ payload' = payload) →
        ∀ es q, Runs (toolCode srv (other.answering inputResponses)) es q → SeesLike z es →
          (∀ e ∈ es, e.req.ioPort = none) ∧
          ∀ response, q = .ret response → (∃ ask, response = .inputRequired ask) ∨
            ∃ err, response = .complete (refused err (some z.id))) := by
  refine ⟨?_, ?_, ?_⟩
  · intro hnone es response k hsees
    obtain ⟨hio, hresponse⟩ := first_round hpolicy hcan ht hgate hnone k hsees
    exact ⟨hresponse response rfl, hio⟩
  · intro inputResponses answer content hgiven haccept hflag
    have haccepts : confirmationAnswer srv answer = .ok () :=
      confirmationAnswer_eq_ok.mpr ⟨content, haccept, hflag⟩
    -- the answer changes neither who is asked nor what the gates before it see
    rw [← canElicit_answering call inputResponses] at hcan
    rw [← reachesGate_answering call inputResponses] at hgate
    have hanswer := (ht.answer_answering _ inputResponses).trans hgiven
    refine ⟨passes_gates hpolicy hcan ht.answering hgate hanswer haccepts, fun es q k hsees => ?_⟩
    exact second_round hready hport hpolicy hcan ht.answering hgate hanswer haccepts k hsees
  · intro inputResponses honly z other tool' payload' hpolicy' hcan' ht' hhash hdiffers es q k hsees
    rw [← canElicit_answering other inputResponses] at hcan'
    refine replay_withheld hpolicy' hcan' ht'.answering (fun key answer hgiven => ?_) hhash hdiffers
      k hsees
    exact honly key answer ((ht'.answer_answering key inputResponses).symm.trans hgiven)

def elicitingContext : RequestContext :=
  { protocolVersion := some "2026-07-28", elicitation := some { form := true, url := false } }

def acceptance : Value :=
  .object [("action", .string "accept"), ("content", .object [("confirm", .bool true)])]

def confirmedExec : ToolCall := .exec (execParams "re") elicitingContext none

def confirmedKey : String := confirmationKey wordServer firstId "serial.exec" [114, 101, 10]

theorem two_round_confirmation_exec :
    (∃ es response, Runs (toolCode wordServer confirmedExec) es (.ret response) ∧
      response = .inputRequired (confirmationRequest wordServer (snapshot guardedSession)
        "serial.exec" [114, 101, 10] confirmedKey) ∧ ∀ e ∈ es, e.req.ioPort = none) ∧
    ∃ before q, Runs (toolCode wordServer (confirmedExec.answering [(confirmedKey, acceptance)]))
        (before ++ [⟨.write (0 : Nat) [114, 101, 10] .call, .ready (.ok ⟨3, by decide⟩)⟩]) q ∧
      before.flatMap accepted ++ [114, 101, 10] = [114, 101, 10] := by
  have ht : Transmits guardedSession confirmedExec "serial.exec" [114, 101, 10] := .exec rfl
  have hgate : confirmedExec.ReachesGate wordServer guardedSession := ⟨rfl, rfl, rfl⟩
  have h := two_round_confirmation wordServer rfl rfl rfl (by decide) ht hgate
  constructor
  · have k : Runs (toolCode wordServer confirmedExec)
        (List.replicate 4 ⟨.get firstId, some guardedSession⟩) (.ret _) :=
      .step (.step (.step (.step (.refl _))))
    refine ⟨_, _, k, h.1 rfl _ _ k fun x hx => ?_⟩
    cases List.eq_of_mem_replicate hx
    rfl
  · obtain ⟨⟨n, hgates⟩, hsecond⟩ := h.2.1 [(confirmedKey, acceptance)] acceptance
      (.object [("confirm", .bool true)]) List.lookup_cons_self rfl rfl
    have k : Runs (wordServer.sendExec (execParams "re")
        (McpServer.execPlan (execParams "re") guardedSession.consoleSettings))
        ([⟨.get firstId, some guardedSession⟩, ⟨.isCancelled .call, false⟩, ⟨.timeLeft, true⟩,
          ⟨.lock (0 : Nat) .call, .ready ()⟩, ⟨.get firstId, some guardedSession⟩,
          ⟨.isCancelled .call, false⟩, ⟨.timeLeft, true⟩, ⟨.cancelPicked .call, false⟩] ++
          [⟨.write (0 : Nat) [114, 101, 10] .call, .ready (.ok ⟨3, by decide⟩)⟩]) _ :=
      .step (.step (.step (.step (.step (.step (.step (.step (.step (.refl _)))))))))
    have hwhole := hgates.append k
    rw [← List.append_assoc] at hwhole
    refine ⟨_, _, hwhole, ((hsecond _ _ hwhole fun x hx => ?_).1 _ [] _ _ _ _ rfl).2⟩
    simp only [List.mem_append, List.mem_replicate, List.mem_cons, List.not_mem_nil,
      or_false] at hx
    rcases hx with ((⟨_, hx⟩ | hx | hx | hx | hx | hx | hx | hx | hx) | hx) <;> cases hx <;> rfl

end McpSerial
