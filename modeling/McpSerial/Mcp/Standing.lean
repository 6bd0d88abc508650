import McpSerial.Mcp.Gone
import McpSerial.Mcp.TwoRounds

/-! A ready session that nobody closes stays as it is: whatever other calls do, in whatever
order, it stays in the table, and every call on it finds it. -/

namespace McpSerial
open Interaction Interaction.Discipline Utf8

def Request.touches : Request → Option String
  | .beginClose id | .restoreReady id _ | .finishClose id => some id
  | _ => none

def SerialError.blamesSession : SerialError → Bool
  | .sessionNotFound _ | .invalidState .. => true
  | _ => false

/-- The response is no such error. -/
def Served : CallToolResponse → Prop
  | .complete (.error body) =>
    body.type ≠ "unknown_session" ∧ body.type ≠ "invalid_session_state"
  | _ => True

/-- What the calls that only look at the table say of `s`. -/
def Reported (s : Session) : ToolCall → CallToolResponse → Prop
  | .getSession p, response =>
    p.sessionId = s.id → response = .complete (.getSession (snapshot s))
  | .sessions, response => ∃ all, response = .complete (.sessions all) ∧ snapshot s ∈ all
  | _, _ => True

/-! ## The entry -/

section Moves

variable {t : Nat} {σ σ' : ManagerState} {ρ ρ' : Role} {e : Ask} {id : String} {s : Session}

theorem Move.entry_stays (m : Move t σ ρ e σ' ρ') (hfound : σ.sessions.lookup id = some s)
    (hopens : ρ.opens ≠ some id) (htouches : e.req.touches ≠ some id) :
    σ'.sessions.lookup id = some s ∧ ρ'.opens ≠ some id := by
  have hother {id' : String} {s' : Session} (hne : id' ≠ id) :
      (σ.sessions.insert id' s').lookup id = some s := by
    rw [AList.lookup_insert_ne hne.symm]
    exact hfound
  have hkept {id' : String} (hne : id' ≠ id) : (σ.sessions.erase id').lookup id = some s := by
    rw [AList.lookup_erase_ne hne.symm]
    exact hfound
  cases m with
  | quiet => exact ⟨hfound, hopens⟩
  | @reserve args id' fresh =>
    -- the id of a session in the table is not given out again
    have hne : id' ≠ id := by
      rintro rfl
      exact fresh (AList.lookup_isSome.mp (Option.isSome_iff_exists.mpr ⟨s, hfound⟩))
    exact ⟨hother hne, fun h => hne (Option.some.inj h)⟩
  | connect | refuse => exact ⟨hfound, hopens⟩
  | ready | abandon =>
    have hne := fun h => hopens (congrArg some h)
    first | exact ⟨hother hne, nofun⟩ | exact ⟨hkept hne, nofun⟩
  | begin | restore => exact ⟨hother fun h => htouches (congrArg some h), nofun⟩
  | finish => exact ⟨hkept fun h => htouches (congrArg some h), nofun⟩
  | check | io => exact ⟨hfound, hopens⟩
  | orphan | drain | drained | vanished | hold | release => exact ⟨hfound, nofun⟩

end Moves

section Runs

variable {κ α : Type} {code : κ → Program Request Response α}
  {tr tr' : List (Label Request Response κ)} {c c' : Config machine κ α} {t : Nat} {id : String}
  {s : Session}

theorem Orderly.ready_opened (hcode : Orderly code) (h : Run machine code tr c)
    (hfresh : FreshIds tr) (hfound : c.shared.sessions.lookup id = some s)
    (hready : s.state = .ready) : ¬Covered Role.opens (roles c) id := by
  rintro ⟨t, ht⟩
  have hknown := hcode.known h
  obtain ⟨p, hp⟩ :=
    Option.isSome_iff_exists.mp (((hcode.tableOk h).port_iff id s hfound).mpr hready)
  obtain ⟨u, hu⟩ := hknown.port id s p hfound hp
  obtain ⟨hdone, args, hreserved⟩ := hknown.readied u id p hu
  obtain ⟨args', hreserved'⟩ := hknown.opens t id ht
  obtain ⟨rfl, _⟩ := hfresh.reserved_unique hreserved' hreserved
  rw [hdone] at ht
  cases ht

/-- As long as no `close` acts on its entry, a ready session keeps it. -/
theorem Orderly.entry_stays (hcode : Orderly code) (h : Run machine code tr c)
    (hs : Steps code c tr' c') (hfresh : FreshIds tr)
    (hfound : c.shared.sessions.lookup id = some s) (hready : s.state = .ready)
    (hquiet : ∀ t e, .act t e ∈ tr' → e.req.touches ≠ some id) :
    c'.shared.sessions.lookup id = some s := by
  refine (hcode.along h hs
    (J := fun σ ρs => σ.sessions.lookup id = some s ∧ ¬Covered Role.opens ρs id)
    ⟨hfound, hcode.ready_opened h hfresh hfound hready⟩ ?_).1
  rintro σ ρs u _ e σ' ρ' he _ ⟨hfound, hopened⟩ rfl m
  obtain ⟨hfound', hopens⟩ := m.entry_stays hfound (fun hu => hopened ⟨u, hu⟩) (hquiet u e he)
  refine ⟨hfound', ?_⟩
  rintro ⟨v, hv⟩
  by_cases hvu : v = u
  · subst hvu
    rw [Function.update_self] at hv
    exact hopens hv
  · rw [Function.update_of_ne hvu] at hv
    exact hopened ⟨v, hv⟩

end Runs

/-! ## The calls -/

section Calls

variable {srv : McpServer} {call : ToolCall} {id : String} {y : Session} {port : Handle}
  {α : Type}

theorem toolCode_touches {es : List Ask} {q : Handler CallToolResponse}
    (k : Runs (toolCode srv call) es q) {e : Ask} (he : e ∈ es)
    (htouches : e.req.touches = some id) : call = .close ⟨id⟩ := by
  have huses {id' : String} (h : call.usesPort) (hid : call.sessionId = some id') : False := by
    have husesPort := toolCode_usesPort srv h hid k e he
    revert htouches husesPort
    cases e.req <;> nofun
  have hunnamed (h : call.sessionId = none) : False := by
    have hunnamed := toolCode_unnamed srv h k e he
    revert htouches hunnamed
    cases e.req <;> nofun
  cases call with
  -- `close` is followed request by request: it names no entry but that of its session
  | close p =>
    have hcode : (only fun r : Request => r.touches = none ∨ r.touches = some p.sessionId).Follows
        () (McpServer.close p) fun _ _ => True := by
      have hplain : Plain (only fun r : Request =>
          r.touches = none ∨ r.touches = some p.sessionId) := by
        constructor <;> intros <;> first | exact ⟨.inl rfl, fun _ => rfl⟩ | rfl
      apply follows_run_bind.mpr
      unfold McpSerial.close closeWithTimeout
      rw [meets_bind, meets_ask]
      refine ⟨.inr rfl, fun begun => ?_⟩
      rcases begun with e | (none | port)
      · trivial
      · exact ⟨.inr rfl, fun _ => trivial⟩
      · show (only _).Meets () (Fallible.attempt (lockPort port _ .never) >>= _) _ _
        rw [meets_bind, meets_attempt]
        apply meets_lockPort hplain (.inl rfl)
        · exact ⟨.inl rfl, fun _ => ⟨.inr rfl, fun _ => trivial⟩⟩
        · exact ⟨.inr rfl, fun _ => trivial⟩
        · exact ⟨.inr rfl, fun _ => trivial⟩
    rcases Follows.only_mem hcode k e he with hnone | hsome
    · rw [hnone] at htouches
      cases htouches
    · rw [hsome] at htouches
      obtain rfl := Option.some.inj htouches
      rfl
  | listPorts | «open» | sessions => exact (hunnamed rfl).elim
  | _ => exact (huses rfl rfl).elim

/-! ### A session that every lookup finds -/

theorem served_error {e : SerialError} (h : e.blamesSession = false) (sid : Option String)
    (commandWritten bytesConsumed : Bool) :
    Served (.complete (toolError e sid commandWritten bytesConsumed)) := by
  cases e with
  | sessionNotFound | invalidState => cases h
  | _ => simp [Served, toolError, SerialError.typeName]

theorem assumed_served {D : Discipline Request Response} {s : Option D.State} {e : SerialError}
    {sid : Option String} {commandWritten bytesConsumed : Bool}
    (h : assumed (fun _ e => e.blamesSession = false) s e) :
    assumed (fun _ response => Served response) s
      (.complete (toolError e sid commandWritten bytesConsumed)) :=
  fun s₀ hs => served_error (h s₀ hs) ..

theorem SerialError.blameless {e : SerialError} (h : e.possibleSerialSideEffect) :
    e.blamesSession = false := by
  cases e <;> first | rfl | cases h

theorem PatternMatcher.new_blameless {rx : RegexCrate} {pattern : String} {e : SerialError}
    (h : PatternMatcher.new rx pattern = .error e) : e.blamesSession = false := by
  unfold PatternMatcher.new PatternMatcher.withCapacity at h
  split_ifs at h
  · cases h
    rfl
  · split at h
    · cases h
    · cases h
      rfl

theorem execArgumentError_blameless {p : ExecParams} {e : SerialError}
    (h : srv.execArgumentError p = some e) : e.blamesSession = false := by
  unfold McpServer.execArgumentError at h
  split_ifs at h
  · cases h
    rfl
  · cases h
    rfl
  · split at h
    · cases h
      rfl
    · cases h

theorem execPlanError_blameless {plan : McpServer.ExecPlan} {e : SerialError}
    (h : McpServer.execPlanError plan = some e) : e.blamesSession = false := by
  unfold McpServer.execPlanError at h
  split_ifs at h
  · cases h
    rfl
  · cases h
    rfl

theorem Declined.blameless {confirmed : Bool} {context : RequestContext}
    {inputResponses : Option InputResponses} {tool : String} {payload : List UInt8}
    {policy : WritePolicy} {e : SerialError}
    (h : Declined srv id confirmed context inputResponses tool payload policy e) :
    e.blamesSession = false := by
  cases h <;> rfl

theorem attending_operate (hport : y.port = some port) (hready : y.state = .ready)
    {timeoutMs : Nat} {token : Token} {body : Handle → Op α}
    (h : KeepsSteady (attending y port) (some ()) (body port)) :
    (attending y port).Meets (some ())
      (checkoutPort y.id >>= fun port => withPort y.id port timeoutMs token (body port))
      (fun _ _ => True) (assumed fun _ e => e.blamesSession = false) := by
  unfold checkoutPort
  rw [meets_bind, meets_bind]
  refine attending_checkout hport ?_ (fun _ => ?_) (assumed_none _)
  · apply (attending_withPort hport hready (R := fun _ => True)
      (h.mono (fun _ _ hs => ⟨hs, trivial⟩) fun _ _ hs => hs)).mono
    · exact fun _ _ _ => trivial
    · exact fun _ e he s hs => SerialError.blameless (he s hs)
  · exact meets_assuming_none (fun _ => meets_assuming_none (fun _ => trivial) (assumed_none _))
      (assumed_none _)

theorem attending_readUntil (hport : y.port = some port) (hready : y.state = .ready)
    (rx : RegexCrate) (pattern : String) {timeoutMs : Nat} {token : Token} :
    (attending y port).Meets (some ()) (readUntilWithCancel rx y.id pattern timeoutMs token)
      (fun _ _ => True) (assumed fun _ e => e.blamesSession = false) := by
  have hplain : Plain (attending y port) := attending_plain
  have hsteady : Steady (attending y port) (some ()) port := attending_steady
  unfold readUntilWithCancel
  cases hmatcher : PatternMatcher.new rx pattern with
  | error e =>
    unfold checkoutPort
    rw [meets_bind, meets_bind]
    refine attending_checkout hport ?_ (fun _ => ?_) (assumed_none _)
    · exact fun _ _ => PatternMatcher.new_blameless hmatcher
    · exact meets_assuming_none (fun _ => meets_assuming_none (fun _ => trivial) (assumed_none _))
        (assumed_none _)
  | ok m =>
    apply attending_operate hport hready
    apply (hsteady.toSteadyRead.readUntilLocked hplain m token .unknown .none).bind
    exact fun _ => KeepsSteady.elapsedMs hplain fun _ => .pure _

/-- No call on a session that is found ready fails for want of it, but for a `close`. -/
theorem toolCode_served (srv : McpServer) (hport : y.port = some port) (hready : y.state = .ready)
    (hid : call.sessionId = some y.id) (hopen : call ≠ .close ⟨y.id⟩) :
    (attending y port).Follows (some ()) (toolCode srv call)
      (assumed fun _ response => Served response) := by
  have hplain : Plain (attending y port) := attending_plain
  have hsteady : Steady (attending y port) (some ()) port := attending_steady
  have hlookup {Q : Unit → CallToolResponse → Prop} :
      Lookup (attending y port) (some ()) y.id (· = some y) (assumed Q) :=
    lookup_assuming (fun _ => nofun) fun _ => rfl
  have hnone {P : Prop} (h : (none : Option Session) = some y) : P := by cases h
  cases call with
  | listPorts | «open» | sessions => cases hid
  | getSession p =>
    obtain ⟨sessionId⟩ := p
    obtain rfl : sessionId = y.id := Option.some.inj hid
    exact follows_getSession hlookup (fun _ _ _ _ => trivial) fun h => hnone h
  | write p context inputResponses =>
    -- the lookups find `y`, and what turns the request down then is the policy or the arguments
    obtain ⟨sessionId, data, confirm⟩ := p
    obtain rfl : sessionId = y.id := Option.some.inj hid
    apply follows_write hlookup
    · intro _ _ _ _ _ _
      apply follows_run_bind.mpr
      apply (attending_writeWithCancel hport hready (asBytes data)).mono
      · exact fun _ _ _ _ _ => trivial
      · exact fun _ e he => assumed_served fun s hs => SerialError.blameless (he s hs)
    · exact fun _ _ _ _ _ _ _ _ _ => trivial
    · exact fun _ _ _ hdeclined => assumed_served fun _ _ => hdeclined.blameless
    · exact fun _ _ => assumed_served fun _ _ => rfl
    · exact fun _ _ _ => assumed_served fun _ _ => rfl
    · exact fun h => hnone h
  | read p =>
    obtain ⟨sessionId, maxBytes, timeoutMs⟩ := p
    obtain rfl : sessionId = y.id := Option.some.inj hid
    apply follows_read hlookup
    · intro maxBytes timeoutMs
      apply (attending_operate hport hready
        (hsteady.toSteadyRead.readLocked hplain maxBytes .call)).mono
      · exact fun _ _ _ _ _ => trivial
      · exact fun _ _ he => assumed_served he
    · exact fun h => hnone h
  | drain p | clearInput p =>
    obtain ⟨sessionId, maxBytes⟩ := p
    obtain rfl : sessionId = y.id := Option.some.inj hid
    apply follows_run_bind.mpr
    apply (attending_operate hport hready
      (hsteady.toSteadyRead.readLocked hplain _ .call)).mono
    · exact fun _ _ _ _ _ => trivial
    · exact fun _ _ he => assumed_served he
  | readUntil p =>
    obtain ⟨sessionId, pattern, timeoutMs⟩ := p
    obtain rfl : sessionId = y.id := Option.some.inj hid
    apply follows_readUntil hlookup
    · intro timeoutMs
      apply (attending_readUntil hport hready srv.toRegexCrate pattern).mono
      · exact fun _ _ _ _ _ => trivial
      · exact fun _ _ he => assumed_served he
    · exact fun h => hnone h
  | exec p context inputResponses =>
    obtain ⟨sessionId, command, expect, lineEnding, echoMode, semanticPrompt, confirm,
      clearBeforeWrite, normalizeOutput, timeoutMs⟩ := p
    obtain rfl : sessionId = y.id := Option.some.inj hid
    apply follows_exec hlookup
    · intro _ _ _ hy hz _ hpasses _
      obtain rfl := Option.some.inj hy
      obtain rfl := Option.some.inj hz
      -- the pattern that the handler has checked compiles in the manager as well
      obtain ⟨m, hmatcher⟩ := hpasses.matcher
      apply follows_sendExec hlookup
      · intro timeoutMs clearBeforeWrite
        apply (attending_execWithOptions hport hready hpasses.fits hmatcher _).mono
        · exact fun _ _ _ _ _ => trivial
        · exact fun _ e he => assumed_served fun s hs => SerialError.blameless (he s hs)
      · exact fun h => hnone h
    · exact fun _ _ _ _ _ _ _ _ _ _ _ => trivial
    · exact fun _ _ _ _ _ hdeclined => assumed_served fun _ _ => hdeclined.blameless
    · exact fun _ hargs => assumed_served fun _ _ => execArgumentError_blameless hargs
    · exact fun _ _ _ _ _ _ => assumed_served fun _ _ => rfl
    · exact fun _ _ _ hplan => assumed_served fun _ _ => execPlanError_blameless hplan
    · exact fun h => hnone h
  | close p =>
    obtain ⟨sessionId⟩ := p
    obtain rfl : sessionId = y.id := Option.some.inj hid
    exact absurd rfl hopen

end Calls

def Lists (s : Session) : (r : Request) → Response r → Prop
  | .get id, x => id = s.id → x = some s
  | .values, all => s ∈ all
  | _, _ => True

theorem lists_of_answer {σ σ' : ManagerState} {t : Nat} {s : Session}
    (hfound : σ.sessions.lookup s.id = some s) {r : Request} {x : Response r}
    (answer : answers σ t r x σ') : Lists s r x := by
  cases r with
  | get id =>
    rintro rfl
    exact answer.1.trans hfound
  | values =>
    have hmem : Sigma.mk s.id s ∈ σ.sessions.entries := AList.mem_lookup_iff.mp hfound
    exact answer.1.mem_iff.mpr (List.mem_map_of_mem hmem)
  | _ => trivial

theorem reported {srv : McpServer} {call : ToolCall} {s : Session} {es : List Ask}
    {response : CallToolResponse} (k : Runs (toolCode srv call) es (.ret response))
    (hlists : ∀ e ∈ es, Lists s e.req e.resp) : Reported s call response := by
  cases call with
  | getSession p =>
    intro hid
    obtain ⟨x, es, rfl, hrest⟩ := runs_ask_ret.mp k
    obtain rfl : x = some s := hlists _ List.mem_cons_self hid
    have hret : Runs (.ret (.complete (.getSession (snapshot s)))) es (.ret response) := hrest
    exact Program.ret.inj (runs_ret.mp hret).2
  | sessions =>
    obtain ⟨all, es, rfl, hrest⟩ := runs_ask_ret.mp k
    have hmem : s ∈ all := hlists _ List.mem_cons_self
    have hret : Runs (.ret (.complete (.sessions (all.map snapshot)))) es (.ret response) := hrest
    exact ⟨_, Program.ret.inj (runs_ret.mp hret).2, List.mem_map_of_mem hmem⟩
  | _ => trivial

section Server

variable {srv : McpServer} {tr tr' : List ToolLabel} {c c' : ToolConfig} {id : String}
  {s : Session}

theorem told_lists (h : Run machine (toolCode srv) tr c) (hfresh : FreshIds tr)
    (hfound : c.shared.sessions.lookup id = some s) (hready : s.state = .ready)
    (hs : Steps (toolCode srv) c tr' c')
    (hquiet : ∀ t e, .act t e ∈ tr' → e.req.touches ≠ some id) {u : Nat}
    (hfree : c.threads u = none) {th : ToolThread} (hth : c'.threads u = some th) :
    ∀ e ∈ th.past, Lists s e.req e.resp := by
  have hcode := toolCode_orderly srv
  intro e he
  rw [(Run.started (h.append hs) hth).past_eq, mem_eventsOf] at he
  rcases List.mem_append.mp he with he | he
  · obtain ⟨th', hth', _⟩ := Run.thread_of_act h he
    rw [hfree] at hth'
    cases hth'
  · obtain ⟨between, rest, d, d', rfl, hbetween, hstep, _⟩ := Steps.step_of_mem hs he
    have hstays := hcode.entry_stays h hbetween hfresh hfound hready
      fun t e he => hquiet t e (List.mem_append_left _ he)
    obtain rfl := (hcode.tableOk h).key_eq id s hfound
    exact lists_of_answer hstays hstep.answers

end Server

/-- Under fresh ids: as long as no `serial.close` on it does anything, a ready session stays in
the table as it is, every call that starts on it finds it and never fails for want of it, and
it is reported as what it is. -/
theorem session_stays (srv : McpServer) {tr tr' : List ToolLabel} {c c' : ToolConfig}
    (h : Run machine (toolCode srv) tr c) (hfresh : FreshIds tr) {id : String} {s : Session}
    (hfound : c.shared.sessions.lookup id = some s) (hready : s.state = .ready)
    (hs : Steps (toolCode srv) c tr' c')
    (hopen : ∀ t e th, .act t e ∈ tr' → c'.threads t = some th → th.call ≠ .close ⟨id⟩) :
    c'.shared.sessions.lookup id = some s ∧
    ∀ u call th response, .start u call ∈ tr' → c'.threads u = some th →
      th.rest = .ret response →
      (call.sessionId = some id → call ≠ .close ⟨id⟩ → Served response) ∧
        Reported s call response := by
  have hcode := toolCode_orderly srv
  have hquiet : ∀ t e, .act t e ∈ tr' → e.req.touches ≠ some id := by
    intro t e he htouches
    obtain ⟨th, hth, hmem⟩ := Run.thread_of_act (h.append hs) (List.mem_append_right tr he)
    exact hopen t e th he hth (toolCode_touches (Run.started (h.append hs) hth).runs hmem htouches)
  refine ⟨hcode.entry_stays h hs hfresh hfound hready hquiet, ?_⟩
  intro u call th response hstart hth hret
  obtain ⟨hfree, rfl⟩ := started_later hs hstart hth
  have hlists := told_lists h hfresh hfound hready hs hquiet hfree hth
  have hruns : Runs (toolCode srv th.call) th.past (.ret response) :=
    hret ▸ (Run.started (h.append hs) hth).runs
  refine ⟨fun hid hclose => ?_, reported hruns hlists⟩
  obtain rfl := (hcode.tableOk h).key_eq id s hfound
  obtain ⟨port, hport⟩ :=
    Option.isSome_iff_exists.mp (((hcode.tableOk h).port_iff s.id s hfound).mpr hready)
  have hsees : Sees s th.past := fun x hx => hlists _ hx rfl
  exact (toolCode_served srv hport hready hid hclose).returns hruns ()
    (assuming_after hsees.finds)

theorem session_stays_guarded : ∃ (c c' : ToolConfig) (tr' : List ToolLabel) (th : ToolThread),
    Steps (toolCode wordServer) c tr' c' ∧ c'.threads 1 = some th ∧
      th.call = .getSession ⟨firstId⟩ ∧
      c'.shared.sessions.lookup firstId = some guardedSession ∧
      ∀ response, th.rest = .ret response →
        response = .complete (.getSession (snapshot guardedSession)) := by
  obtain ⟨threads, h, hfree⟩ := guarded_run
  have hs : Steps (toolCode wordServer)
      (⟨⟨AList.singleton firstId guardedSession, fun _ => none, (1 : Nat)⟩, threads⟩ : ToolConfig)
      [] _ := .refl
  have hs₁ := hs.snoc (.start 1 (.getSession ⟨firstId⟩) (hfree 1 (by decide)))
  have hanswer : answers ⟨AList.singleton firstId guardedSession, fun _ => none, (1 : Nat)⟩ 1
      (.get firstId) (some guardedSession)
      ⟨AList.singleton firstId guardedSession, fun _ => none, (1 : Nat)⟩ := ⟨rfl, rfl⟩
  have hs₂ := hs₁.snoc (.act 1 rfl hanswer)
  have hfresh : FreshIds guardedTrace := List.nodup_singleton firstId
  have hfound : (AList.singleton firstId guardedSession : Sessions).lookup firstId =
      some guardedSession := rfl
  obtain ⟨hstays, hserved⟩ := session_stays wordServer h hfresh hfound rfl hs₂ (by
    intro t e th he hth hclose
    simp only [List.nil_append, List.cons_append, List.mem_cons, List.not_mem_nil, or_false,
      reduceCtorEq, false_or, Label.act.injEq] at he
    obtain ⟨rfl, rfl⟩ := he
    rw [Config.put_threads_self] at hth
    cases hth
    cases hclose)
  refine ⟨_, _, _, _, hs₂, Config.put_threads_self .., rfl, hstays, fun response hret => ?_⟩
  have hreported := hserved 1 (.getSession ⟨firstId⟩) _ response
    (List.mem_append_left _ (List.mem_append_right _ List.mem_cons_self))
    (Config.put_threads_self ..) hret
  exact hreported.2 rfl

end McpSerial
