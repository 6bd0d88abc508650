import McpSerial.Manager.InFlight

/-! `open` and `close` leave no session behind half changed. -/

namespace McpSerial
open Interaction Interaction.Discipline

variable {env : Environment} {rx : RegexCrate} {args : SessionArgs} {id : String}
  {timeoutMs : Nat} {past : List Ask} {e : Ask}

/-! ## The two calls as trees -/

theorem managerCode_open (env : Environment) (rx : RegexCrate) (args : SessionArgs) :
    managerCode env rx (.open args) =
      if matchesAllowlist env args.portPath then
        .ask (.reserve args) fun
          | .error err => .ret (.error err)
          | .ok id =>
            .ask (.backendOpen args.portPath args.baud) fun result =>
              .ask (.completeOpen id result) fun completed => .ret (completed.map .opened)
      else .ret (.error (.portNotAllowed args.portPath)) := by
  unfold managerCode
  dsimp only [managerOp]
  unfold openWithConsoleAndPolicy
  split
  · refine congrArg (Program.ask (Request.reserve args)) (funext fun reserved => ?_)
    cases reserved with
    | error err => rfl
    | ok id =>
      refine congrArg (Program.ask (Request.backendOpen args.portPath args.baud))
        (funext fun result => ?_)
      refine congrArg (Program.ask (Request.completeOpen id result)) (funext fun completed => ?_)
      cases completed <;> rfl
  · rfl

/-- What `close` does when it could not get the port lock. -/
def rollBack (id : String) (port : Handle) (err : SerialError) : ManagerProgram :=
  .ask (.restoreReady id port) fun _ => .ret (.error err)

theorem managerCode_close (env : Environment) (rx : RegexCrate) (id : String) (timeoutMs : Nat) :
    managerCode env rx (.close id timeoutMs) =
      .ask (.beginClose id) fun
        | .error err => .ret (.error err)
        | .ok none => .ask (.finishClose id) fun _ => .ret (.ok .closed)
        | .ok (some port) =>
          .ask .timeLeft fun
            | false => rollBack id port (.timeout timeoutMs)
            | true =>
              .ask (.lock port .never) fun
                | .ready _ =>
                  .ask (.unlock port) fun _ => .ask (.finishClose id) fun _ => .ret (.ok .closed)
                | .elapsed => rollBack id port (.timeout timeoutMs)
                | .cancelled => rollBack id port .cancelled := by
  refine congrArg (Program.ask (Request.beginClose id)) (funext fun begun => ?_)
  rcases begun with err | (none | port)
  · rfl
  · rfl
  · refine congrArg (Program.ask Request.timeLeft) (funext fun left => ?_)
    cases left with
    | false => rfl
    | true =>
      refine congrArg (Program.ask (Request.lock port .never)) (funext fun locked => ?_)
      cases locked <;> rfl

/-! ## How they return -/

theorem open_asks {r : Request} {next : Response r → ManagerProgram}
    (k : Runs (managerCode env rx (.open args)) past (.ask r next)) :
    r = .reserve args ∨ r = .backendOpen args.portPath args.baud ∨
      ∃ id result, r = .completeOpen id result ∧ ⟨.reserve args, .ok id⟩ ∈ past := by
  rw [managerCode_open] at k
  split at k
  · rcases runs_ask.mp k with ⟨_, hq⟩ | ⟨reserved, past₁, rfl, k₁⟩
    · cases hq
      exact .inl rfl
    · cases reserved with
      | error err => cases (runs_ret.mp k₁).2
      | ok id =>
        rcases runs_ask.mp k₁ with ⟨_, hq⟩ | ⟨result, past₂, rfl, k₂⟩
        · cases hq
          exact .inr (.inl rfl)
        · rcases runs_ask.mp k₂ with ⟨_, hq⟩ | ⟨completed, past₃, rfl, k₃⟩
          · cases hq
            exact .inr (.inr ⟨id, result, rfl, List.mem_cons_self⟩)
          · cases (runs_ret.mp k₃).2
  · cases (runs_ret.mp k).2

/-- A call that has returned by an event did so with the reservation refused or
with its completion. -/
theorem open_returns {es : List Ask} {result : Except SerialError ManagerResult}
    (k : Runs (managerCode env rx (.open args)) es (.ret result)) :
    es = [] ∨
    (∃ err, es = [⟨.reserve args, .error err⟩] ∧ result = .error err) ∨
    (∃ id opened completed,
      es = [⟨.reserve args, .ok id⟩, ⟨.backendOpen args.portPath args.baud, opened⟩,
        ⟨.completeOpen id opened, completed⟩] ∧ result = completed.map .opened) := by
  rw [managerCode_open] at k
  split at k
  · rcases runs_ask.mp k with ⟨_, hq⟩ | ⟨reserved, es₁, rfl, k₁⟩
    · cases hq
    · cases reserved with
      | error err =>
        obtain ⟨rfl, hr⟩ := runs_ret.mp k₁
        cases hr
        exact .inr (.inl ⟨err, rfl, rfl⟩)
      | ok id =>
        rcases runs_ask.mp k₁ with ⟨_, hq⟩ | ⟨opened, es₂, rfl, k₂⟩
        · cases hq
        · rcases runs_ask.mp k₂ with ⟨_, hq⟩ | ⟨completed, es₃, rfl, k₃⟩
          · cases hq
          · obtain ⟨rfl, hr⟩ := runs_ret.mp k₃
            cases hr
            exact .inr (.inr ⟨id, opened, completed, rfl, rfl⟩)
  · exact .inl (runs_ret.mp k).1

theorem rollBack_returns {port : Handle} {err : SerialError} {es : List Ask}
    {result : Except SerialError ManagerResult} (k : Runs (rollBack id port err) es (.ret result)) :
    ∃ x, es = [⟨.restoreReady id port, x⟩] ∧ result = .error err := by
  rcases runs_ask.mp k with ⟨_, hq⟩ | ⟨x, es₁, rfl, k₁⟩
  · cases hq
  · obtain ⟨rfl, hr⟩ := runs_ret.mp k₁
    cases hr
    exact ⟨x, rfl, rfl⟩

/-- The last event of a `close` that has returned: a refusal, a removal or a roll back. -/
theorem close_returns {es : List Ask} {result : Except SerialError ManagerResult}
    (k : Runs (managerCode env rx (.close id timeoutMs)) es (.ret result)) :
    (∃ err, es = [⟨.beginClose id, .error err⟩] ∧ result = .error err) ∨
    (∃ past x, es = past ++ [⟨.finishClose id, x⟩] ∧ result = .ok .closed ∧
      ∀ e ∈ es, ∀ port, e.req ≠ .restoreReady id port) ∨
    (∃ past port err x, es = past ++ [⟨.restoreReady id port, x⟩] ∧
      ⟨.beginClose id, .ok (some port)⟩ ∈ past ∧ result = .error err ∧
      (err = .timeout timeoutMs ∨ err = .cancelled)) := by
  rw [managerCode_close] at k
  rcases runs_ask.mp k with ⟨_, hq⟩ | ⟨begun, es₁, rfl, k₁⟩
  · cases hq
  rcases begun with err | (none | port)
  · obtain ⟨rfl, hr⟩ := runs_ret.mp k₁
    cases hr
    exact .inl ⟨err, rfl, rfl⟩
  · rcases runs_ask.mp k₁ with ⟨_, hq⟩ | ⟨x, es₂, rfl, k₂⟩
    · cases hq
    · obtain ⟨rfl, hr⟩ := runs_ret.mp k₂
      cases hr
      exact .inr (.inl ⟨[⟨.beginClose id, .ok none⟩], x, rfl, rfl, by simp⟩)
  · rcases runs_ask.mp k₁ with ⟨_, hq⟩ | ⟨left, es₂, rfl, k₂⟩
    · cases hq
    cases left with
    -- the deadline has passed before the lock is asked for
    | false =>
      obtain ⟨x, rfl, hr⟩ := rollBack_returns k₂
      exact .inr (.inr ⟨[_, _], port, _, x, rfl, List.mem_cons_self, hr, .inl rfl⟩)
    | true =>
      rcases runs_ask.mp k₂ with ⟨_, hq⟩ | ⟨locked, es₃, rfl, k₃⟩
      · cases hq
      cases locked with
      | elapsed =>
        obtain ⟨x, rfl, hr⟩ := rollBack_returns k₃
        exact .inr (.inr ⟨[_, _, _], port, _, x, rfl, List.mem_cons_self, hr, .inl rfl⟩)
      | cancelled =>
        obtain ⟨x, rfl, hr⟩ := rollBack_returns k₃
        exact .inr (.inr ⟨[_, _, _], port, _, x, rfl, List.mem_cons_self, hr, .inr rfl⟩)
      -- the lock is held, so the session is unlocked and removed
      | ready u =>
        rcases runs_ask.mp k₃ with ⟨_, hq⟩ | ⟨x, es₄, rfl, k₄⟩
        · cases hq
        rcases runs_ask.mp k₄ with ⟨_, hq⟩ | ⟨y, es₅, rfl, k₅⟩
        · cases hq
        obtain ⟨rfl, hr⟩ := runs_ret.mp k₅
        cases hr
        exact .inr (.inl ⟨[_, _, _, _], y, rfl, rfl, by simp⟩)

/-! ## What they leave behind -/

variable {tr : List ManagerLabel} {c c' : ManagerConfig} {t : Nat} {th : ManagerThread}

/-- No `open` and no `close` is in flight. -/
def Quiescent (c : ManagerConfig) : Prop :=
  ∀ t th, c.threads t = some th → th.call.usesPort = false → ∃ result, th.rest = .ret result

theorem in_flight (h : Run machine (managerCode env rx) tr c)
    (hrole : (roles c t).opens ≠ none ∨ (roles c t).closes ≠ none) :
    ∃ th, c.threads t = some th ∧ th.call.usesPort = false ∧ ∀ result, th.rest ≠ .ret result := by
  cases ht : c.threads t with
  | none =>
    have hidle : roles c t = .idle := by simp [roles, Config.track, ht]
    rw [hidle] at hrole
    rcases hrole with hrole | hrole <;> exact absurd rfl hrole
  | some th =>
    refine ⟨th, rfl, ?_, fun result hret => ?_⟩
    · cases huse : th.call.usesPort with
      | false => rfl
      | true =>
        obtain ⟨id, hid⟩ := ManagerCall.sessionId_of_usesPort huse
        have hpast := managerCode_usesPort env rx huse hid (Run.started h ht).runs
        have hwithin := Role.Within.idle.after hpast
        rw [roles, Config.track_some ht] at hrole
        rcases hrole with hrole | hrole
        · exact absurd hwithin.opens hrole
        · exact absurd hwithin.closes hrole
    · have hsettled := (managerCode_orderly env rx).settled h ht hret
      rcases hrole with hrole | hrole
      · exact hrole hsettled.opens
      · exact hrole hsettled.closes

theorem quiescent_ready (h : Run machine (managerCode env rx) tr c) (hq : Quiescent c)
    {s : Session} (hs : c.shared.sessions.lookup id = some s) : s.state = .ready := by
  have hflight := (managerCode_orderly env rx).inFlight h
  have hsettled (f : Role → Option String) (hf : f = Role.opens ∨ f = Role.closes)
      (hcov : Covered f (roles c) id) : False := by
    obtain ⟨t, ht⟩ := hcov
    obtain ⟨th, hth, huse, hrest⟩ := in_flight h (t := t) (by
      rcases hf with rfl | rfl
      · exact .inl (by simp [ht])
      · exact .inr (by simp [ht]))
    obtain ⟨result, hret⟩ := hq t th hth huse
    exact hrest result hret
  cases hstate : s.state with
  | ready => rfl
  | opening => exact (hsettled _ (.inl rfl) (hflight.opening id s hs hstate)).elim
  | closing => exact (hsettled _ (.inr rfl) (hflight.closing id s hs hstate)).elim
  | closed => exact absurd hstate (((managerCode_orderly env rx).tableOk h).not_closed id s hs)

/-- What a step of `open` leaves in the table: nothing but its own entry changes; a
failure leaves no entry, and success the session ready on the port its backend gave. -/
structure OpenLeaves (args : SessionArgs) (th : ManagerThread) (before after : Sessions) :
    Prop where
  frame : ∀ id, ⟨.reserve args, .ok id⟩ ∉ th.past → after.lookup id = before.lookup id
  failed : ∀ err, th.rest = .ret (.error err) →
    ∀ id, ⟨.reserve args, .ok id⟩ ∈ th.past → after.lookup id = none
  opened : ∀ id, th.rest = .ret (.ok (.opened id)) → ∃ port s,
    ⟨.backendOpen args.portPath args.baud, .ok port⟩ ∈ th.past ∧ after.lookup id = some s ∧
      s.state = .ready ∧ s.port = some port

/-- What a step of `close` leaves in the table. A lock that was never got leaves the
session ready on the port it had, if it is still there, and a refusal changes nothing. -/
structure CloseLeaves (id : String) (th : ManagerThread) (before after : Sessions) : Prop where
  closed : th.rest = .ret (.ok .closed) → after.lookup id = none
  timedOut : ∀ ms, th.rest = .ret (.error (.timeout ms)) → ∃ port,
    ⟨.beginClose id, .ok (some port)⟩ ∈ th.past ∧ (after.lookup id = none ∨
      ∃ s, after.lookup id = some s ∧ s.state = .ready ∧ s.port = some port)
  refused : ∀ err, th.rest = .ret (.error err) →
    (err = .sessionNotFound id ∨ ∃ state expected, err = .invalidState id state expected) →
    th.past.length = 1 ∧ after = before

theorem open_leaves (h : Run machine (managerCode env rx) tr c)
    (hstep : Step (managerCode env rx) c (.act t e) c') (ht : c'.threads t = some th)
    (hcall : th.call = .open args) :
    OpenLeaves args th c.shared.sessions c'.shared.sessions := by
  obtain ⟨past, next, hbefore, hpast, hrest⟩ := hstep.thread ht
  have hlast := hstep.getLast?_past ht
  obtain ⟨r, x⟩ := e
  have hanswer := hstep.answers
  have hasks := (Run.started h hbefore).runs
  have hruns := (Run.started (h.snoc hstep) ht).runs
  rw [hcall] at hasks hruns
  constructor
  · intro id hid
    rcases open_asks hasks with rfl | rfl | ⟨id', result, rfl, hres⟩
    · obtain ⟨draws, sessions, hreserve, hshared⟩ := hanswer
      obtain ⟨err, rfl, rfl⟩ | ⟨id', rfl, fresh, free, room, rfl⟩ :=
        Sessions.reserve_cases hreserve
      · rw [hshared]
      · rw [hshared]
        apply AList.lookup_insert_ne
        rintro rfl
        exact hid (by rw [hpast]; simp)
    · cases x with
      | error err => rw [show c'.shared = c.shared from hanswer]
      | ok port => rw [hanswer.2]
    · rw [hanswer.2]
      -- the entry that is completed is the one that this call has reserved
      have hne : id ≠ id' := by
        rintro rfl
        exact hid (by rw [hpast]; exact List.mem_append_left _ hres)
      cases result with
      | error err => exact AList.lookup_erase_ne hne
      | ok port =>
        unfold Sessions.completeOpen
        cases hs : c.shared.sessions.lookup id' with
        | none => rfl
        | some s => exact AList.lookup_insert_ne hne
  · intro err hret id hid
    rw [hret] at hruns
    rcases open_returns hruns with hes | ⟨err', hes, _⟩ | ⟨id', opened, completed, hes, hresult⟩
    · rw [hes] at hid
      cases hid
    · rw [hes] at hid
      cases List.mem_singleton.mp hid
    · rw [hes] at hid hlast
      obtain ⟨rfl, rfl⟩ := Event.mk.inj (Option.some.inj hlast)
      obtain rfl : id = id' := by simpa using hid
      obtain ⟨hx, hshared⟩ := hanswer
      rw [hshared]
      cases opened with
      | error e' => exact AList.lookup_erase ..
      | ok port =>
        cases hs : c.shared.sessions.lookup id with
        | none =>
          simp only [Sessions.completeOpen, hs]
        | some s =>
          -- an entry that is still there is made ready, and then the call does not fail
          simp only [Sessions.completeOpen, hs] at hx
          rw [hx] at hresult
          cases hresult
  · intro id hret
    rw [hret] at hruns
    rcases open_returns hruns with hes | ⟨err', hes, hresult⟩ |
      ⟨id', opened, completed, hes, hresult⟩
    · rw [hes] at hpast
      simp at hpast
    · cases hresult
    · have hmem : (⟨.backendOpen args.portPath args.baud, opened⟩ : Ask) ∈ th.past := by
        rw [hes]
        simp
      rw [hes] at hlast
      obtain ⟨rfl, rfl⟩ := Event.mk.inj (Option.some.inj hlast)
      obtain ⟨hx, hshared⟩ := hanswer
      cases opened with
      | error e' =>
        rw [hx] at hresult
        cases hresult
      | ok port =>
        cases hs : c.shared.sessions.lookup id' with
        | none =>
          simp only [Sessions.completeOpen, hs] at hx
          rw [hx] at hresult
          cases hresult
        | some s =>
          simp only [Sessions.completeOpen, hs] at hx hshared
          rw [hx] at hresult
          cases hresult
          refine ⟨port, s.transitionToReady port, hmem, ?_, rfl, rfl⟩
          rw [hshared]
          exact AList.lookup_insert ..

theorem close_leaves (h : Run machine (managerCode env rx) tr c)
    (hstep : Step (managerCode env rx) c (.act t e) c') (ht : c'.threads t = some th)
    (hcall : th.call = .close id timeoutMs) :
    CloseLeaves id th c.shared.sessions c'.shared.sessions := by
  have hlast := hstep.getLast?_past ht
  have hruns := (Run.started (h.snoc hstep) ht).runs
  rw [hcall] at hruns
  constructor
  · intro hret
    rw [hret] at hruns
    rcases close_returns hruns with ⟨err, _, hresult⟩ | ⟨past', x, hes, _, _⟩ |
      ⟨past', _, _, _, _, _, hresult, _⟩
    · cases hresult
    · rw [hes, List.getLast?_concat] at hlast
      cases hlast
      rw [hstep.answers.2, Sessions.finishClose_eq]
      exact AList.lookup_erase ..
    · cases hresult
  · intro ms hret
    rw [hret] at hruns
    rcases close_returns hruns with ⟨err, hes, hresult⟩ | ⟨past', _, _, hresult, _⟩ |
      ⟨past', port, err, x, hes, hmem, _, _⟩
    · cases hresult
      rw [hes] at hlast
      cases hlast
      -- `beginClose` never times out
      have hx := hstep.answers.1
      unfold Sessions.beginClose at hx
      cases hs : c.shared.sessions.lookup id with
      | none =>
        rw [hs] at hx
        cases hx
      | some s =>
        simp only [hs, Session.beginClose] at hx
        cases hstate : s.state <;> simp [hstate] at hx
    · cases hresult
    · refine ⟨port, by rw [hes]; exact List.mem_append_left _ hmem, ?_⟩
      rw [hes, List.getLast?_concat] at hlast
      cases hlast
      rw [hstep.answers.2]
      dsimp only
      unfold Sessions.restoreReady
      cases hs : c.shared.sessions.lookup id with
      | none => exact .inl hs
      | some s => exact .inr ⟨s.restoreReady port, AList.lookup_insert .., rfl, rfl⟩
  · intro err hret hrefused
    rw [hret] at hruns
    rcases close_returns hruns with ⟨err', hes, hresult⟩ | ⟨past', _, _, hresult, _⟩ |
      ⟨past', _, _, _, _, _, hresult, htimeout⟩
    · cases hresult
      refine ⟨by rw [hes]; rfl, ?_⟩
      rw [hes] at hlast
      cases hlast
      obtain ⟨hx, hshared⟩ := hstep.answers
      rw [hshared]
      obtain ⟨e', he'⟩ | ⟨s, _, _, he'⟩ := c.shared.sessions.beginClose_cases id
      · rw [he']
      · rw [he'] at hx
        cases hx
    · cases hresult
    · cases hresult
      rcases htimeout with rfl | rfl <;> rcases hrefused with h' | ⟨_, _, h'⟩ <;> cases h'

/-- However calls interleave, a session is left half changed only while an `open` or
a `close` is in flight, and each of them leaves the table as it says when it returns. -/
theorem no_leaked_session (env : Environment) (rx : RegexCrate) {tr : List ManagerLabel}
    {c : ManagerConfig} (h : Run machine (managerCode env rx) tr c) :
    (Quiescent c → ∀ id s, c.shared.sessions.lookup id = some s → s.state = .ready) ∧
    ∀ t e c' th, Step (managerCode env rx) c (.act t e) c' → c'.threads t = some th →
      (∀ args, th.call = .open args →
        OpenLeaves args th c.shared.sessions c'.shared.sessions) ∧
      (∀ id timeoutMs, th.call = .close id timeoutMs →
        CloseLeaves id th c.shared.sessions c'.shared.sessions) := by
  constructor
  · exact fun hq id s hs => quiescent_ready h hq hs
  · intro t e c' th hstep ht
    exact ⟨fun args hcall => open_leaves h hstep ht hcall,
      fun id timeoutMs hcall => close_leaves h hstep ht hcall⟩

/-- The first session is closed while another is opened; then nothing is in flight. -/
theorem no_leaked_session_two : ∃ (c c' : ManagerConfig) (th : ManagerThread) (s : Session),
    c'.threads 2 = some th ∧ th.rest = .ret (.ok .closed) ∧
    CloseLeaves firstId th c.shared.sessions c'.shared.sessions ∧
    c'.shared.sessions.lookup secondId = some s ∧ s.state = .ready := by
  obtain ⟨threads, h₀, hfree, th₀, ht₀, hret₀⟩ := first_run
  have h₁ := h₀.start 1 (.open secondArgs) (hfree 1 (by decide))
  have h₂ := h₁.act 1 (r := .reserve secondArgs) (.ok secondId) rfl ⟨twoDraws, _, rfl, rfl⟩
  have h₃ := h₂.start 2 (.close firstId 0) (by simpa [Config.put] using hfree 2 (by decide))
  have h₄ := h₃.act 2 (r := .beginClose firstId) (.ok (some (0 : Nat))) rfl ⟨rfl, rfl⟩
  have h₅ := h₄.act 1 (r := .backendOpen secondArgs.portPath defaultBaud) (.ok (1 : Nat)) rfl
    ⟨rfl, rfl⟩
  have h₆ := h₅.act 1 (r := .completeOpen secondId (.ok (1 : Nat))) (.ok secondId) rfl ⟨rfl, rfl⟩
  have h₇ := h₆.act 2 (r := .timeLeft) true rfl rfl
  have h₈ := h₇.act 2 (r := .lock (0 : Nat) .never) (.ready ()) rfl ⟨rfl, rfl⟩
  have h₉ := h₈.act 2 (r := .unlock (0 : Nat)) () rfl rfl
  have h₁₀ := h₉.act 2 (r := .finishClose firstId) true rfl ⟨rfl, rfl⟩
  obtain ⟨c, hinit, hlast⟩ := Steps.split h₁₀
  have hleaves := ((no_leaked_session defaultEnv noRegex hinit).2 2 _ _ _ hlast.single rfl).2
    firstId 0 rfl
  refine ⟨c, _, _, _, rfl, rfl, hleaves, rfl,
    (no_leaked_session defaultEnv noRegex h₁₀).1 ?_ secondId _ rfl⟩
  intro t th ht _
  by_cases htwo : t = 2
  · subst htwo
    cases ht
    exact ⟨_, rfl⟩
  by_cases hone : t = 1
  · subst hone
    cases ht
    exact ⟨_, rfl⟩
  by_cases hzero : t = 0
  · subst hzero
    cases ht.symm.trans ht₀
    exact ⟨_, hret₀⟩
  · have hnone : threads t = none := hfree t hzero
    simp [Config.put, Function.update_of_ne, htwo, hone, hnone] at ht

end McpSerial
