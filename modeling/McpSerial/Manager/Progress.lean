import McpSerial.Interaction.Progress
import McpSerial.Manager.Ownership
import McpSerial.Mcp.Calls

/-! No deadlock: a mutex is held by a call in flight that waits for no other, and every
state can be driven to one where all calls have returned. -/

namespace McpSerial
open Interaction Interaction.Discipline

def givenUp : Ask → Bool
  | ⟨.lock .., .elapsed⟩ | ⟨.lock .., .cancelled⟩ => true
  | _ => false

namespace Role

def mayLock : Role → Bool
  | idle | closing .. => true
  | _ => false

theorem mayLock_of_lock {ρ : Role} {port : Handle} {token : Token}
    (h : ρ.admits (.lock port token)) : ρ.mayLock = true := by
  rcases h with rfl | ⟨id, rfl⟩ <;> rfl

theorem locked_eq_none {ρ : Role} (h : ρ.mayLock = true) : ρ.locked = none := by
  cases ρ <;> first | rfl | cases h

theorem Settled.locked {ρ : Role} (h : ρ.Settled) : ρ.locked = none := by
  rcases h with rfl | rfl <;> rfl

end Role

section Moves

variable {t : Nat} {σ σ' : ManagerState} {ρs : Nat → Role} {ρ ρ' : Role} {e : Ask}

theorem Move.lock_exact (m : Move t σ ρ e σ' ρ') :
    (σ'.owner = σ.owner ∧ ρ'.locked = ρ.locked) ∨
    (∃ port, σ'.owner = Function.update σ.owner port (some t) ∧ ρ.locked = none ∧
      ρ'.locked = some port) ∨
    (∃ port, σ'.owner = Function.update σ.owner port none ∧ ρ.locked = some port ∧
      ρ'.locked = none) := by
  cases m with
  | drain | hold => exact .inr (.inl ⟨_, rfl, rfl, rfl⟩)
  | drained => exact .inr (.inr ⟨_, rfl, rfl, rfl⟩)
  | release stands =>
    rcases stands with rfl | ⟨id, rfl⟩
    · exact .inr (.inr ⟨_, rfl, rfl, rfl⟩)
    · exact .inr (.inr ⟨_, rfl, rfl, rfl⟩)
  | finish stands => rcases stands with rfl | ⟨port, rfl⟩ <;> exact .inl ⟨rfl, rfl⟩
  | _ => exact .inl ⟨rfl, rfl⟩

/-- Who owns a mutex has locked it. -/
def Held (σ : ManagerState) (ρs : Nat → Role) : Prop :=
  ∀ port t, σ.owner port = some t → (ρs t).locked = some port

theorem Held.move (h : Held σ ρs) (hρ : ρs t = ρ) (m : Move t σ ρ e σ' ρ') :
    Held σ' (Function.update ρs t ρ') := by
  subst hρ
  intro port u hu
  rcases m.lock_exact with ⟨howner, hlocked⟩ | ⟨port', howner, hnone, hlocked⟩ |
    ⟨port', howner, hlocked, hnone⟩
  · rw [howner] at hu
    by_cases hut : u = t
    · subst hut
      rw [Function.update_self, hlocked]
      exact h port u hu
    · rw [Function.update_of_ne hut]
      exact h port u hu
  · rw [howner] at hu
    by_cases hport : port = port'
    · subst hport
      rw [Function.update_self] at hu
      cases hu
      rw [Function.update_self]
      exact hlocked
    · rw [Function.update_of_ne hport] at hu
      -- who locks holds no other mutex
      have hut : u ≠ t := by
        rintro rfl
        rw [h port u hu] at hnone
        cases hnone
      rw [Function.update_of_ne hut]
      exact h port u hu
  · rw [howner] at hu
    have hport : port ≠ port' := by
      rintro rfl
      rw [Function.update_self] at hu
      cases hu
    rw [Function.update_of_ne hport] at hu
    have hut : u ≠ t := by
      rintro rfl
      rw [h port u hu] at hlocked
      exact hport (Option.some.inj hlocked)
    rw [Function.update_of_ne hut]
    exact h port u hu

theorem Move.mayLock (m : Move t σ ρ e σ' ρ') (h : ρ'.mayLock = true) :
    ρ.mayLock = true ∧ σ'.owner = σ.owner := by
  cases m with
  | quiet => exact ⟨h, rfl⟩
  | begin => exact ⟨rfl, rfl⟩
  | _ => cases h

end Moves

theorem Sessions.reserve_answers (sessions : Sessions) (args : SessionArgs) (e : String) :
    ∃ x sessions', sessions.reserve args [.error e] = some (x, sessions') := by
  unfold reserve
  split
  · exact ⟨_, _, rfl⟩
  · split
    · exact ⟨_, _, rfl⟩
    · exact ⟨_, _, rfl⟩

theorem answers_exist (σ : ManagerState) (t : Nat) (r : Request)
    (hfree : ∀ port token, r = .lock port token → σ.owner port = none) :
    ∃ x σ', answers σ t r x σ' ∧ givenUp ⟨r, x⟩ = false := by
  cases r with
  | reserve args =>
    obtain ⟨x, sessions', h⟩ := σ.sessions.reserve_answers args "entropy"
    exact ⟨x, _, ⟨_, sessions', h, rfl⟩, rfl⟩
  | backendOpen path baud => exact ⟨.ok σ.nextHandle, _, ⟨rfl, rfl⟩, rfl⟩
  | completeOpen | beginClose | restoreReady | finishClose => exact ⟨_, _, ⟨rfl, rfl⟩, rfl⟩
  | get id => exact ⟨_, _, ⟨rfl, rfl⟩, rfl⟩
  | values => exact ⟨_, _, ⟨.refl _, rfl⟩, rfl⟩
  | lock port token => exact ⟨.ready (), _, ⟨hfree port token rfl, rfl⟩, rfl⟩
  | unlock port => exact ⟨(), _, rfl, rfl⟩
  | timeLeft => exact ⟨true, σ, rfl, rfl⟩
  | turns | elapsedMs => exact ⟨(0 : Nat), σ, rfl, rfl⟩
  | isCancelled token =>
    cases token with
    | never | call => exact ⟨false, σ, ⟨nofun, rfl⟩, rfl⟩
    | cancelled => exact ⟨true, σ, ⟨nofun, rfl⟩, rfl⟩
  | cancelPicked token => exact ⟨false, σ, ⟨nofun, rfl⟩, rfl⟩
  | write port data token => exact ⟨.elapsed, σ, ⟨trivial, rfl⟩, rfl⟩
  | flush port token => exact ⟨.elapsed, σ, ⟨trivial, rfl⟩, rfl⟩
  | read port max token => exact ⟨.elapsed, σ, ⟨trivial, rfl⟩, rfl⟩
  | availablePorts => exact ⟨.ok [], σ, rfl, rfl⟩
  | canonicalize path => exact ⟨none, σ, rfl, rfl⟩

section Runs

variable {κ α : Type} {code : κ → Program Request Response α}
  {tr : List (Label Request Response κ)} {c : Config machine κ α} {t : Nat}

theorem Orderly.held (hcode : Orderly code) (h : Run machine code tr c) :
    Held c.shared (roles c) :=
  hcode.invariant (I := fun _ σ ρs => Held σ ρs) nofun (fun _ _ _ _ _ hσ => hσ)
    (fun _ _ _ _ _ _ _ _ hσ hρ m => hσ.move hρ m) h

theorem Orderly.busy_of_locked (hcode : Orderly code) (h : Run machine code tr c) {port : Handle}
    (hlocked : (roles c t).locked = some port) : c.Busy t := by
  cases ht : c.threads t with
  | none =>
    simp only [roles, Config.track, ht] at hlocked
    cases hlocked
  | some th =>
    by_contra hbusy
    obtain ⟨a, ha⟩ := c.returned_of_not_busy hbusy ht
    rw [(hcode.settled h ht ha).locked] at hlocked
    cases hlocked

def Unhindered (code : κ → Program Request Response α) (t : Nat) (c : Config machine κ α) : Prop :=
  (∃ tr, Run machine code tr c) ∧
    ((roles c t).mayLock = true → ∀ port, c.shared.owner port = none)

theorem Orderly.answered (hcode : Orderly code) {call : κ} {past : List Ask} {r : Request}
    {next : Response r → Program Request Response α} (h : Unhindered code t c)
    (ht : c.threads t = some ⟨call, past, .ask r next⟩) :
    ∃ x σ', answers c.shared t r x σ' ∧ givenUp ⟨r, x⟩ = false ∧
      Unhindered code t (c.put σ' t ⟨call, past ++ [⟨r, x⟩], next x⟩) := by
  obtain ⟨⟨tr, hrun⟩, hfree⟩ := h
  have hlock : ∀ port token, r = .lock port token → c.shared.owner port = none := by
    rintro port token rfl
    have hadmits : (roles c t).admits (.lock port token) := by
      rw [roles, Config.track_some ht]
      exact (hcode call).asks (Run.started hrun ht).runs
    exact hfree (Role.mayLock_of_lock hadmits) port
  obtain ⟨x, σ', hanswer, hgood⟩ := answers_exist c.shared t r hlock
  have hstep : Step code c (.act t ⟨r, x⟩) _ := .act t ht hanswer
  obtain ⟨ρ', hmove, hroles⟩ := hcode.move hrun hstep
  refine ⟨x, σ', hanswer, hgood, ⟨_, hrun.snoc hstep⟩, fun hmay port => ?_⟩
  rw [hroles, Function.update_self] at hmay
  obtain ⟨hmay', howner⟩ := hmove.mayLock hmay
  rw [howner]
  exact hfree hmay' port

/-- The rest of a call, without giving up a wait for a mutex. -/
abbrev Patient (code : κ → Program Request Response α) (t : Nat) (c : Config machine κ α)
    (tr : List (Label Request Response κ)) (c' : Config machine κ α) : Prop :=
  Finishes code (fun e => givenUp e = false) t c tr c'

theorem Orderly.finishes (hcode : Orderly code) (h : Unhindered code t c)
    (ht : c.threads t ≠ none) :
    ∃ tr' c', Patient code t c tr' c' ∧ ∃ tr'', Run machine code tr'' c' := by
  obtain ⟨th, hth⟩ := Option.ne_none_iff_exists'.mp ht
  have hfinish : ∃ tr' c', Patient code t c tr' c' ∧ Unhindered code t c' :=
    finishes_of_answered (fun _ _ _ _ _ hc hask => hcode.answered hc hask) h hth
  obtain ⟨tr', c', hfin, hrun, _⟩ := hfinish
  exact ⟨tr', c', hfin, hrun⟩

/-- While calls are in flight one of them can be run to its return: whoever has a mutex,
or anyone when nobody has. -/
theorem Orderly.turn (hcode : Orderly code) (h : Run machine code tr c) (hbusy : ∃ t, c.Busy t) :
    ∃ t tr' c', c.Busy t ∧ Patient code t c tr' c' ∧ ∃ tr'', Run machine code tr'' c' := by
  by_cases hany : ∃ u port, (roles c u).locked = some port
  · obtain ⟨u, port, hlocked⟩ := hany
    have hu := hcode.busy_of_locked h hlocked
    have hown : Unhindered code u c := by
      refine ⟨⟨tr, h⟩, fun hmay => ?_⟩
      rw [Role.locked_eq_none hmay] at hlocked
      cases hlocked
    obtain ⟨tr', c', hfin, hrun⟩ := hcode.finishes hown hu.started
    exact ⟨u, tr', c', hu, hfin, hrun⟩
  · obtain ⟨t, ht⟩ := hbusy
    have hfree : ∀ port, c.shared.owner port = none := by
      intro port
      cases howner : c.shared.owner port with
      | none => rfl
      | some u => exact absurd ⟨u, port, hcode.held h port u howner⟩ hany
    obtain ⟨tr', c', hfin, hrun⟩ := hcode.finishes ⟨⟨tr, h⟩, fun _ => hfree⟩ ht.started
    exact ⟨t, tr', c', ht, hfin, hrun⟩

theorem Orderly.drains (hcode : Orderly code) (h : Run machine code tr c) :
    ∃ tr' c', Steps code c tr' c' ∧
      (∀ l ∈ tr', ∃ t e, l = .act t e ∧ givenUp e = false) ∧
      (∀ t th, c'.threads t = some th → ∃ a, th.rest = .ret a) ∧
      ∀ port, c'.shared.owner port = none := by
  obtain ⟨started, hstarted⟩ := Run.finitely_many h
  obtain ⟨tr', c', hsteps, hgood, ⟨tr'', hrun⟩, hquiet⟩ :=
    finish_all (I := fun c => ∃ tr, Run machine code tr c)
      (fun c ⟨tr, h⟩ hbusy => hcode.turn h hbusy) ⟨tr, h⟩ fun t ht => hstarted t ht.started
  refine ⟨tr', c', hsteps, hgood, fun t th ht => c'.returned_of_not_busy (hquiet t) ht, ?_⟩
  intro port
  cases howner : c'.shared.owner port with
  | none => rfl
  | some u => exact absurd (hcode.busy_of_locked hrun (hcode.held hrun port u howner)) (hquiet u)

end Runs

/-! ## The server -/

/-- Whatever state the calls have reached, a locked mutex has a call in flight for an owner
that waits for no mutex itself, and the calls in flight can all be answered until they
return, without anybody giving up a wait for a mutex. -/
theorem no_deadlock (srv : McpServer) {tr : List ToolLabel} {c : ToolConfig}
    (h : Run machine (toolCode srv) tr c) :
    (∀ port t, c.shared.owner port = some t → c.Busy t ∧ ∀ e c' port' token,
      Step (toolCode srv) c (.act t e) c' → e.req ≠ .lock port' token) ∧
    ∃ tr' c', Steps (toolCode srv) c tr' c' ∧
      (∀ l ∈ tr', ∃ t e, l = .act t e ∧ givenUp e = false) ∧
      (∀ t th, c'.threads t = some th → ∃ response, th.rest = .ret response) ∧
      ∀ port, c'.shared.owner port = none := by
  have hcode := toolCode_orderly srv
  refine ⟨fun port t howner => ?_, hcode.drains h⟩
  have hlocked := hcode.held h port t howner
  refine ⟨hcode.busy_of_locked h hlocked, ?_⟩
  rintro ⟨r, x⟩ c' port' token hstep rfl
  have hadmits : (roles c t).admits (.lock port' token) := Run.admits hcode h hstep
  rw [Role.locked_eq_none (Role.mayLock_of_lock hadmits)] at hlocked
  cases hlocked

/-- The `exec` that will break off has the lock. -/
theorem no_deadlock_broken_off : ∃ c : ToolConfig,
    Run machine (toolCode wordServer) (brokenOffTrace.take 12) c ∧
    c.shared.owner (0 : Nat) = some 1 ∧ c.Busy 1 ∧ ∃ tr' c',
      Steps (toolCode wordServer) c tr' c' ∧
      (∀ l ∈ tr', ∃ t e, l = .act t e ∧ givenUp e = false) ∧
      (∀ t th, c'.threads t = some th → ∃ response, th.rest = .ret response) ∧
      ∀ port, c'.shared.owner port = none := by
  obtain ⟨threads, h₀, hfree⟩ := guarded_run
  have h₁ := h₀.start 1 (.exec (execParams "re") plainContext none) (hfree 1 (by decide))
  have h₂ := h₁.act 1 (r := .get firstId) (some guardedSession) rfl ⟨rfl, rfl⟩
  have h₃ := h₂.act 1 (r := .get firstId) (some guardedSession) rfl ⟨rfl, rfl⟩
  have h₄ := h₃.act 1 (r := .get firstId) (some guardedSession) rfl ⟨rfl, rfl⟩
  have h₅ := h₄.act 1 (r := .get firstId) (some guardedSession) rfl ⟨rfl, rfl⟩
  have h₆ := h₅.act 1 (r := .isCancelled .call) false rfl ⟨nofun, rfl⟩
  have h₇ := h₆.act 1 (r := .timeLeft) true rfl rfl
  have h₈ := h₇.act 1 (r := .lock (0 : Nat) .call) (.ready ()) rfl ⟨rfl, rfl⟩
  obtain ⟨hholder, hdrains⟩ := no_deadlock wordServer h₈
  exact ⟨_, h₈, rfl, (hholder (0 : Nat) 1 rfl).1, hdrains⟩

end McpSerial
