import McpSerial.Manager.Lifecycle

/-! What one step of a run can do to the manager. Every invariant of the manager is
derived from the moves listed here. -/

namespace McpSerial
open Interaction Interaction.Discipline

/-! ## Critical sections by cases -/

theorem Sessions.any_portPath_eq_false {sessions : Sessions} {path : String}
    (h : ¬(sessions.values.any fun s => s.portPath = path) = true) {id : String} {s : Session}
    (hs : sessions.lookup id = some s) : s.portPath ≠ path := by
  intro hpath
  apply h
  rw [List.any_eq_true]
  have hmem : Sigma.mk id s ∈ sessions.entries := AList.mem_lookup_iff.mp hs
  exact ⟨s, List.mem_map_of_mem hmem, by simpa using hpath⟩

theorem Sessions.nextSessionId_fresh {sessions : Sessions} {id : String}
    {draws : List (Except String (Vector UInt8 16))}
    (h : sessions.nextSessionId draws = some (.ok id)) : id ∉ sessions := by
  induction draws with
  | nil => cases h
  | cons draw draws ih =>
    unfold nextSessionId at h
    split at h
    · cases h
    next id' _ =>
      split at h
      · exact ih h
      next hmem =>
        cases h
        exact hmem

theorem Sessions.reserve_cases {sessions sessions' : Sessions} {args : SessionArgs}
    {draws : List (Except String (Vector UInt8 16))} {x : Except SerialError String}
    (h : sessions.reserve args draws = some (x, sessions')) :
    (∃ e, x = .error e ∧ sessions' = sessions) ∨
    (∃ id, x = .ok id ∧ id ∉ sessions ∧
      (∀ id' s, sessions.lookup id' = some s → s.portPath ≠ args.portPath) ∧
      sessions.keys.length < maxSessions ∧
      sessions' = sessions.insert id (Session.opening id args)) := by
  unfold reserve at h
  split at h
  · cases h
    exact .inl ⟨_, rfl, rfl⟩
  next hfree =>
    split at h
    · cases h
      exact .inl ⟨_, rfl, rfl⟩
    next hroom =>
      obtain ⟨generated, hgen, hx⟩ := Option.map_eq_some_iff.mp h
      cases generated with
      | error e =>
        cases hx
        exact .inl ⟨e, rfl, rfl⟩
      | ok id =>
        cases hx
        exact .inr ⟨id, rfl, nextSessionId_fresh hgen,
          fun id' s hs => any_portPath_eq_false hfree hs, Nat.lt_of_not_le hroom, rfl⟩

theorem Sessions.erase_insert (sessions : Sessions) (id : String) (s : Session) :
    (sessions.insert id s).erase id = sessions.erase id := by
  apply AList.ext
  show List.kerase id (List.kinsert id s sessions.entries) = List.kerase id sessions.entries
  rw [List.kinsert_def]
  exact List.kerase_cons_eq rfl

/-- Closing ends with the session gone, whatever state it was in. -/
theorem Sessions.finishClose_eq (sessions : Sessions) (id : String) :
    sessions.finishClose id = sessions.erase id := by
  unfold finishClose
  split
  · exact erase_insert ..
  · rfl

def Session.toClosing (s : Session) : Session := { s with state := .closing, port := none }

theorem Sessions.beginClose_cases (sessions : Sessions) (id : String) :
    (∃ e, sessions.beginClose id = (.error e, sessions)) ∨
    (∃ s, sessions.lookup id = some s ∧ (s.state = .ready ∨ s.state = .opening) ∧
      sessions.beginClose id = (.ok s.port, sessions.insert id s.toClosing)) := by
  unfold beginClose
  cases hs : sessions.lookup id with
  | none => exact .inl ⟨_, rfl⟩
  | some s =>
    dsimp only
    unfold Session.beginClose
    cases hstate : s.state with
    | ready => exact .inr ⟨s, rfl, .inl hstate, rfl⟩
    | opening => exact .inr ⟨s, rfl, .inr hstate, rfl⟩
    | closing => exact .inl ⟨_, rfl⟩
    | closed => exact .inl ⟨_, rfl⟩

/-! ## Moves -/

def quietAnswer : (r : Request) → Response r → Bool
  | .reserve _, .ok _ | .backendOpen .., _ | .completeOpen .., _ | .beginClose _, .ok _
  | .restoreReady .., _ | .finishClose _, _ | .lock .., .ready _ | .unlock _, _
  | .write .., _ | .flush .., _ | .read .., _ => false
  | _, _ => true

/-- `Move t σ ρ e σ' ρ'`: thread `t`, standing at `ρ`, is answered by `e`. -/
inductive Move (t : Nat) (σ : ManagerState) : Role → Ask → ManagerState → Role → Prop where
  | quiet (ρ : Role) (e : Ask) (silent : quietAnswer e.req e.resp) : Move t σ ρ e σ ρ
  | reserve {args : SessionArgs} {id : String} (fresh : id ∉ σ.sessions)
      (free : ∀ id' s, σ.sessions.lookup id' = some s → s.portPath ≠ args.portPath)
      (room : σ.sessions.keys.length < maxSessions) :
      Move t σ .idle ⟨.reserve args, .ok id⟩
        { σ with sessions := σ.sessions.insert id (Session.opening id args) } (.opening id)
  | connect {id path : String} {baud : Nat} :
      Move t σ (.opening id) ⟨.backendOpen path baud, .ok σ.nextHandle⟩
        { σ with nextHandle := σ.nextHandle + 1 } (.opened id (.ok σ.nextHandle))
  | refuse {id path : String} {baud : Nat} {e : SerialError} :
      Move t σ (.opening id) ⟨.backendOpen path baud, .error e⟩ σ (.opened id (.error e))
  | ready {id : String} {port : Handle} {s : Session} (found : σ.sessions.lookup id = some s) :
      Move t σ (.opened id (.ok port)) ⟨.completeOpen id (.ok port), .ok id⟩
        { σ with sessions := σ.sessions.insert id (s.transitionToReady port) } .done
  | orphan {id : String} {port : Handle} (absent : σ.sessions.lookup id = none) :
      Move t σ (.opened id (.ok port))
        ⟨.completeOpen id (.ok port), .error (.sessionNotFound id)⟩ σ .done
  | abandon {id : String} {e : SerialError} :
      Move t σ (.opened id (.error e)) ⟨.completeOpen id (.error e), .error e⟩
        { σ with sessions := σ.sessions.erase id } .done
  | begin {id : String} {s : Session} (found : σ.sessions.lookup id = some s)
      (live : s.state = .ready ∨ s.state = .opening) :
      Move t σ .idle ⟨.beginClose id, .ok s.port⟩
        { σ with sessions := σ.sessions.insert id s.toClosing } (.closing id s.port)
  | drain {id : String} {port : Handle} {token : Token} (free : σ.owner port = none) :
      Move t σ (.closing id (some port)) ⟨.lock port token, .ready ()⟩
        { σ with owner := Function.update σ.owner port (some t) } (.draining id port)
  | drained {id : String} {port : Handle} :
      Move t σ (.draining id port) ⟨.unlock port, ()⟩
        { σ with owner := Function.update σ.owner port none } (.drained id port)
  | restore {id : String} {port : Handle} {s : Session} (found : σ.sessions.lookup id = some s) :
      Move t σ (.closing id (some port)) ⟨.restoreReady id port, true⟩
        { σ with sessions := σ.sessions.insert id (s.restoreReady port) } .done
  | vanished {id : String} {port : Handle} (absent : σ.sessions.lookup id = none) :
      Move t σ (.closing id (some port)) ⟨.restoreReady id port, false⟩ σ .done
  | finish {ρ : Role} {id : String} (stands : ρ = .closing id none ∨ ∃ port, ρ = .drained id port) :
      Move t σ ρ ⟨.finishClose id, (σ.sessions.lookup id).isSome⟩
        { σ with sessions := σ.sessions.erase id } .done
  | hold {port : Handle} {token : Token} (free : σ.owner port = none) :
      Move t σ .idle ⟨.lock port token, .ready ()⟩
        { σ with owner := Function.update σ.owner port (some t) } (.holding port)
  | check {id : String} {port : Handle} {s : Session} (found : σ.sessions.lookup id = some s)
      (hport : s.port = some port) (hready : s.state = .ready) :
      Move t σ (.holding port) ⟨.get id, some s⟩ σ (.active id port)
  | io {id : String} {port : Handle} {e : Ask} (uses : e.req.ioPort = some port) :
      Move t σ (.active id port) e σ (.active id port)
  | release {ρ : Role} {port : Handle} (stands : ρ = .holding port ∨ ∃ id, ρ = .active id port) :
      Move t σ ρ ⟨.unlock port, ()⟩
        { σ with owner := Function.update σ.owner port none } .done

theorem move_of_answers {t : Nat} {σ σ' : ManagerState} {ρ : Role} {r : Request} {x : Response r}
    (h : ρ.admits r) (k : answers σ t r x σ') : Move t σ ρ ⟨r, x⟩ σ' (ρ.advance r x) := by
  cases r with
  | reserve args =>
    obtain rfl : ρ = .idle := h
    obtain ⟨draws, sessions, hres, rfl⟩ := k
    obtain ⟨e, rfl, rfl⟩ | ⟨id, rfl, fresh, free, room, rfl⟩ := Sessions.reserve_cases hres
    · exact .quiet _ _ rfl
    · exact .reserve fresh free room
  | backendOpen path baud =>
    obtain ⟨id, rfl⟩ := h
    cases x with
    | error e =>
      obtain rfl := k
      exact .refuse
    | ok port =>
      obtain ⟨rfl, rfl⟩ := k
      exact .connect
  | completeOpen id result =>
    obtain rfl : ρ = .opened id result := h
    obtain ⟨rfl, rfl⟩ := k
    cases result with
    | error e => exact .abandon
    | ok port =>
      cases hs : σ.sessions.lookup id with
      | none =>
        simp only [Sessions.completeOpen, hs]
        exact .orphan hs
      | some s =>
        simp only [Sessions.completeOpen, hs]
        exact .ready hs
  | beginClose id =>
    obtain rfl : ρ = .idle := h
    obtain ⟨rfl, rfl⟩ := k
    obtain ⟨e, he⟩ | ⟨s, hs, live, he⟩ := σ.sessions.beginClose_cases id
    · rw [he]
      exact .quiet _ _ rfl
    · rw [he]
      exact .begin hs live
  | restoreReady id port =>
    obtain rfl : ρ = .closing id (some port) := h
    obtain ⟨rfl, rfl⟩ := k
    cases hs : σ.sessions.lookup id with
    | none =>
      simp only [Sessions.restoreReady, hs]
      exact .vanished hs
    | some s =>
      simp only [Sessions.restoreReady, hs]
      exact .restore hs
  | finishClose id =>
    obtain ⟨rfl, rfl⟩ := k
    rw [Sessions.finishClose_eq]
    exact .finish h
  | get id =>
    obtain ⟨rfl, rfl⟩ := k
    cases hs : σ'.sessions.lookup id with
    | none => exact .quiet _ _ rfl
    | some s =>
      cases ρ with
      | holding port =>
        -- only a thread that holds the mutex advances, and only if the session is ready on its port
        by_cases hx : s.port = some port ∧ s.state = .ready
        · rw [Role.advance_checked hx.1 hx.2]
          exact .check hs hx.1 hx.2
        · rw [Role.advance_stale hx]
          exact .quiet _ _ rfl
      | _ => exact .quiet _ _ rfl
  | lock port token =>
    cases x with
    | ready _ =>
      obtain ⟨free, rfl⟩ := k
      -- a call on the session locks first, a `close` after `beginClose`
      obtain rfl | ⟨id, rfl⟩ := h
      · exact .hold free
      · exact .drain free
    | elapsed =>
      obtain ⟨_, rfl⟩ := k
      exact .quiet _ _ rfl
    | cancelled =>
      obtain ⟨_, rfl⟩ := k
      exact .quiet _ _ rfl
  | unlock port =>
    obtain rfl := k
    obtain ⟨id, rfl⟩ | h := h
    · exact .drained
    · obtain rfl | ⟨id, rfl⟩ := h
      · exact .release (.inl rfl)
      · exact .release (.inr ⟨id, rfl⟩)
  | write | flush | read =>
    obtain ⟨id, rfl⟩ := h
    obtain ⟨_, rfl⟩ := k
    exact .io rfl
  | values | isCancelled | cancelPicked =>
    obtain ⟨_, rfl⟩ := k
    exact .quiet _ _ rfl
  | timeLeft | turns | elapsedMs | availablePorts | canonicalize =>
    obtain rfl := k
    exact .quiet _ _ rfl

/-! ## Runs -/

section Runs

variable {κ α : Type} {code : κ → Program Request Response α}
  {tr : List (Label Request Response κ)} {c c' : Config machine κ α} {t : Nat}

/-- Every call follows the lifecycle from idle and returns settled. -/
def Orderly (code : κ → Program Request Response α) : Prop :=
  ∀ call, lifecycle.Follows .idle (code call) fun ρ _ => Role.Settled ρ

def roles (c : Config machine κ α) : Nat → Role := c.track lifecycle .idle

theorem Orderly.move (hcode : Orderly code) (h : Run machine code tr c) {e : Ask}
    (hstep : Step code c (.act t e) c') :
    ∃ ρ', Move t c.shared (roles c t) e c'.shared ρ' ∧
      roles c' = Function.update (roles c) t ρ' := by
  obtain ⟨r, x⟩ := e
  refine ⟨_, move_of_answers ?_ hstep.answers, hstep.track_act⟩
  exact Run.admits hcode h hstep

/-- The rule for an invariant of the table, the mutexes and the roles along a trace. -/
theorem Orderly.invariant (hcode : Orderly code)
    {I : List (Label Request Response κ) → ManagerState → (Nat → Role) → Prop}
    (init : I [] .init fun _ => .idle)
    (start : ∀ tr σ ρs t call, I tr σ ρs → I (tr ++ [.start t call]) σ ρs)
    (move : ∀ tr σ ρs t ρ e σ' ρ', I tr σ ρs → ρs t = ρ → Move t σ ρ e σ' ρ' →
      I (tr ++ [.act t e]) σ' (Function.update ρs t ρ'))
    (h : Run machine code tr c) : I tr c.shared (roles c) := by
  induction h with
  | refl => exact init
  | @snoc tr c' c'' l hrun last ih =>
    cases l with
    | start t call =>
      have hroles : roles c'' = roles c' := funext fun u => last.track_start u
      rw [hroles]
      cases last
      exact start tr _ _ t call ih
    | act t e =>
      obtain ⟨ρ', hmove, hroles⟩ := hcode.move hrun last
      rw [hroles]
      exact move tr _ _ t _ e _ ρ' ih rfl hmove

theorem Orderly.settled (hcode : Orderly code) (h : Run machine code tr c)
    {th : Thread Request Response κ α} (ht : c.threads t = some th) {a : α}
    (ha : th.rest = .ret a) : (roles c t).Settled :=
  Run.returned hcode h ht ha

end Runs
end McpSerial
