import McpSerial.Manager.Rules

/-! The lifecycle discipline: where a call stands in `open`, in `close` or in an
operation on a port, and what it may ask there. -/

namespace McpSerial
open Interaction Interaction.Discipline

inductive Role where
  | idle
  /-- Has reserved `id` and waits for the backend. -/
  | opening (id : String)
  | opened (id : String) (result : Except SerialError Handle)
  /-- Has moved `id` to `Closing` and holds the handle the session had. -/
  | closing (id : String) (port : Option Handle)
  /-- Has the lock on the port of the session it closes. -/
  | draining (id : String) (port : Handle)
  | drained (id : String) (port : Handle)
  /-- Has the lock on `port` and not yet checked the session again. -/
  | holding (port : Handle)
  | active (id : String) (port : Handle)
  | done

def Request.isQuery : Request → Bool
  | .get _ | .values | .timeLeft | .turns | .elapsedMs | .isCancelled _ | .cancelPicked _
  | .availablePorts | .canonicalize _ => true
  | _ => false

def Request.ioPort : Request → Option Handle
  | .write port .. | .flush port _ | .read port .. => some port
  | _ => none

namespace Role

def admits (ρ : Role) : Request → Prop
  | .reserve _ => ρ = .idle
  | .backendOpen .. => ∃ id, ρ = .opening id
  | .completeOpen id result => ρ = .opened id result
  | .beginClose _ => ρ = .idle
  | .restoreReady id port => ρ = .closing id (some port)
  | .finishClose id => ρ = .closing id none ∨ ∃ port, ρ = .drained id port
  | .lock port _ => ρ = .idle ∨ ∃ id, ρ = .closing id (some port)
  | .unlock port => (∃ id, ρ = .draining id port) ∨ ρ = .holding port ∨ ∃ id, ρ = .active id port
  | .write port .. | .flush port _ | .read port .. => ∃ id, ρ = .active id port
  | _ => True

def advance (ρ : Role) : (r : Request) → Response r → Role
  | .reserve _, .ok id => .opening id
  | .backendOpen .., result =>
    match ρ with
    | .opening id => .opened id result
    | _ => ρ
  | .completeOpen .., _ => .done
  | .beginClose id, .ok port => .closing id port
  | .restoreReady .., _ => .done
  | .finishClose _, _ => .done
  | .get id, some s =>
    match ρ with
    | .holding port => if s.port = some port ∧ s.isReady then .active id port else ρ
    | _ => ρ
  | .lock port _, .ready _ =>
    match ρ with
    | .closing id _ => .draining id port
    | _ => .holding port
  | .unlock _, _ =>
    match ρ with
    | .draining id port => .drained id port
    | _ => .done
  | _, _ => ρ

theorem advance_checked {id : String} {port : Handle} {x : Session} (hport : x.port = some port)
    (hready : x.state = .ready) :
    advance (.holding port) (.get id) (some x) = .active id port :=
  if_pos ⟨hport, Session.isReady_iff.mpr hready⟩

theorem advance_stale {id : String} {port : Handle} {x : Session}
    (hstale : ¬(x.port = some port ∧ x.state = .ready)) :
    advance (.holding port) (.get id) (some x) = .holding port :=
  if_neg fun h => hstale ⟨h.1, Session.isReady_iff.mp h.2⟩

/-- A call that has returned stands here: it holds nothing and owes nothing. -/
def Settled (ρ : Role) : Prop := ρ = .idle ∨ ρ = .done

theorem settled_idle : Settled .idle := .inl rfl
theorem settled_done : Settled .done := .inr rfl

end Role

abbrev lifecycle : Discipline Request Response := ⟨Role, Role.admits, Role.advance⟩

theorem lifecycle_plain : Plain lifecycle := by
  constructor <;> intros <;> first | exact ⟨trivial, fun _ => rfl⟩ | rfl

theorem lifecycle_steady (id : String) (port : Handle) :
    Steady lifecycle (.active id port) port where
  read _ _ := ⟨⟨id, rfl⟩, fun _ => rfl⟩
  write _ _ := ⟨⟨id, rfl⟩, fun _ => rfl⟩
  flush _ := ⟨⟨id, rfl⟩, fun _ => rfl⟩

/-! ## The operations conclude -/

variable {α : Type} {id : String} {port : Handle} {timeoutMs : Nat} {token : Token}

def Concludes (p : Op α) : Prop :=
  lifecycle.Meets .idle p (fun ρ _ => Role.Settled ρ) (fun ρ _ => Role.Settled ρ)

theorem Concludes.throw (e : SerialError) : Concludes (throw e : Op α) := Role.settled_idle

theorem Concludes.pure (a : α) : Concludes (pure a : Op α) := Role.settled_idle

theorem concludes_checkoutPort {next : Handle → Op α} (h : ∀ port, Concludes (next port)) :
    Concludes (checkoutPort id >>= next) := by
  unfold Concludes
  rw [meets_bind]
  exact meets_checkoutPort trivial (fun _ port _ => h port) (fun _ _ => Role.settled_idle)
    Role.settled_idle

theorem concludes_withPort {body : Op α} (h : KeepsSteady lifecycle (.active id port) body) :
    Concludes (withPort id port timeoutMs token body) := by
  apply meets_withPort lifecycle_plain
  · exact .inl rfl
  · exact Role.settled_idle
  · exact Role.settled_idle
  · trivial
  · intro x hport hready
    show lifecycle.Meets (Role.advance (.holding port) (.get id) (some x)) body _ _
    rw [Role.advance_checked hport hready]
    refine h.mono ?_ ?_
    · rintro _ a rfl
      exact ⟨.inr (.inr ⟨id, rfl⟩), Role.settled_done⟩
    · rintro _ e ⟨rfl, _⟩
      exact ⟨.inr (.inr ⟨id, rfl⟩), Role.settled_done⟩
  · intro x hstale
    show lifecycle.admits (Role.advance (.holding port) (.get id) (some x)) _ ∧
      Role.Settled (lifecycle.advance (Role.advance (.holding port) (.get id) (some x)) _ _)
    rw [Role.advance_stale hstale]
    exact ⟨.inr (.inl rfl), Role.settled_done⟩
  · exact ⟨.inr (.inl rfl), Role.settled_done⟩

theorem concludes_openWithConsoleAndPolicy (env : Environment) (args : SessionArgs) :
    Concludes (openWithConsoleAndPolicy env args) := by
  unfold Concludes openWithConsoleAndPolicy
  split
  · rw [meets_bind, meets_ask]
    refine ⟨rfl, fun reserved => ?_⟩
    cases reserved with
    | error e => exact Role.settled_idle
    | ok id =>
      rw [meets_bind]
      show lifecycle.Meets (.opening id) (_ >>= _) _ _
      rw [meets_bind, meets_ask]
      refine ⟨⟨id, rfl⟩, fun result => ?_⟩
      show lifecycle.Meets (.opened id result) (_ >>= _) _ _
      rw [meets_bind, meets_ask]
      refine ⟨rfl, fun completed => ?_⟩
      cases completed with
      | error e => exact Role.settled_done
      | ok id => exact Role.settled_done
  · exact Role.settled_idle

theorem concludes_closeWithTimeout (id : String) (timeoutMs : Nat) :
    Concludes (closeWithTimeout id timeoutMs) := by
  unfold Concludes closeWithTimeout
  rw [meets_bind, meets_ask]
  refine ⟨rfl, fun begun => ?_⟩
  cases begun with
  | error e => exact Role.settled_idle
  | ok found =>
    rw [meets_bind]
    cases found with
    | none => exact ⟨.inl rfl, fun _ => Role.settled_done⟩
    | some port =>
      show lifecycle.Meets (.closing id (some port)) (_ >>= _) _ _
      rw [meets_bind, meets_attempt]
      have hlate (e : SerialError) : lifecycle.Meets (.closing id (some port))
          (do let _ ← ask (.restoreReady id port); throw e : Op Unit)
          (fun ρ _ => Role.Settled ρ) (fun ρ _ => Role.Settled ρ) :=
        ⟨rfl, fun _ => Role.settled_done⟩
      apply meets_lockPort lifecycle_plain
      · exact .inr ⟨id, rfl⟩
      · exact ⟨.inl ⟨id, rfl⟩, fun _ => ⟨.inr ⟨port, rfl⟩, fun _ => Role.settled_done⟩⟩
      · exact hlate _
      · exact hlate _

theorem concludes_writeWithCancel (id : String) (data : List UInt8) (token : Token) :
    Concludes (writeWithCancel id data token) := by
  unfold Concludes writeWithCancel
  rw [meets_bind]
  refine meets_checkoutPortAndTimeout trivial (fun x port _ => ?_) (fun _ _ => Role.settled_idle)
    Role.settled_idle
  exact concludes_withPort ((lifecycle_steady id port).writeAndFlush lifecycle_plain ..)

theorem concludes_readWithCancel (id : String) (maxBytes timeoutMs : Nat) (token : Token) :
    Concludes (readWithCancel id maxBytes timeoutMs token) :=
  concludes_checkoutPort fun port =>
    concludes_withPort ((lifecycle_steady id port).readLocked lifecycle_plain ..)

theorem concludes_drain (id : String) (maxBytes : Nat) (token : Token) :
    Concludes (drain id maxBytes token) :=
  concludes_checkoutPort fun port =>
    concludes_withPort ((lifecycle_steady id port).readLocked lifecycle_plain ..)

theorem concludes_readUntilWithCancel (rx : RegexCrate) (id pattern : String) (timeoutMs : Nat)
    (token : Token) : Concludes (readUntilWithCancel rx id pattern timeoutMs token) := by
  apply concludes_checkoutPort
  intro port
  cases PatternMatcher.new rx pattern with
  | error e => exact .throw e
  | ok m =>
    apply concludes_withPort
    apply ((lifecycle_steady id port).readUntilLocked lifecycle_plain m token .unknown .none).bind
    exact fun _ => KeepsSteady.elapsedMs lifecycle_plain fun _ => .pure _

theorem concludes_execWithOptions (rx : RegexCrate) (id : String) (command : List UInt8)
    (expect : String) (timeoutMs : Nat) (options : ExecOptions) (token : Token) :
    Concludes (execWithOptions rx id command expect timeoutMs options token) := by
  unfold execWithOptions
  split
  · exact .throw _
  · apply concludes_checkoutPort
    intro port
    cases PatternMatcher.new rx expect with
    | error e => exact .throw e
    | ok m =>
      unfold Concludes
      rw [meets_bind, meets_ofResult]
      show lifecycle.Meets .idle (_ >>= _) _ _
      rw [meets_bind, meets_ask]
      refine ⟨trivial, fun cancelled => ?_⟩
      cases cancelled with
      | true => exact Concludes.pure _
      | false =>
        have hsteady := lifecycle_steady id port
        exact concludes_withPort ((hsteady.clearBefore lifecycle_plain options token).bind
          fun cleared => hsteady.execCleared lifecycle_plain ..)

end McpSerial
