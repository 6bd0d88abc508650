import McpSerial.Manager.Footprint
import McpSerial.Manager.TableInvariant

/-! Every session that is not `Ready` has a call in flight that will settle it, and
what a call leaves behind when it returns. -/

namespace McpSerial
open Interaction Interaction.Discipline

namespace Role

/-- The session whose opening the call has to complete. -/
def opens : Role → Option String
  | opening id | opened id _ => some id
  | _ => none

/-- The session whose closing the call has to complete. -/
def closes : Role → Option String
  | closing id _ | draining id _ | drained id _ => some id
  | _ => none

theorem Settled.opens {ρ : Role} (h : ρ.Settled) : ρ.opens = none := by
  rcases h with rfl | rfl <;> rfl

theorem Settled.closes {ρ : Role} (h : ρ.Settled) : ρ.closes = none := by
  rcases h with rfl | rfl <;> rfl

end Role

def Covered (f : Role → Option String) (ρs : Nat → Role) (id : String) : Prop :=
  ∃ t, f (ρs t) = some id

theorem Covered.update {f : Role → Option String} {ρs : Nat → Role} {id : String} {t : Nat}
    {ρ' : Role} (h : Covered f ρs id) (keep : f (ρs t) = some id → f ρ' = some id) :
    Covered f (Function.update ρs t ρ') id := by
  obtain ⟨u, hu⟩ := h
  by_cases hut : u = t
  · subst hut
    exact ⟨u, by rw [Function.update_self, keep hu]⟩
  · exact ⟨u, by rw [Function.update_of_ne hut, hu]⟩

theorem Covered.self {f : Role → Option String} {ρs : Nat → Role} {id : String} {t : Nat}
    {ρ' : Role} (h : f ρ' = some id) : Covered f (Function.update ρs t ρ') id :=
  ⟨t, by rw [Function.update_self, h]⟩

/-- An `Opening` session has an opener in flight and a `Closing` session a closer. -/
structure InFlight (σ : ManagerState) (ρs : Nat → Role) : Prop where
  opening : ∀ id s, σ.sessions.lookup id = some s → s.state = .opening → Covered Role.opens ρs id
  closing : ∀ id s, σ.sessions.lookup id = some s → s.state = .closing → Covered Role.closes ρs id

/-- An entry of the table after a move is an old one, which the mover then neither
opens nor closes, or it is the entry the move has put there. -/
theorem Move.entry {t : Nat} {σ σ' : ManagerState} {ρ ρ' : Role} {e : Ask}
    (m : Move t σ ρ e σ' ρ') {id : String} {s : Session}
    (hs : σ'.sessions.lookup id = some s) :
    (σ.sessions.lookup id = some s ∧ (ρ.opens = some id → ρ'.opens = some id) ∧
      (ρ.closes = some id → ρ'.closes = some id)) ∨
    (s.state = .opening ∧ ρ'.opens = some id) ∨ (s.state = .closing ∧ ρ'.closes = some id) ∨
    s.state = .ready := by
  cases m with
  | quiet => exact .inl ⟨hs, fun h => h, fun h => h⟩
  | reserve =>
    obtain ⟨rfl, rfl⟩ | ⟨_, hs⟩ := Sessions.lookup_insert_cases hs
    · exact .inr (.inl ⟨rfl, rfl⟩)
    · exact .inl ⟨hs, nofun, nofun⟩
  | connect => exact .inl ⟨hs, fun h => h, nofun⟩
  | refuse => exact .inl ⟨hs, fun h => h, nofun⟩
  | ready found =>
    obtain ⟨rfl, rfl⟩ | ⟨hne, hs⟩ := Sessions.lookup_insert_cases hs
    · exact .inr (.inr (.inr rfl))
    · exact .inl ⟨hs, fun h => absurd (Option.some.inj h).symm hne, nofun⟩
  | orphan absent =>
    -- the entry it stood for is gone, so `id` is another one
    refine .inl ⟨hs, fun h => ?_, nofun⟩
    obtain rfl := Option.some.inj h
    rw [absent] at hs
    cases hs
  | abandon =>
    obtain ⟨hne, hs⟩ := Sessions.lookup_of_erase hs
    exact .inl ⟨hs, fun h => absurd (Option.some.inj h).symm hne, nofun⟩
  | begin =>
    obtain ⟨rfl, rfl⟩ | ⟨_, hs⟩ := Sessions.lookup_insert_cases hs
    · exact .inr (.inr (.inl ⟨rfl, rfl⟩))
    · exact .inl ⟨hs, nofun, nofun⟩
  | drain => exact .inl ⟨hs, nofun, fun h => h⟩
  | drained => exact .inl ⟨hs, nofun, fun h => h⟩
  | restore found =>
    obtain ⟨rfl, rfl⟩ | ⟨hne, hs⟩ := Sessions.lookup_insert_cases hs
    · exact .inr (.inr (.inr rfl))
    · exact .inl ⟨hs, nofun, fun h => absurd (Option.some.inj h).symm hne⟩
  | vanished absent =>
    refine .inl ⟨hs, nofun, fun h => ?_⟩
    obtain rfl := Option.some.inj h
    rw [absent] at hs
    cases hs
  | finish stands =>
    obtain ⟨hne, hs⟩ := Sessions.lookup_of_erase hs
    rcases stands with rfl | ⟨port, rfl⟩
    · exact .inl ⟨hs, nofun, fun h => absurd (Option.some.inj h).symm hne⟩
    · exact .inl ⟨hs, nofun, fun h => absurd (Option.some.inj h).symm hne⟩
  | hold => exact .inl ⟨hs, nofun, nofun⟩
  | check => exact .inl ⟨hs, nofun, nofun⟩
  | io => exact .inl ⟨hs, nofun, nofun⟩
  | release stands =>
    rcases stands with rfl | ⟨id, rfl⟩
    · exact .inl ⟨hs, nofun, nofun⟩
    · exact .inl ⟨hs, nofun, nofun⟩

theorem InFlight.move {t : Nat} {σ σ' : ManagerState} {ρs : Nat → Role} {ρ' : Role} {e : Ask}
    (h : InFlight σ ρs) (m : Move t σ (ρs t) e σ' ρ') :
    InFlight σ' (Function.update ρs t ρ') where
  opening id s hs hstate := by
    obtain ⟨hold, keep, _⟩ | ⟨_, hopens⟩ | ⟨hclosing, _⟩ | hready := m.entry hs
    · exact (h.opening id s hold hstate).update keep
    · exact .self hopens
    · rw [hclosing] at hstate
      cases hstate
    · rw [hready] at hstate
      cases hstate
  closing id s hs hstate := by
    obtain ⟨hold, _, keep⟩ | ⟨hopening, _⟩ | ⟨_, hcloses⟩ | hready := m.entry hs
    · exact (h.closing id s hold hstate).update keep
    · rw [hopening] at hstate
      cases hstate
    · exact .self hcloses
    · rw [hready] at hstate
      cases hstate

theorem Orderly.inFlight {κ α : Type} {code : κ → Program Request Response α}
    {tr : List (Label Request Response κ)} {c : Config machine κ α} (hcode : Orderly code)
    (h : Run machine code tr c) : InFlight c.shared (roles c) := by
  refine hcode.invariant (I := fun _ σ ρs => InFlight σ ρs) ?_ (fun _ _ _ _ _ hσ => hσ) ?_ h
  · have hempty (id : String) : ManagerState.init.sessions.lookup id = none := rfl
    constructor
    · intro id s hs _
      exact absurd ((hempty id).symm.trans hs) (Option.some_ne_none s).symm
    · intro id s hs _
      exact absurd ((hempty id).symm.trans hs) (Option.some_ne_none s).symm
  · rintro _ σ ρs t ρ e σ' ρ' hσ rfl m
    exact hσ.move m

/-! ## Calls that never touch the table -/

structure Role.Within (sid : String) (ρ : Role) : Prop where
  opens : ρ.opens = none
  closes : ρ.closes = none
  active : ∀ id port, ρ = .active id port → id = sid

namespace Role.Within

variable {ρ : Role} {sid : String} {port : Handle}

theorem idle : Role.Within sid .idle := ⟨rfl, rfl, nofun⟩
theorem holding : Role.Within sid (.holding port) := ⟨rfl, rfl, nofun⟩
theorem done : Role.Within sid .done := ⟨rfl, rfl, nofun⟩

theorem checked : Role.Within sid (.active sid port) := by
  refine ⟨rfl, rfl, fun id port' h => ?_⟩
  cases h
  rfl

theorem advance {r : Request} (h : ρ.Within sid) (hr : r.usesPort sid) (x : Response r) :
    (ρ.advance r x).Within sid := by
  cases r with
  | reserve | backendOpen | completeOpen | beginClose | restoreReady | finishClose => cases hr
  | get id =>
    cases x with
    | none => exact h
    | some s =>
      obtain rfl : id = sid := of_decide_eq_true hr
      cases ρ with
      | holding port =>
        show (if _ then _ else _ : Role).Within id
        split
        · exact checked
        · exact holding
      | _ => exact h
  | lock port token =>
    cases x with
    | ready =>
      cases ρ with
      | closing => cases h.closes
      | _ => exact holding
    | elapsed => exact h
    | cancelled => exact h
  | unlock port =>
    cases ρ with
    | draining => cases h.closes
    | _ => exact done
  | _ => exact h

theorem after {es : List Ask} (h : ρ.Within sid) (hes : ∀ e ∈ es, e.req.usesPort sid) :
    Role.Within sid (lifecycle.after ρ es) := by
  induction es generalizing ρ with
  | nil => exact h
  | cons e es ih =>
    have hstep := h.advance (hes e List.mem_cons_self) e.resp
    exact ih hstep fun e' he' => hes e' (List.mem_cons_of_mem _ he')

end Role.Within

def ManagerCall.usesPort : ManagerCall → Bool
  | .open _ | .close .. => false
  | _ => true

theorem managerCode_usesPort (env : Environment) (rx : RegexCrate) {call : ManagerCall}
    {id : String} (h : call.usesPort) (hid : call.sessionId = some id) {es : List Ask}
    {q : ManagerProgram} (k : Runs (managerCode env rx call) es q) :
    ∀ e ∈ es, e.req.usesPort id := by
  have hmap {β : Type} {p : Op β} {f : β → ManagerResult}
      (hp : OnlyAsks (fun r => r.usesPort id) p) :
      OnlyAsks (fun r => r.usesPort id) (do return f (← p)) := hp.bind fun a => .pure (f a)
  have hreads {β : Type} {p : Op β} (hp : OnlyAsks (fun r => r.reads id) p) :
      OnlyAsks (fun r => r.usesPort id) p := hp.mono fun _ => Request.usesPort_of_reads
  suffices hcall : OnlyAsks (fun r => r.usesPort id) (managerOp env rx call) from
    hcall.only_mem k
  cases call with
  | «open» | close => cases h
  | write _ data token =>
    cases hid
    exact hmap (.writeWithCancel id data token)
  | exec _ command expect timeoutMs options token =>
    cases hid
    exact hmap (.execWithOptions rx id command expect timeoutMs options token)
  | read _ maxBytes timeoutMs token =>
    cases hid
    exact hmap (hreads (.readWithCancel id maxBytes timeoutMs token))
  | readUntil _ pattern timeoutMs token =>
    cases hid
    exact hmap (hreads (.readUntilWithCancel rx id pattern timeoutMs token))
  | drain _ maxBytes token | clearInput _ maxBytes token =>
    cases hid
    exact hmap (hreads (.drain id maxBytes token))

theorem ManagerCall.sessionId_of_usesPort {call : ManagerCall} (h : call.usesPort) :
    ∃ id, call.sessionId = some id := by
  cases call with
  | «open» | close => cases h
  | _ => exact ⟨_, rfl⟩

end McpSerial
