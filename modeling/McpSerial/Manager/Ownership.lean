import McpSerial.Manager.Calls
import McpSerial.Manager.TableInvariant

/-! Every port handle is in one place: in the table, with the `open` that made it or
with the `close` that took it out. A mutex is held by the thread that got it. -/

namespace McpSerial
open Interaction Interaction.Discipline

/-- No value is in two places. -/
def Linear {ι β : Type} (f : ι → Option β) : Prop :=
  ∀ i j b, f i = some b → f j = some b → i = j

def Passes {ι β : Type} (f f' : ι → Option β) (new : β → Prop) : Prop :=
  ∃ j, ∀ i b, f' i = some b →
    f i = some b ∨ (i = j ∧ ((∃ k, k ≠ j ∧ f k = some b ∧ f' k = none) ∨ new b))

section Linear

variable {ι β : Type} {f f' : ι → Option β} {new : β → Prop}

theorem Passes.of_le (j : ι) (h : ∀ i b, f' i = some b → f i = some b) : Passes f f' new :=
  ⟨j, fun i b hi => .inl (h i b hi)⟩

theorem Passes.source (h : Passes f f' new) {i : ι} {b : β} (hi : f' i = some b) :
    (∃ k, f k = some b) ∨ new b := by
  obtain ⟨j, hj⟩ := h
  rcases hj i b hi with hfi | ⟨_, ⟨k, _, hk, _⟩ | hb⟩
  · exact .inl ⟨i, hfi⟩
  · exact .inl ⟨k, hk⟩
  · exact .inr hb

theorem Linear.step (h : Linear f) (hp : Passes f f' new) (hnew : ∀ b, new b → ∀ i, f i ≠ some b) :
    Linear f' := by
  obtain ⟨j, hstep⟩ := hp
  have hold : ∀ i b, f' i = some b → f i = some b → f' j = some b →
      (∃ k, k ≠ j ∧ f k = some b ∧ f' k = none) ∨ new b → i = j := by
    intro i b hi hfi hj hgot
    rcases hgot with ⟨k, _, hk, hk'⟩ | hb
    · obtain rfl := h i k b hfi hk
      rw [hk'] at hi
      cases hi
    · exact absurd hfi (hnew b hb i)
  intro i i' b hi hi'
  rcases hstep i b hi with hfi | ⟨rfl, hgot⟩
  · rcases hstep i' b hi' with hfi' | ⟨rfl, hgot'⟩
    · exact h i i' b hfi hfi'
    · exact hold i b hi hfi hi' hgot'
  · rcases hstep i' b hi' with hfi' | ⟨rfl, _⟩
    · exact (hold i' b hi' hfi' hi hgot).symm
    · rfl

end Linear

namespace Role

def held : Role → Option Handle
  | opened _ (.ok port) => some port
  | closing _ port => port
  | draining _ port => some port
  | _ => none

def locked : Role → Option Handle
  | draining _ port | holding port | active _ port => some port
  | _ => none

end Role

/-- The handle in a place: under a session id of the table or with a thread. -/
def place (σ : ManagerState) (ρs : Nat → Role) : String ⊕ Nat → Option Handle
  | .inl id => (σ.sessions.lookup id).bind (·.port)
  | .inr t => (ρs t).held

structure Owned (σ : ManagerState) (ρs : Nat → Role) : Prop where
  linear : Linear (place σ ρs)
  bounded : ∀ i port, place σ ρs i = some port → port < σ.nextHandle
  locked : ∀ t port, (ρs t).locked = some port → σ.owner port = some t

section Moves

variable {t : Nat} {σ σ' : ManagerState} {ρs : Nat → Role} {ρ ρ' : Role} {e : Ask}

theorem place_of_held (hheld : ρ'.held = (ρs t).held ∨ ρ'.held = none)
    (htable : ∀ id port, (σ'.sessions.lookup id).bind (·.port) = some port →
      (σ.sessions.lookup id).bind (·.port) = some port)
    (i : String ⊕ Nat) (port : Handle)
    (h : place σ' (Function.update ρs t ρ') i = some port) : place σ ρs i = some port := by
  cases i with
  | inl id => exact htable id port h
  | inr u =>
    by_cases hu : u = t
    · subst hu
      rw [place, Function.update_self] at h
      rcases hheld with hheld | hheld
      · rw [hheld] at h
        exact h
      · rw [hheld] at h
        cases h
    · rw [place, Function.update_of_ne hu] at h
      exact h

def Connects (σ σ' : ManagerState) (port : Handle) : Prop :=
  port = σ.nextHandle ∧ σ'.nextHandle = σ.nextHandle + 1

/-- The table passes a handle on to a thread, or a thread to the table, or a thread
makes a new one; all others stay or are lost. -/
theorem Move.passes (m : Move t σ ρ e σ' ρ') (hρ : ρs t = ρ) :
    Passes (place σ ρs) (place σ' (Function.update ρs t ρ')) (Connects σ σ') := by
  subst hρ
  have herase (id id' : String) (port : Handle)
      (h : ((σ.sessions.erase id').lookup id).bind (·.port) = some port) :
      (σ.sessions.lookup id).bind (·.port) = some port := by
    obtain ⟨s, hs, hport⟩ := Option.bind_eq_some_iff.mp h
    rw [(Sessions.lookup_of_erase hs).2]
    exact hport
  have hkeep (hheld : ρ'.held = (ρs t).held ∨ ρ'.held = none)
      (htable : ∀ id port, (σ'.sessions.lookup id).bind (·.port) = some port →
        (σ.sessions.lookup id).bind (·.port) = some port) :
      Passes (place σ ρs) (place σ' (Function.update ρs t ρ')) (Connects σ σ') :=
    .of_le (.inr t) (place_of_held hheld htable)
  generalize hρ : ρs t = ρ at m hkeep
  cases m with
  | quiet => exact hkeep (.inl rfl) fun _ _ h => h
  | @reserve args id' =>
    refine hkeep (.inr rfl) fun id port h => ?_
    obtain ⟨s, hs, hport⟩ := Option.bind_eq_some_iff.mp h
    obtain ⟨rfl, rfl⟩ | ⟨_, hs⟩ := Sessions.lookup_insert_cases hs
    · cases hport
    · rw [hs]
      exact hport
  | connect =>
    refine ⟨.inr t, fun i port h => ?_⟩
    cases i with
    | inl id => exact .inl h
    | inr u =>
      by_cases hu : u = t
      · subst hu
        rw [place, Function.update_self] at h
        cases h
        -- the only handle that the thread did not have before is the new one
        exact .inr ⟨rfl, .inr ⟨rfl, rfl⟩⟩
      · rw [place, Function.update_of_ne hu] at h
        exact .inl h
  | refuse => exact hkeep (.inr rfl) fun _ _ h => h
  | orphan => exact hkeep (.inr rfl) fun _ _ h => h
  | abandon => exact hkeep (.inr rfl) fun id port => herase id _ port
  | drain => exact hkeep (.inl rfl) fun _ _ h => h
  | drained => exact hkeep (.inr rfl) fun _ _ h => h
  | vanished => exact hkeep (.inr rfl) fun _ _ h => h
  | finish => exact hkeep (.inr rfl) fun id port => herase id _ port
  | hold => exact hkeep (.inr rfl) fun _ _ h => h
  | check => exact hkeep (.inr rfl) fun _ _ h => h
  | io => exact hkeep (.inl rfl) fun _ _ h => h
  | release => exact hkeep (.inr rfl) fun _ _ h => h
  | @ready id' port' s found | @restore id' port' s found =>
    refine ⟨.inl id', fun i port h => ?_⟩
    cases i with
    | inl id =>
      obtain ⟨s', hs, hport⟩ := Option.bind_eq_some_iff.mp h
      obtain ⟨rfl, rfl⟩ | ⟨_, hs⟩ := Sessions.lookup_insert_cases hs
      · cases hport
        refine .inr ⟨rfl, .inl ⟨.inr t, nofun, ?_, ?_⟩⟩
        · rw [place, hρ]
          rfl
        · rw [place, Function.update_self]
          rfl
      · exact .inl (by rw [place, hs]; exact hport)
    | inr u =>
      by_cases hu : u = t
      · subst hu
        rw [place, Function.update_self] at h
        cases h
      · rw [place, Function.update_of_ne hu] at h
        exact .inl h
  | @begin id' s found live =>
    refine ⟨.inr t, fun i port h => ?_⟩
    cases i with
    | inl id =>
      obtain ⟨s', hs, hport⟩ := Option.bind_eq_some_iff.mp h
      obtain ⟨rfl, rfl⟩ | ⟨_, hs⟩ := Sessions.lookup_insert_cases hs
      · cases hport
      · exact .inl (by rw [place, hs]; exact hport)
    | inr u =>
      by_cases hu : u = t
      · subst hu
        rw [place, Function.update_self] at h
        refine .inr ⟨rfl, .inl ⟨.inl id', nofun, ?_, ?_⟩⟩
        · rw [place, found]
          exact h
        · rw [place, AList.lookup_insert]
          rfl
      · rw [place, Function.update_of_ne hu] at h
        exact .inl h

theorem Move.nextHandle_le (m : Move t σ ρ e σ' ρ') : σ.nextHandle ≤ σ'.nextHandle := by
  cases m with
  | connect => exact Nat.le_succ _
  | _ => exact Nat.le_refl _

theorem Move.lock_cases (m : Move t σ ρ e σ' ρ') :
    (σ'.owner = σ.owner ∧ (ρ'.locked = ρ.locked ∨ ρ'.locked = none)) ∨
    (∃ port, σ.owner port = none ∧ σ'.owner = Function.update σ.owner port (some t) ∧
      ρ'.locked = some port) ∨
    (∃ port, ρ.locked = some port ∧ σ'.owner = Function.update σ.owner port none ∧
      ρ'.locked = none) := by
  cases m with
  | @drain id port token free => exact .inr (.inl ⟨port, free, rfl, rfl⟩)
  | @hold port token free => exact .inr (.inl ⟨port, free, rfl, rfl⟩)
  | @drained id port => exact .inr (.inr ⟨port, rfl, rfl, rfl⟩)
  | @release ρ port stands =>
    refine .inr (.inr ⟨port, ?_, rfl, rfl⟩)
    rcases stands with rfl | ⟨id, rfl⟩ <;> rfl
  | quiet => exact .inl ⟨rfl, .inl rfl⟩
  | check => exact .inl ⟨rfl, .inl rfl⟩
  | io => exact .inl ⟨rfl, .inl rfl⟩
  | _ => exact .inl ⟨rfl, .inr rfl⟩

theorem Owned.move (h : Owned σ ρs) (hρ : ρs t = ρ) (m : Move t σ ρ e σ' ρ') :
    Owned σ' (Function.update ρs t ρ') where
  linear := by
    apply h.linear.step (m.passes hρ)
    rintro _ ⟨rfl, _⟩ i hi
    exact Nat.lt_irrefl _ (h.bounded i _ hi)
  bounded i port hi := by
    rcases (m.passes hρ).source hi with ⟨k, hk⟩ | ⟨rfl, hnext⟩
    · exact Nat.lt_of_lt_of_le (h.bounded k port hk) m.nextHandle_le
    · rw [hnext]
      exact Nat.lt_succ_self _
  locked u port hu := by
    subst hρ
    rcases m.lock_cases with ⟨howner, hlocked⟩ | ⟨port', hfree, howner, hlocked⟩ |
      ⟨port', hown, howner, hlocked⟩
    · rw [howner]
      by_cases hut : u = t
      · subst hut
        rw [Function.update_self] at hu
        rcases hlocked with hlocked | hlocked
        · exact h.locked u port (hlocked ▸ hu)
        · rw [hlocked] at hu
          cases hu
      · rw [Function.update_of_ne hut] at hu
        exact h.locked u port hu
    -- the port that is locked was free, so nobody else has it
    · rw [howner]
      by_cases hut : u = t
      · subst hut
        rw [Function.update_self, hlocked] at hu
        cases hu
        exact Function.update_self ..
      · rw [Function.update_of_ne hut] at hu
        have hu' := h.locked u port hu
        rw [Function.update_of_ne ?_, hu']
        rintro rfl
        rw [hfree] at hu'
        cases hu'
    · rw [howner]
      by_cases hut : u = t
      · subst hut
        rw [Function.update_self, hlocked] at hu
        cases hu
      · rw [Function.update_of_ne hut] at hu
        have hu' := h.locked u port hu
        rw [Function.update_of_ne ?_, hu']
        rintro rfl
        rw [h.locked t port hown] at hu'
        exact hut (Option.some.inj hu').symm

theorem Owned.initial : Owned .init fun _ => .idle := by
  constructor
  · rintro (id | t) j port h _ <;> cases h
  · rintro (id | t) port h <;> cases h
  · intro t port h
    cases h

end Moves

section Runs

variable {κ α : Type} {code : κ → Program Request Response α}
  {tr : List (Label Request Response κ)} {c : Config machine κ α}

theorem Orderly.owned (hcode : Orderly code) (h : Run machine code tr c) :
    Owned c.shared (roles c) :=
  hcode.invariant (I := fun _ σ ρs => Owned σ ρs) .initial (fun _ _ _ _ _ hσ => hσ)
    (fun _ _ _ _ _ _ _ _ hσ hρ m => hσ.move hρ m) h

/-- The rule for a property that holds from a reachable state on. -/
theorem Orderly.along (hcode : Orderly code) {tr₀ : List (Label Request Response κ)}
    {c₀ : Config machine κ α} (h : Run machine code tr₀ c₀) (hs : Steps code c₀ tr c)
    {J : ManagerState → (Nat → Role) → Prop} (init : J c₀.shared (roles c₀))
    (move : ∀ σ ρs t ρ e σ' ρ', .act t e ∈ tr → Owned σ ρs → J σ ρs → ρs t = ρ →
      Move t σ ρ e σ' ρ' → J σ' (Function.update ρs t ρ')) : J c.shared (roles c) := by
  induction hs with
  | refl => exact init
  | @snoc tr c' c'' l hs last ih =>
    have hrun := h.append hs
    have hJ := ih fun σ ρs t ρ e σ' ρ' he => move σ ρs t ρ e σ' ρ' (List.mem_append_left _ he)
    cases l with
    | start t call =>
      have hroles : roles c'' = roles c' := funext fun u => last.track_start u
      rw [hroles]
      cases last
      exact hJ
    | act t e =>
      obtain ⟨ρ', hmove, hroles⟩ := hcode.move hrun last
      rw [hroles]
      exact move _ _ t _ e _ ρ' (by simp) (hcode.owned hrun) hJ rfl hmove

/-- A port is read, written or flushed only under its checked lock. -/
theorem Orderly.io_active (hcode : Orderly code) (h : Run machine code tr c) {t : Nat} {e : Ask}
    {c' : Config machine κ α} {port : Handle} (hstep : Step code c (.act t e) c')
    (hio : e.req.ioPort = some port) : ∃ id, roles c t = .active id port := by
  obtain ⟨r, x⟩ := e
  have hadmits : (roles c t).admits r := Run.admits hcode h hstep
  cases r with
  | write | flush | read =>
    cases hio
    exact hadmits
  | _ => cases hio

end Runs
end McpSerial
