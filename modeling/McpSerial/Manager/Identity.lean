import McpSerial.Manager.InFlight
import McpSerial.Manager.Ownership

/-! What a session id stands for. Under fresh ids one reservation made the session,
with the arguments it keeps, and one completion gave it its port. -/

namespace McpSerial
open Interaction Interaction.Discipline

section Traces

variable {κ : Type} {tr tr' : List (Label Request Response κ)} {t u : Nat} {id : String}

def Reserved (tr : List (Label Request Response κ)) (t : Nat) (id : String) (args : SessionArgs) :
    Prop :=
  .act t ⟨.reserve args, .ok id⟩ ∈ tr

def Readied (tr : List (Label Request Response κ)) (t : Nat) (id : String) (port : Handle) :
    Prop :=
  .act t ⟨.completeOpen id (.ok port), .ok id⟩ ∈ tr

def Label.reserves : Label Request Response κ → Option String
  | .act _ ⟨.reserve _, .ok id⟩ => some id
  | _ => none

/-- The entropy source never yields the id of an earlier session again. The code itself
only checks against the sessions still in the table. -/
def FreshIds (tr : List (Label Request Response κ)) : Prop := (tr.filterMap Label.reserves).Nodup

theorem FreshIds.left (h : FreshIds (tr ++ tr')) : FreshIds tr := by
  unfold FreshIds at h
  rw [List.filterMap_append] at h
  exact h.of_append_left

theorem eq_of_nodup_filterMap {α β : Type} {f : α → Option β} {l : List α} {x y : α} {b : β}
    (h : (l.filterMap f).Nodup) (hx : x ∈ l) (hy : y ∈ l) (hfx : f x = some b)
    (hfy : f y = some b) : x = y := by
  induction l with
  | nil => cases hx
  | cons a l ih =>
    rw [List.filterMap_cons] at h
    rcases List.mem_cons.mp hx with rfl | hx'
    · rcases List.mem_cons.mp hy with rfl | hy'
      · rfl
      · rw [hfx] at h
        exact absurd (List.mem_filterMap.mpr ⟨y, hy', hfy⟩) (List.nodup_cons.mp h).1
    · rcases List.mem_cons.mp hy with rfl | hy'
      · rw [hfy] at h
        exact absurd (List.mem_filterMap.mpr ⟨x, hx', hfx⟩) (List.nodup_cons.mp h).1
      · refine ih ?_ hx' hy'
        cases ha : f a with
        | none => rwa [ha] at h
        | some v =>
          rw [ha] at h
          exact (List.nodup_cons.mp h).2

theorem FreshIds.reserved_unique (h : FreshIds tr) {args args' : SessionArgs}
    (ht : Reserved tr t id args) (hu : Reserved tr u id args') : t = u ∧ args = args' := by
  have heq := eq_of_nodup_filterMap h ht hu (b := id) rfl rfl
  cases heq
  exact ⟨rfl, rfl⟩

end Traces

/-- What the trace knows about the ids and ports in the table and with the threads. -/
structure Known {κ : Type} (tr : List (Label Request Response κ)) (σ : ManagerState)
    (ρs : Nat → Role) : Prop where
  entry : ∀ id s, σ.sessions.lookup id = some s → ∃ t, Reserved tr t id s.toSessionArgs
  opens : ∀ t id, (ρs t).opens = some id → ∃ args, Reserved tr t id args
  closes : ∀ t id, (ρs t).closes = some id → ∃ u args, Reserved tr u id args
  port : ∀ id s p, σ.sessions.lookup id = some s → s.port = some p → ∃ t, Readied tr t id p
  taken : ∀ t id p, ρs t = .closing id (some p) ∨ ρs t = .draining id p ∨ ρs t = .active id p →
    ∃ u, Readied tr u id p
  readied : ∀ t id p, Readied tr t id p → ρs t = .done ∧ ∃ args, Reserved tr t id args

section Moves

variable {κ : Type} {tr : List (Label Request Response κ)} {t u : Nat} {σ σ' : ManagerState}
  {ρs : Nat → Role} {ρ ρ' : Role} {e : Ask} {id : String} {l : Label Request Response κ}

theorem Reserved.snoc {args : SessionArgs} (h : Reserved tr t id args) :
    Reserved (tr ++ [l]) t id args := List.mem_append_left _ h

theorem Readied.snoc {port : Handle} (h : Readied tr t id port) :
    Readied (tr ++ [l]) t id port := List.mem_append_left _ h

theorem Readied.of_snoc {port : Handle} (h : Readied (tr ++ [l]) t id port) :
    Readied tr t id port ∨ l = .act t ⟨.completeOpen id (.ok port), .ok id⟩ := by
  rcases List.mem_append.mp h with h | h
  · exact .inl h
  · exact .inr (List.mem_singleton.mp h).symm

theorem Move.entry_args (m : Move t σ ρ e σ' ρ') {s : Session}
    (hs : σ'.sessions.lookup id = some s) :
    (∃ s₀, σ.sessions.lookup id = some s₀ ∧ s.toSessionArgs = s₀.toSessionArgs) ∨
      e = ⟨.reserve s.toSessionArgs, .ok id⟩ := by
  cases m with
  | reserve =>
    obtain ⟨rfl, rfl⟩ | ⟨_, hs⟩ := Sessions.lookup_insert_cases hs
    · exact .inr rfl
    · exact .inl ⟨s, hs, rfl⟩
  | ready found | begin found | restore found =>
    obtain ⟨rfl, rfl⟩ | ⟨_, hs⟩ := Sessions.lookup_insert_cases hs
    · exact .inl ⟨_, found, rfl⟩
    · exact .inl ⟨s, hs, rfl⟩
  | abandon | finish => exact .inl ⟨s, (Sessions.lookup_of_erase hs).2, rfl⟩
  | _ => exact .inl ⟨s, hs, rfl⟩

theorem Move.entry_port (m : Move t σ ρ e σ' ρ') {s : Session} {p : Handle}
    (hs : σ'.sessions.lookup id = some s) (hp : s.port = some p) :
    (∃ s₀, σ.sessions.lookup id = some s₀ ∧ s₀.port = some p) ∨
      e = ⟨.completeOpen id (.ok p), .ok id⟩ ∨ ρ = .closing id (some p) := by
  cases m with
  | reserve =>
    obtain ⟨rfl, rfl⟩ | ⟨_, hs⟩ := Sessions.lookup_insert_cases hs
    · cases hp
    · exact .inl ⟨s, hs, hp⟩
  | ready =>
    obtain ⟨rfl, rfl⟩ | ⟨_, hs⟩ := Sessions.lookup_insert_cases hs
    · cases hp
      exact .inr (.inl rfl)
    · exact .inl ⟨s, hs, hp⟩
  | begin =>
    obtain ⟨rfl, rfl⟩ | ⟨_, hs⟩ := Sessions.lookup_insert_cases hs
    · cases hp
    · exact .inl ⟨s, hs, hp⟩
  | restore =>
    obtain ⟨rfl, rfl⟩ | ⟨_, hs⟩ := Sessions.lookup_insert_cases hs
    · cases hp
      exact .inr (.inr rfl)
    · exact .inl ⟨s, hs, hp⟩
  | abandon | finish => exact .inl ⟨s, (Sessions.lookup_of_erase hs).2, hp⟩
  | _ => exact .inl ⟨s, hs, hp⟩

theorem Move.role_cases (m : Move t σ ρ e σ' ρ') :
    (∀ id, ρ'.opens = some id → ρ.opens = some id ∨ ∃ args, e = ⟨.reserve args, .ok id⟩) ∧
    (∀ id, ρ'.closes = some id → ρ.closes = some id ∨ ∃ s, σ.sessions.lookup id = some s) ∧
    (∀ id p, ρ' = .closing id (some p) ∨ ρ' = .draining id p ∨ ρ' = .active id p →
      (ρ = .closing id (some p) ∨ ρ = .draining id p ∨ ρ = .active id p) ∨
        ∃ s, σ.sessions.lookup id = some s ∧ s.port = some p) := by
  cases m with
  | quiet => exact ⟨fun _ h => .inl h, fun _ h => .inl h, fun _ _ h => .inl h⟩
  | io => exact ⟨fun _ h => .inl h, fun _ h => .inl h, fun _ _ h => .inl h⟩
  | reserve =>
    refine ⟨fun id h => ?_, nofun, by simp⟩
    cases h
    exact .inr ⟨_, rfl⟩
  | begin found =>
    refine ⟨nofun, fun id h => ?_, fun id p h => ?_⟩
    · cases h
      exact .inr ⟨_, found⟩
    · rcases h with h | h | h
      · obtain ⟨rfl, hp⟩ := Role.closing.inj h
        exact .inr ⟨_, found, hp⟩
      · cases h
      · cases h
  | connect | refuse => exact ⟨fun _ h => .inl h, nofun, by simp⟩
  | drain =>
    refine ⟨nofun, fun _ h => .inl h, fun id p h => ?_⟩
    rcases h with h | h | h <;> cases h
    exact .inl (.inl rfl)
  | drained => exact ⟨nofun, fun _ h => .inl h, by simp⟩
  | check found hport =>
    refine ⟨nofun, nofun, fun id p h => ?_⟩
    rcases h with h | h | h <;> cases h
    exact .inr ⟨_, found, hport⟩
  | _ => exact ⟨nofun, nofun, by simp⟩

theorem Move.done (m : Move t σ ρ e σ' ρ') (h : ρ = .done) : ρ' = .done := by
  cases m with
  | quiet => exact h
  | finish stands => rfl
  | release stands => rfl
  | _ => cases h

theorem Move.completes {port : Handle} {x : Except SerialError String}
    (m : Move t σ ρ ⟨.completeOpen id (.ok port), x⟩ σ' ρ') :
    ρ = .opened id (.ok port) ∧ ρ' = .done := by
  cases m with
  | quiet _ _ silent => cases silent
  | ready => exact ⟨rfl, rfl⟩
  | orphan => exact ⟨rfl, rfl⟩
  | io uses => cases uses

theorem Known.move (h : Known tr σ ρs) (hρ : ρs t = ρ) (m : Move t σ ρ e σ' ρ') :
    Known (tr ++ [.act t e]) σ' (Function.update ρs t ρ') := by
  have hlast : (.act t e : Label Request Response κ) ∈ tr ++ [.act t e] := by simp
  subst hρ
  constructor
  · intro id s hs
    rcases m.entry_args hs with ⟨s₀, hs₀, hargs⟩ | rfl
    · obtain ⟨u, hu⟩ := h.entry id s₀ hs₀
      exact ⟨u, hargs ▸ hu.snoc⟩
    · exact ⟨t, hlast⟩
  · intro u id hu
    by_cases hut : u = t
    · subst hut
      rw [Function.update_self] at hu
      rcases m.role_cases.1 id hu with hold | ⟨args, rfl⟩
      · obtain ⟨args, hargs⟩ := h.opens u id hold
        exact ⟨args, hargs.snoc⟩
      · exact ⟨args, hlast⟩
    · rw [Function.update_of_ne hut] at hu
      obtain ⟨args, hargs⟩ := h.opens u id hu
      exact ⟨args, hargs.snoc⟩
  · intro u id hu
    -- a closer has taken over its session from the table
    have hold : (∃ v, (ρs v).closes = some id) ∨ ∃ s, σ.sessions.lookup id = some s := by
      by_cases hut : u = t
      · subst hut
        rw [Function.update_self] at hu
        rcases m.role_cases.2.1 id hu with hold | hfound
        · exact .inl ⟨u, hold⟩
        · exact .inr hfound
      · rw [Function.update_of_ne hut] at hu
        exact .inl ⟨u, hu⟩
    rcases hold with ⟨v, hv⟩ | ⟨s, hs⟩
    · obtain ⟨w, args, hw⟩ := h.closes v id hv
      exact ⟨w, args, hw.snoc⟩
    · obtain ⟨w, hw⟩ := h.entry id s hs
      exact ⟨w, _, hw.snoc⟩
  · intro id s p hs hp
    rcases m.entry_port hs hp with ⟨s₀, hs₀, hp₀⟩ | rfl | hρ
    · obtain ⟨u, hu⟩ := h.port id s₀ p hs₀ hp₀
      exact ⟨u, hu.snoc⟩
    · exact ⟨t, hlast⟩
    · obtain ⟨u, hu⟩ := h.taken t id p (.inl hρ)
      exact ⟨u, hu.snoc⟩
  · intro u id p hu
    have hold : (∃ v, ρs v = .closing id (some p) ∨ ρs v = .draining id p ∨
        ρs v = .active id p) ∨ ∃ s, σ.sessions.lookup id = some s ∧ s.port = some p := by
      by_cases hut : u = t
      · subst hut
        rw [Function.update_self] at hu
        rcases m.role_cases.2.2 id p hu with hold | hfound
        · exact .inl ⟨u, hold⟩
        · exact .inr hfound
      · rw [Function.update_of_ne hut] at hu
        exact .inl ⟨u, hu⟩
    rcases hold with ⟨v, hv⟩ | ⟨s, hs, hp⟩
    · obtain ⟨w, hw⟩ := h.taken v id p hv
      exact ⟨w, hw.snoc⟩
    · obtain ⟨w, hw⟩ := h.port id s p hs hp
      exact ⟨w, hw.snoc⟩
  · intro u id p hu
    rcases hu.of_snoc with hold | hnew
    · obtain ⟨hdone, args, hargs⟩ := h.readied u id p hold
      refine ⟨?_, args, hargs.snoc⟩
      by_cases hut : u = t
      · subst hut
        rw [Function.update_self]
        exact m.done hdone
      · rw [Function.update_of_ne hut, hdone]
    · cases hnew
      obtain ⟨hopened, hdone⟩ := m.completes
      obtain ⟨args, hargs⟩ := h.opens t id (by rw [hopened]; rfl)
      rw [Function.update_self]
      exact ⟨hdone, args, hargs.snoc⟩

theorem Known.start (h : Known tr σ ρs) (t : Nat) (call : κ) :
    Known (tr ++ [.start t call]) σ ρs where
  entry id s hs := (h.entry id s hs).imp fun _ hu => hu.snoc
  opens t id ht := (h.opens t id ht).imp fun _ hu => hu.snoc
  closes t id ht := (h.closes t id ht).imp fun _ hu => hu.imp fun _ hu => hu.snoc
  port id s p hs hp := (h.port id s p hs hp).imp fun _ hu => hu.snoc
  taken t id p ht := (h.taken t id p ht).imp fun _ hu => hu.snoc
  readied t id p ht := by
    rcases ht.of_snoc with hold | hnew
    · exact (h.readied t id p hold).imp_right fun ⟨args, hu⟩ => ⟨args, hu.snoc⟩
    · cases hnew

theorem Known.initial : Known ([] : List (Label Request Response κ)) .init fun _ => .idle := by
  constructor
  · intro id s hs
    cases hs
  · intro t id ht
    cases ht
  · intro t id ht
    cases ht
  · intro id s p hs
    cases hs
  · rintro t id p (ht | ht | ht) <;> cases ht
  · intro t id p ht
    cases ht

structure Assigned (tr : List (Label Request Response κ)) (σ : ManagerState) (ρs : Nat → Role) :
    Prop where
  made : ∀ t id p, Readied tr t id p → p < σ.nextHandle
  placed : ∀ t id p, Readied tr t id p → ∀ u id', ρs u ≠ .opened id' (.ok p)
  unique : ∀ t u id id' p, Readied tr t id p → Readied tr u id' p → t = u ∧ id = id'

theorem Move.opened_cases (m : Move t σ ρ e σ' ρ') {p : Handle} (hρ' : ρ' = .opened id (.ok p)) :
    ρ = .opened id (.ok p) ∨ p = σ.nextHandle := by
  cases m with
  | quiet => exact .inl hρ'
  | connect =>
    cases hρ'
    exact .inr rfl
  | _ => cases hρ'

theorem Assigned.move (h : Assigned tr σ ρs) (hown : Owned σ ρs) (hρ : ρs t = ρ)
    (m : Move t σ ρ e σ' ρ') : Assigned (tr ++ [.act t e]) σ' (Function.update ρs t ρ') := by
  have hopened {u : Nat} {id : String} {p : Handle}
      (hu : Function.update ρs t ρ' u = .opened id (.ok p)) :
      ρs u = .opened id (.ok p) ∨ p = σ.nextHandle := by
    by_cases hut : u = t
    · subst hut
      rw [Function.update_self] at hu
      rw [hρ]
      exact m.opened_cases hu
    · rw [Function.update_of_ne hut] at hu
      exact .inl hu
  -- the thread whose completion made the session ready has had the port to itself
  have hnew {u : Nat} {id : String} {p : Handle}
      (hu : (.act t e : Label Request Response κ) = .act u ⟨.completeOpen id (.ok p), .ok id⟩) :
      u = t ∧ ρs t = .opened id (.ok p) ∧ ρ' = .done ∧ p < σ.nextHandle := by
    cases hu
    obtain ⟨hstood, hdone⟩ := m.completes
    refine ⟨rfl, hρ.trans hstood, hdone, hown.bounded (.inr t) p ?_⟩
    show (ρs t).held = some p
    rw [hρ, hstood]
    rfl
  constructor
  · intro u id p hu
    rcases hu.of_snoc with hold | hlast
    · exact Nat.lt_of_lt_of_le (h.made u id p hold) m.nextHandle_le
    · exact Nat.lt_of_lt_of_le (hnew hlast).2.2.2 m.nextHandle_le
  · intro u id p hu v id' hv
    rcases hu.of_snoc with hold | hlast
    · rcases hopened hv with hstood | rfl
      · exact h.placed u id p hold v id' hstood
      · exact absurd (h.made u id _ hold) (Nat.lt_irrefl _)
    · obtain ⟨rfl, hstood, hdone, hmade⟩ := hnew hlast
      rcases hopened hv with hstood' | rfl
      · have hsame : (Sum.inr v : String ⊕ Nat) = .inr u :=
          hown.linear _ _ p (congrArg Role.held hstood') (congrArg Role.held hstood)
        cases hsame
        rw [Function.update_self, hdone] at hv
        cases hv
      · exact absurd hmade (Nat.lt_irrefl _)
  · intro u v id id' p hu hv
    rcases hu.of_snoc with hu₁ | hu₁
    · rcases hv.of_snoc with hv₁ | hv₁
      · exact h.unique u v id id' p hu₁ hv₁
      · exact absurd (hnew hv₁).2.1 (h.placed u id p hu₁ t id')
    · rcases hv.of_snoc with hv₁ | hv₁
      · exact absurd (hnew hu₁).2.1 (h.placed v id' p hv₁ t id)
      · cases hu₁
        cases hv₁
        exact ⟨rfl, rfl⟩

end Moves

section Runs

variable {κ α : Type} {code : κ → Program Request Response α}
  {tr : List (Label Request Response κ)} {c : Config machine κ α} {t u : Nat} {id : String}

theorem Orderly.known (hcode : Orderly code) (h : Run machine code tr c) :
    Known tr c.shared (roles c) :=
  hcode.invariant (I := Known) Known.initial (fun _ _ _ t call hk => hk.start t call)
    (fun _ _ _ _ _ _ _ _ hk hρ m => hk.move hρ m) h

/-- A port belongs to one session for good. -/
theorem Orderly.port_unique (hcode : Orderly code) (h : Run machine code tr c) {id' : String}
    {p : Handle} (ht : Readied tr t id p) (hu : Readied tr u id' p) : id = id' := by
  have hassigned : Owned c.shared (roles c) ∧ Assigned tr c.shared (roles c) := by
    refine hcode.invariant (I := fun tr σ ρs => Owned σ ρs ∧ Assigned tr σ ρs) ?_ ?_ ?_ h
    · refine ⟨.initial, ?_, ?_, ?_⟩ <;> intro t
      · exact fun _ _ ht => (List.not_mem_nil ht).elim
      · exact fun _ _ ht => (List.not_mem_nil ht).elim
      · exact fun _ _ _ _ ht => (List.not_mem_nil ht).elim
    · rintro tr σ ρs v call ⟨hown, hports⟩
      have hold {t : Nat} {id : String} {p : Handle} (ht : Readied (tr ++ [.start v call]) t id p) :
          Readied tr t id p := by
        rcases ht.of_snoc with ht | ht
        · exact ht
        · cases ht
      exact ⟨hown, fun t id p ht => hports.made t id p (hold ht),
        fun t id p ht => hports.placed t id p (hold ht),
        fun t u id id' p ht hu => hports.unique t u id id' p (hold ht) (hold hu)⟩
    · rintro tr σ ρs v ρ e σ' ρ' ⟨hown, hports⟩ hρ m
      exact ⟨hown.move hρ m, hports.move hown hρ m⟩
  exact (hassigned.2.unique t u id id' p ht hu).2

/-- A session that a lookup finds has the arguments that its id was reserved with. -/
theorem Orderly.found_reserved (hcode : Orderly code) (h : Run machine code tr c) {s : Session}
    (hget : .act t ⟨.get id, some s⟩ ∈ tr) : ∃ u, Reserved tr u id s.toSessionArgs := by
  obtain ⟨before, after, d, d', rfl, hbefore, hstep, _⟩ := Steps.step_of_mem h hget
  obtain ⟨hfound, _⟩ : some s = d.shared.sessions.lookup id ∧ d'.shared = d.shared := hstep.answers
  obtain ⟨u, hu⟩ := (hcode.known hbefore).entry id s hfound.symm
  exact ⟨u, List.mem_append_left _ hu⟩

/-- Under fresh ids one thread made a session ready, on one port. -/
theorem Orderly.readied_unique (hcode : Orderly code) (h : Run machine code tr c)
    (hfresh : FreshIds tr) {p q : Handle} (ht : Readied tr t id p) (hu : Readied tr u id q) :
    t = u ∧ p = q := by
  refine (hcode.invariant (I := fun tr σ ρs => Known tr σ ρs ∧ (FreshIds tr →
    ∀ t u p q, Readied tr t id p → Readied tr u id q → t = u ∧ p = q)) ?_ ?_ ?_ h).2
    hfresh t u p q ht hu
  · refine ⟨.initial, fun _ t u p q ht => ?_⟩
    cases ht
  · rintro tr σ ρs v call ⟨hk, hone⟩
    refine ⟨hk.start v call, fun hfresh t u p q ht hu => ?_⟩
    rcases ht.of_snoc with ht | ht
    · rcases hu.of_snoc with hu | hu
      · exact hone hfresh.left t u p q ht hu
      · cases hu
    · cases ht
  · rintro tr σ ρs v ρ e σ' ρ' ⟨hk, hone⟩ hρ m
    refine ⟨hk.move hρ m, fun hfresh => ?_⟩
    -- a second completion would be by the thread that has reserved the id, and that one is done
    have hclash (w : Nat) (p q : Handle) (hold : Readied tr w id p)
        (hnew : (.act v e : Label Request Response κ) =
          .act v ⟨.completeOpen id (.ok q), .ok id⟩) : False := by
      cases hnew
      obtain ⟨hopened, _⟩ := m.completes
      obtain ⟨hdone, args, hargs⟩ := hk.readied w id p hold
      obtain ⟨args', hargs'⟩ := hk.opens v id (by rw [hρ, hopened]; rfl)
      obtain ⟨rfl, _⟩ := hfresh.left.reserved_unique hargs hargs'
      rw [hρ, hopened] at hdone
      cases hdone
    intro t u p q ht hu
    rcases ht.of_snoc with ht₁ | ht₁
    · rcases hu.of_snoc with hu₁ | hu₁
      · exact hone hfresh.left t u p q ht₁ hu₁
      · cases hu₁
        exact (hclash t p q ht₁ rfl).elim
    · rcases hu.of_snoc with hu₁ | hu₁
      · cases ht₁
        exact (hclash u q p hu₁ rfl).elim
      · cases ht₁
        cases hu₁
        exact ⟨rfl, rfl⟩

theorem Orderly.io_readied (hcode : Orderly code) (h : Run machine code tr c)
    {th : Thread Request Response κ α} (ht : c.threads t = some th)
    (hport : ∀ e ∈ th.past, e.req.usesPort id) {e : Ask} (he : e ∈ th.past) {p : Handle}
    (hio : e.req.ioPort = some p) : ∃ u, Readied tr u id p := by
  have hpast := (Run.started h ht).past_eq
  have hmem : .act t e ∈ tr := mem_eventsOf.mp (hpast ▸ he)
  obtain ⟨before, after, d, d', rfl, hbefore, hstep, _⟩ := Steps.step_of_mem h hmem
  obtain ⟨id', hactive⟩ := hcode.io_active hbefore hstep hio
  cases hd : d.threads t with
  | none => simp [roles, Config.track, hd] at hactive
  | some th' =>
    have hearlier : ∀ e' ∈ th'.past, e'.req.usesPort id := by
      intro e' he'
      rw [(Run.started hbefore hd).past_eq, mem_eventsOf] at he'
      apply hport
      rw [hpast, mem_eventsOf]
      exact List.mem_append_left _ he'
    have hwithin := Role.Within.idle.after hearlier
    have hafter : roles d t = lifecycle.after .idle th'.past := Config.track_some hd
    obtain rfl := hwithin.active id' p (hafter ▸ hactive)
    obtain ⟨u, hu⟩ := (hcode.known hbefore).taken t id' p (.inr (.inr hactive))
    exact ⟨u, List.mem_append_left _ hu⟩

end Runs
end McpSerial
