import McpSerial.Manager.NoLeak
import McpSerial.Manager.Ownership

/-! The close barrier: no input or output on a port once its session was closed. -/

namespace McpSerial
open Interaction Interaction.Discipline

structure Lost (port : Handle) (σ : ManagerState) (ρs : Nat → Role) : Prop where
  made : port < σ.nextHandle
  nowhere : ∀ i, place σ ρs i ≠ some port

/-- A lost port that nobody may use. -/
structure Retired (port : Handle) (σ : ManagerState) (ρs : Nat → Role) : Prop extends
    Lost port σ ρs where
  unused : ∀ t id, ρs t ≠ .active id port

/-- Thread `u` took `port` out of the table to close `id` and still has it. -/
def Takes (id : String) (port : Handle) (u : Nat) (ρs : Nat → Role) : Prop :=
  ρs u = .closing id (some port) ∨ ρs u = .draining id port

section Moves

variable {t u : Nat} {σ σ' : ManagerState} {ρs : Nat → Role} {ρ ρ' : Role} {e : Ask}
  {id : String} {port : Handle}

theorem Takes.place (h : Takes id port u ρs) : place σ ρs (.inr u) = some port := by
  show (ρs u).held = some port
  rcases h with h | h <;> rw [h] <;> rfl

theorem Takes.other (h : Takes id port u ρs) (hut : u ≠ t) :
    Takes id port u (Function.update ρs t ρ') := by
  unfold Takes
  rw [Function.update_of_ne hut]
  exact h

/-- Only the check of a session that has the port makes a thread active on it. -/
theorem Move.active (m : Move t σ ρ e σ' ρ') (h : ρ' = .active id port) :
    ρ = .active id port ∨ ∃ i, (σ.sessions.lookup i).bind (·.port) = some port := by
  cases m with
  | quiet => exact .inl h
  | io => exact .inl h
  | @check id' port' s found hport hready =>
    cases h
    exact .inr ⟨id, by rw [found]; exact hport⟩
  | _ => cases h

theorem Lost.move (h : Lost port σ ρs) (hρ : ρs t = ρ) (m : Move t σ ρ e σ' ρ') :
    Lost port σ' (Function.update ρs t ρ') where
  made := Nat.lt_of_lt_of_le h.made m.nextHandle_le
  nowhere i hi := by
    rcases (m.passes hρ).source hi with ⟨k, hk⟩ | ⟨rfl, _⟩
    · exact h.nowhere k hk
    · exact Nat.lt_irrefl _ h.made

theorem Retired.move (h : Retired port σ ρs) (hρ : ρs t = ρ) (m : Move t σ ρ e σ' ρ') :
    Retired port σ' (Function.update ρs t ρ') where
  toLost := h.toLost.move hρ m
  unused v id hv := by
    by_cases hvt : v = t
    · subst hvt
      rw [Function.update_self] at hv
      rcases m.active hv with hold | ⟨i, hi⟩
      · exact h.unused v id (hρ.trans hold)
      · exact h.nowhere (.inl i) hi
    · rw [Function.update_of_ne hvt] at hv
      exact h.unused v id hv

theorem Takes.lost (h : Takes id port t ρs) (hown : Owned σ ρs) (hheld : ρ'.held = none)
    (hnext : σ'.nextHandle = σ.nextHandle) (htable : σ'.sessions = σ.sessions) :
    Lost port σ' (Function.update ρs t ρ') where
  made := hnext ▸ hown.bounded _ _ (h.place (σ := σ))
  nowhere i hi := by
    have hold : McpSerial.place σ ρs i = some port :=
      place_of_held (.inr hheld) (fun id port h' => htable ▸ h') i port hi
    obtain rfl := hown.linear i _ port hold h.place
    rw [McpSerial.place, Function.update_self, hheld] at hi
    cases hi

/-- The taker keeps the port, gives it back, finds nothing to give it back to, or has
waited for its lock and retires it. -/
theorem Takes.cases (h : Takes id port t ρs) (hown : Owned σ ρs) (hρ : ρs t = ρ)
    (m : Move t σ ρ e σ' ρ') :
    Takes id port t (Function.update ρs t ρ') ∨ e = ⟨.restoreReady id port, true⟩ ∨
    (e = ⟨.restoreReady id port, false⟩ ∧ Lost port σ' (Function.update ρs t ρ')) ∨
    Retired port σ' (Function.update ρs t ρ') := by
  have hself : Function.update ρs t ρ' t = ρ' := Function.update_self ..
  rcases h with ht | ht
  · obtain rfl := hρ.symm.trans ht
    cases m with
    | quiet => exact .inl (.inl hself)
    | drain => exact .inl (.inr hself)
    | restore => exact .inr (.inl rfl)
    | vanished =>
      exact .inr (.inr (.inl ⟨rfl, Takes.lost (.inl ht) hown rfl rfl rfl⟩))
    | finish stands => rcases stands with h | ⟨_, h⟩ <;> cases h
    | release stands => rcases stands with h | ⟨_, h⟩ <;> cases h
  · obtain rfl := hρ.symm.trans ht
    have howner : σ.owner port = some t := hown.locked t port (by rw [ht]; rfl)
    cases m with
    | quiet => exact .inl (.inr hself)
    | drained =>
      refine .inr (.inr (.inr ⟨Takes.lost (.inr ht) hown rfl rfl rfl, fun v id' hv => ?_⟩))
      have hvt : v ≠ t := by
        rintro rfl
        rw [hself] at hv
        cases hv
      rw [Function.update_of_ne hvt] at hv
      have howner' := hown.locked v port (by rw [hv]; rfl)
      rw [howner] at howner'
      exact hvt (Option.some.inj howner').symm
    | finish stands => rcases stands with h | ⟨_, h⟩ <;> cases h
    | release stands => rcases stands with h | ⟨_, h⟩ <;> cases h

def Shut (id : String) (port : Handle) (u : Nat) (σ : ManagerState) (ρs : Nat → Role) : Prop :=
  Takes id port u ρs ∨ Lost port σ ρs

theorem Shut.move (h : Shut id port u σ ρs) (hown : Owned σ ρs) (hρ : ρs t = ρ)
    (m : Move t σ ρ e σ' ρ') (hrestore : ¬(t = u ∧ e = ⟨.restoreReady id port, true⟩)) :
    Shut id port u σ' (Function.update ρs t ρ') := by
  rcases h with h | h
  · by_cases hut : u = t
    · subst hut
      rcases h.cases hown hρ m with hkept | rfl | ⟨_, hlost⟩ | hretired
      · exact .inl hkept
      · exact absurd ⟨rfl, rfl⟩ hrestore
      · exact .inr hlost
      · exact .inr hretired.toLost
    · exact .inl (h.other hut)
  · exact .inr (h.move hρ m)

theorem Shut.not_active (h : Shut id port u σ ρs) (hown : Owned σ ρs) (m : Move t σ ρ e σ' ρ')
    (hnot : ∀ id', ρ ≠ .active id' port) (id' : String) : ρ' ≠ .active id' port := by
  intro hactive
  rcases m.active hactive with hold | ⟨i, hi⟩
  · exact hnot id' hold
  · have htable : place σ ρs (.inl i) = some port := hi
    rcases h with h | h
    · cases hown.linear (.inl i) (.inr u) port htable h.place
    · exact h.nowhere _ htable

end Moves

section Runs

variable {κ α : Type} {code : κ → Program Request Response α}
  {tr tr' : List (Label Request Response κ)} {c c' : Config machine κ α} {t u : Nat} {id : String}
  {port : Handle}

theorem Orderly.retired (hcode : Orderly code) (h : Run machine code tr c)
    (hretired : Retired port c.shared (roles c)) (hs : Steps code c tr' c') :
    Retired port c'.shared (roles c') :=
  hcode.along h hs (J := Retired port) hretired fun _ _ _ _ _ _ _ _ _ hJ hρ m => hJ.move hρ m

theorem Orderly.sealed (hcode : Orderly code) (h : Run machine code tr c)
    (htakes : Takes id port u (roles c)) (hs : Steps code c tr' c')
    (hrestore : ∀ x, .act u ⟨.restoreReady id port, x⟩ ∉ tr') :
    Takes id port u (roles c') ∨ Retired port c'.shared (roles c') := by
  refine hcode.along h hs (J := fun σ ρs => Takes id port u ρs ∨ Retired port σ ρs)
    (.inl htakes) ?_
  intro σ ρs v ρ e σ' ρ' he hown hJ hρ m
  rcases hJ with hJ | hJ
  · by_cases huv : u = v
    · subst huv
      rcases hJ.cases hown hρ m with hkept | rfl | ⟨rfl, _⟩ | hretired
      · exact .inl hkept
      · exact absurd he (hrestore true)
      · exact absurd he (hrestore false)
      · exact .inr hretired
    · exact .inl (hJ.other huv)
  · exact .inr (hJ.move hρ m)

theorem Orderly.shut (hcode : Orderly code) (h : Run machine code tr c)
    (hshut : Shut id port u c.shared (roles c)) (hs : Steps code c tr' c')
    (hrestore : .act u ⟨.restoreReady id port, true⟩ ∉ tr') :
    Shut id port u c'.shared (roles c') := by
  apply hcode.along h hs (J := Shut id port u) hshut
  intro σ ρs v ρ e σ' ρ' he hown hJ hρ m
  apply hJ.move hown hρ m
  rintro ⟨rfl, rfl⟩
  exact hrestore he

/-- While the port is shut, a thread that is not active on it does not become so. -/
theorem Orderly.shut_not_active (hcode : Orderly code) (h : Run machine code tr c)
    (hshut : Shut id port u c.shared (roles c)) (hs : Steps code c tr' c')
    (hrestore : .act u ⟨.restoreReady id port, true⟩ ∉ tr')
    (hnot : ∀ id', roles c t ≠ .active id' port) (id' : String) :
    roles c' t ≠ .active id' port := by
  refine (hcode.along h hs (J := fun σ ρs => Shut id port u σ ρs ∧
    ∀ id', ρs t ≠ .active id' port) ⟨hshut, hnot⟩ ?_).2 id'
  rintro σ ρs v ρ e σ' ρ' he hown ⟨hJ, hJt⟩ hρ m
  have hrestore' : ¬(v = u ∧ e = ⟨.restoreReady id port, true⟩) := by
    rintro ⟨rfl, rfl⟩
    exact hrestore he
  refine ⟨hJ.move hown hρ m hrestore', fun id'' => ?_⟩
  by_cases htv : t = v
  · subst htv
    rw [Function.update_self]
    exact hJ.not_active hown m (fun i => hρ ▸ hJt i) id''
  · rw [Function.update_of_ne htv]
    exact hJt id''

theorem not_active_of_lock {token : Token}
    (hstep : Step code c (.act t ⟨.lock port token, .ready ()⟩) c') (id' : String) :
    roles c' t ≠ .active id' port := by
  show c'.track lifecycle .idle t ≠ _
  rw [hstep.track_act, Function.update_self]
  show Role.advance (roles c t) (.lock port token) (.ready ()) ≠ _
  cases roles c t <;> nofun

theorem takes_of_step (hstep : Step code c (.act u ⟨.beginClose id, .ok (some port)⟩) c') :
    Takes id port u (roles c') := by
  left
  show c'.track lifecycle .idle u = _
  rw [hstep.track_act, Function.update_self]
  rfl

end Runs

/-! ## The barrier -/

variable {env : Environment} {rx : RegexCrate} {tr : List ManagerLabel} {c : ManagerConfig}
  {u : Nat} {id : String} {port : Handle}

/-- Once a `close` that found its session ready has returned, the port is retired. -/
theorem closed_retired (h : Run machine (managerCode env rx) tr c) {th : ManagerThread}
    {timeoutMs : Nat} (hth : c.threads u = some th) (hcall : th.call = .close id timeoutMs)
    (hfound : ⟨.beginClose id, .ok (some port)⟩ ∈ th.past) (hret : th.rest = .ret (.ok .closed)) :
    Retired port c.shared (roles c) := by
  have hcode := managerCode_orderly env rx
  obtain ⟨_, hpast, hruns⟩ := Run.started h hth
  rw [hcall, hret] at hruns
  have hrestore : ∀ x, .act u ⟨.restoreReady id port, x⟩ ∉ tr := by
    intro x hx
    rw [← mem_eventsOf, ← hpast] at hx
    rcases close_returns hruns with ⟨_, _, hclosed⟩ | ⟨_, _, _, _, hnone⟩ |
      ⟨_, _, _, _, _, _, hclosed, _⟩
    · cases hclosed
    · exact hnone _ hx port rfl
    · cases hclosed
  rw [hpast, mem_eventsOf] at hfound
  obtain ⟨before, after, d, d', rfl, hbefore, hstep, hafter⟩ := Steps.step_of_mem h hfound
  have htakes := takes_of_step hstep
  have hnone : ∀ x, .act u ⟨.restoreReady id port, x⟩ ∉ after := fun x hx =>
    hrestore x (List.mem_append_right _ (List.mem_cons_of_mem _ hx))
  rcases hcode.sealed (hbefore.snoc hstep) htakes hafter hnone with hkept | hretired
  · have hsettled := hcode.settled h hth hret
    rcases hkept with hu | hu <;> rw [hu] at hsettled <;> rcases hsettled with h' | h' <;> cases h'
  · exact hretired

/-- Once a `close` that found its session ready has returned ok, nothing is read,
written or flushed on that port again. A thread that locks the port after a `close`
took it out uses it only if that `close` has made the session ready with it again. -/
theorem close_barrier (env : Environment) (rx : RegexCrate) {tr : List ManagerLabel}
    {c : ManagerConfig} (h : Run machine (managerCode env rx) tr c) :
    (∀ u th id timeoutMs port, c.threads u = some th → th.call = .close id timeoutMs →
      ⟨.beginClose id, .ok (some port)⟩ ∈ th.past → th.rest = .ret (.ok .closed) →
      ∀ tr' c', Steps (managerCode env rx) c tr' c' → ∀ t e, .act t e ∈ tr' →
        e.req.ioPort ≠ some port) ∧
    (∀ u id port before between during after t token e,
      tr = before ++ [.act u ⟨.beginClose id, .ok (some port)⟩] ++ between ++
        [.act t ⟨.lock port token, .ready ()⟩] ++ during ++ [.act t e] ++ after →
      e.req.ioPort = some port →
      .act u ⟨.restoreReady id port, true⟩ ∈ between ++ during) := by
  have hcode := managerCode_orderly env rx
  constructor
  · intro u th id timeoutMs port hth hcall hfound hret tr' c' hs t e he hio
    have hretired := closed_retired h hth hcall hfound hret
    obtain ⟨before, after, d, d', _, hbefore, hstep, _⟩ := Steps.step_of_mem hs he
    obtain ⟨id', hactive⟩ := hcode.io_active (h.append hbefore) hstep hio
    exact (hcode.retired h hretired hbefore).unused t id' hactive
  · rintro u id port before between during after t token e rfl hio
    by_contra hrestore
    rw [List.mem_append, not_or] at hrestore
    obtain ⟨c₅, h₅, _⟩ := Steps.split h
    obtain ⟨c₄, h₄, k₅⟩ := Steps.split h₅
    obtain ⟨c₃, h₃, k₄⟩ := Steps.split h₄
    obtain ⟨c₂, h₂, k₃⟩ := Steps.split h₃
    obtain ⟨c₁, h₁, k₂⟩ := Steps.split h₂
    obtain ⟨c₀, h₀, k₁⟩ := Steps.split h₁
    have htakes := takes_of_step k₁.single
    have hshut := hcode.shut h₁ (.inl htakes) k₂ hrestore.1
    have hshut := hcode.shut h₂ hshut k₃ (by simp)
    obtain ⟨id', hactive⟩ := hcode.io_active h₄ k₅.single hio
    exact hcode.shut_not_active h₃ hshut k₄ hrestore.2 (not_active_of_lock k₃.single) id' hactive

theorem close_barrier_first : ∃ tr c, Run machine (managerCode defaultEnv noRegex) tr c ∧
    ∀ tr' c', Steps (managerCode defaultEnv noRegex) c tr' c' → ∀ t e, .act t e ∈ tr' →
      e.req.ioPort ≠ some (0 : Nat) := by
  obtain ⟨threads, h₀, hfree, _⟩ := first_run
  have h₁ := h₀.start 1 (.close firstId 0) (hfree 1 (by decide))
  have h₂ := h₁.act 1 (r := .beginClose firstId) (.ok (some (0 : Nat))) rfl ⟨rfl, rfl⟩
  have h₃ := h₂.act 1 (r := .timeLeft) true rfl rfl
  have h₄ := h₃.act 1 (r := .lock (0 : Nat) .never) (.ready ()) rfl ⟨rfl, rfl⟩
  have h₅ := h₄.act 1 (r := .unlock (0 : Nat)) () rfl rfl
  have h₆ := h₅.act 1 (r := .finishClose firstId) true rfl ⟨rfl, rfl⟩
  refine ⟨_, _, h₆, ?_⟩
  exact (close_barrier defaultEnv noRegex h₆).1 1 _ firstId 0 (0 : Nat) rfl rfl (by simp) rfl

end McpSerial
