import McpSerial.Manager.Identity

/-! The source states of the lifecycle transitions, and the one race that breaks
them: an `open` that completes while a `close` that found it `Opening` is under way. -/

namespace McpSerial
open Interaction Interaction.Discipline

/-- How the calls in flight on a session and its entry fit together. -/
structure Phases (σ : ManagerState) (ρs : Nat → Role) : Prop where
  closer_unique : ∀ u v id, (ρs u).closes = some id → (ρs v).closes = some id → u = v
  closer_state : ∀ u id s, (ρs u).closes = some id → σ.sessions.lookup id = some s →
    s.state = .closing
  opener_state : ∀ t id s, (ρs t).opens = some id → σ.sessions.lookup id = some s →
    s.state = .opening ∨ ∃ u, ρs u = .closing id none
  opener_closer : ∀ t u id, (ρs t).opens = some id → (ρs u).closes = some id →
    ρs u = .closing id none ∧ (σ.sessions.lookup id).isSome

section Moves

variable {κ : Type} {tr : List (Label Request Response κ)} {t u : Nat} {σ σ' : ManagerState}
  {ρs : Nat → Role} {ρ ρ' : Role} {e : Ask} {id : String}

theorem Phases.initial : Phases .init fun _ => .idle where
  closer_unique _ _ _ h := by cases h
  closer_state _ _ _ h := by cases h
  opener_state _ _ _ h := by cases h
  opener_closer _ _ _ h := by cases h

theorem update_eq_some {f : Role → Option String} (h : f (Function.update ρs t ρ' u) = some id) :
    (u = t ∧ f ρ' = some id) ∨ (u ≠ t ∧ f (ρs u) = some id) := by
  by_cases hut : u = t
  · subst hut
    rw [Function.update_self] at h
    exact .inl ⟨rfl, h⟩
  · rw [Function.update_of_ne hut] at h
    exact .inr ⟨hut, h⟩

theorem Phases.same (h : Phases σ ρs) (htable : σ'.sessions = σ.sessions)
    (hopens : ρ'.opens = (ρs t).opens ∨ ρ'.opens = none)
    (hcloses : ρ'.closes = (ρs t).closes ∨ ρ'.closes = none)
    (hkeep : ∀ id, ρs t = .closing id none → ρ' = ρs t) :
    Phases σ' (Function.update ρs t ρ') := by
  have hold {f : Role → Option String} (hf : f ρ' = f (ρs t) ∨ f ρ' = none) {v : Nat}
      {id : String} (hv : f (Function.update ρs t ρ' v) = some id) : f (ρs v) = some id := by
    rcases update_eq_some hv with ⟨hvt, hv'⟩ | ⟨_, hv'⟩
    · rcases hf with hf | hf
      · rw [hvt, ← hf, hv']
      · rw [hf] at hv'
        cases hv'
    · exact hv'
  have hnone {v : Nat} {id : String} (hv : ρs v = .closing id none) :
      Function.update ρs t ρ' v = .closing id none := by
    by_cases hvt : v = t
    · subst hvt
      rw [Function.update_self, hkeep id hv, hv]
    · rw [Function.update_of_ne hvt, hv]
  constructor
  · exact fun v w id hv hw => h.closer_unique v w id (hold hcloses hv) (hold hcloses hw)
  · exact fun v id s hv hs => h.closer_state v id s (hold hcloses hv) (htable ▸ hs)
  · intro v id s hv hs
    rcases h.opener_state v id s (hold hopens hv) (htable ▸ hs) with hstate | ⟨w, hw⟩
    · exact .inl hstate
    · exact .inr ⟨w, hnone hw⟩
  · intro v w id hv hw
    obtain ⟨hw', hsome⟩ := h.opener_closer v w id (hold hopens hv) (hold hcloses hw)
    exact ⟨hnone hw', htable ▸ hsome⟩

theorem Phases.erase (h : Phases σ ρs) (htable : σ'.sessions = σ.sessions.erase id)
    (hmine : (ρs t).closes = none ∨ (ρs t).closes = some id)
    (hpair : ∀ v w, v ≠ t → w ≠ t → (ρs v).opens = some id → (ρs w).closes = some id → False) :
    Phases σ' (Function.update ρs t .done) := by
  have hold {f : Role → Option String} (hf : f .done = none) {v : Nat} {i : String}
      (hv : f (Function.update ρs t .done v) = some i) : v ≠ t ∧ f (ρs v) = some i := by
    rcases update_eq_some hv with ⟨_, hv'⟩ | hv'
    · rw [hf] at hv'
      cases hv'
    · exact hv'
  constructor
  · exact fun v w i hv hw => h.closer_unique v w i (hold rfl hv).2 (hold rfl hw).2
  · intro v i s hv hs
    rw [htable] at hs
    exact h.closer_state v i s (hold rfl hv).2 (Sessions.lookup_of_erase hs).2
  · intro v i s hv hs
    rw [htable] at hs
    obtain ⟨hne, hs⟩ := Sessions.lookup_of_erase hs
    rcases h.opener_state v i s (hold rfl hv).2 hs with hstate | ⟨w, hw⟩
    · exact .inl hstate
    · have hwt : w ≠ t := by
        rintro rfl
        rw [hw] at hmine
        rcases hmine with hmine | hmine
        · cases hmine
        · exact hne (Option.some.inj hmine)
      exact .inr ⟨w, by rw [Function.update_of_ne hwt, hw]⟩
  · intro v w i hv hw
    obtain ⟨hvt, hv⟩ := hold rfl hv
    obtain ⟨hwt, hw⟩ := hold rfl hw
    obtain ⟨hw', hsome⟩ := h.opener_closer v w i hv hw
    have hne : i ≠ id := by
      rintro rfl
      exact hpair v w hvt hwt hv hw
    refine ⟨by rw [Function.update_of_ne hwt, hw'], ?_⟩
    rw [htable, AList.lookup_erase_ne hne]
    exact hsome

theorem Phases.insert (h : Phases σ ρs) {s : Session}
    (htable : σ'.sessions = σ.sessions.insert id s)
    (hopens : ∀ i, ρ'.opens = some i → i = id ∧ s.state = .opening)
    (hcloses : ∀ i, ρ'.closes = some i → i = id ∧ s.state = .closing)
    (hmine : ∀ i, ρs t ≠ .closing i none)
    (hcloser : ∀ v, v ≠ t → (ρs v).closes ≠ some id)
    (hopener : ∀ v, v ≠ t → (ρs v).opens = some id → ρ' = .closing id none) :
    Phases σ' (Function.update ρs t ρ') := by
  constructor
  · -- only the mover closes `id`
    intro v w i hv hw
    rcases update_eq_some hv with ⟨hvt, hv'⟩ | ⟨hvt, hv'⟩
    · rcases update_eq_some hw with ⟨hwt, _⟩ | ⟨hwt, hw'⟩
      · rw [hvt, hwt]
      · rw [(hcloses i hv').1] at hw'
        exact absurd hw' (hcloser w hwt)
    · rcases update_eq_some hw with ⟨_, hw'⟩ | ⟨_, hw'⟩
      · rw [(hcloses i hw').1] at hv'
        exact absurd hv' (hcloser v hvt)
      · exact h.closer_unique v w i hv' hw'
  -- a closer still finds `Closing`: nobody but the mover closes the entry that is put
  · intro v i s' hv hs
    rw [htable] at hs
    rcases update_eq_some hv with ⟨_, hv'⟩ | ⟨hvt, hv'⟩
    · obtain ⟨rfl, hstate⟩ := hcloses i hv'
      rw [AList.lookup_insert] at hs
      cases hs
      exact hstate
    · obtain ⟨rfl, _⟩ | ⟨_, hs⟩ := Sessions.lookup_insert_cases hs
      · exact absurd hv' (hcloser v hvt)
      · exact h.closer_state v i s' hv' hs
  -- an opener whose entry is replaced is overtaken by the mover, who closes without a port
  · intro v i s' hv hs
    rw [htable] at hs
    rcases update_eq_some hv with ⟨_, hv'⟩ | ⟨hvt, hv'⟩
    · obtain ⟨rfl, hstate⟩ := hopens i hv'
      rw [AList.lookup_insert] at hs
      cases hs
      exact .inl hstate
    · obtain ⟨rfl, _⟩ | ⟨_, hs⟩ := Sessions.lookup_insert_cases hs
      · exact .inr ⟨t, by rw [Function.update_self, hopener v hvt hv']⟩
      · rcases h.opener_state v i s' hv' hs with hstate | ⟨w, hw⟩
        · exact .inl hstate
        · have hwt : w ≠ t := by
            rintro rfl
            exact hmine i hw
          exact .inr ⟨w, by rw [Function.update_of_ne hwt, hw]⟩
  -- who opens the entry that is put cannot close it, as its state is only one of the two
  · intro v w i hv hw
    rcases update_eq_some hv with ⟨_, hv'⟩ | ⟨hvt, hv'⟩
    · obtain ⟨rfl, hopening⟩ := hopens i hv'
      rcases update_eq_some hw with ⟨_, hw'⟩ | ⟨hwt, hw'⟩
      · rw [(hcloses i hw').2] at hopening
        cases hopening
      · exact absurd hw' (hcloser w hwt)
    · rcases update_eq_some hw with ⟨hwt, hw'⟩ | ⟨hwt, hw'⟩
      · obtain ⟨rfl, _⟩ := hcloses i hw'
        rw [hwt, Function.update_self, htable, AList.lookup_insert]
        exact ⟨hopener v hvt hv', rfl⟩
      · have hne : i ≠ id := by
          rintro rfl
          exact hcloser w hwt hw'
        obtain ⟨hclosing, hsome⟩ := h.opener_closer v w i hv' hw'
        rw [Function.update_of_ne hwt, htable, AList.lookup_insert_ne hne]
        exact ⟨hclosing, hsome⟩

theorem Phases.move (h : Phases σ ρs) (hk : Known tr σ ρs) (hok : TableOk σ.sessions)
    (hfresh : FreshIds (tr ++ [.act t e]))
    (hclear : ∀ id port x u,
      e = ⟨.completeOpen id (.ok port), x⟩ → ρs u ≠ .closing id none)
    (hρ : ρs t = ρ) (m : Move t σ ρ e σ' ρ') : Phases σ' (Function.update ρs t ρ') := by
  have hopener {v : Nat} {id : String} (ht : (ρs t).opens = some id)
      (hv : (ρs v).opens = some id) : v = t := by
    obtain ⟨args, hargs⟩ := hk.opens t id ht
    obtain ⟨args', hargs'⟩ := hk.opens v id hv
    exact (hfresh.left.reserved_unique hargs' hargs).1
  cases m with
  | quiet | io =>
    rw [← hρ, Function.update_eq_self]
    exact h
  | connect | refuse | orphan | hold | check | drain | drained | vanished =>
    apply h.same
    · rfl
    · rw [hρ]
      first | exact .inl rfl | exact .inr rfl
    · rw [hρ]
      first | exact .inl rfl | exact .inr rfl
    · intro id hclosing
      rw [hρ] at hclosing
      cases hclosing
  | release stands =>
    apply h.same
    · rfl
    · exact .inr rfl
    · exact .inr rfl
    · intro id hclosing
      rw [hρ] at hclosing
      rcases stands with rfl | ⟨_, rfl⟩ <;> cases hclosing
  | @reserve args id absent free room =>
    -- an id that is drawn only now is in nobody's hands
    have hnone (v : Nat) (args' : SessionArgs) (hv : Reserved tr v id args') : False := by
      have hnodup := hfresh
      simp only [FreshIds, List.filterMap_append, List.filterMap_cons, Label.reserves,
        List.filterMap_nil] at hnodup
      refine List.disjoint_of_nodup_append hnodup ?_ (List.mem_singleton_self id)
      exact List.mem_filterMap.mpr ⟨_, hv, rfl⟩
    apply h.insert
    · rfl
    · rintro i hi
      cases hi
      exact ⟨rfl, rfl⟩
    · nofun
    · intro i hi
      rw [hρ] at hi
      cases hi
    · intro v _ hv
      obtain ⟨w, args', hw⟩ := hk.closes v id hv
      exact hnone w args' hw
    · intro v _ hv
      obtain ⟨args', hargs⟩ := hk.opens v id hv
      exact (hnone v args' hargs).elim
  | @ready id port s found =>
    have hopens : (ρs t).opens = some id := by rw [hρ]; rfl
    apply h.insert
    · rfl
    · nofun
    · nofun
    · intro i hi
      rw [hρ] at hi
      cases hi
    · intro v _ hv
      -- without `hclear` this would ready a session that is being closed
      exact hclear id port _ v rfl (h.opener_closer t v id hopens hv).1
    · exact fun v hvt hv => absurd (hopener hopens hv) hvt
  | @abandon id e =>
    have hopens : (ρs t).opens = some id := by rw [hρ]; rfl
    apply h.erase
    · rfl
    · rw [hρ]
      exact .inl rfl
    · exact fun v _ hvt _ hv _ => hvt (hopener hopens hv)
  | @begin id s found live =>
    -- a session that can be closed is not `Closing`, so it has no closer yet
    have hcloser (v : Nat) : (ρs v).closes ≠ some id := by
      intro hv
      rw [h.closer_state v id s hv found] at live
      rcases live with hlive | hlive <;> cases hlive
    apply h.insert
    · rfl
    · nofun
    · rintro i hi
      cases hi
      exact ⟨rfl, rfl⟩
    · intro i hi
      rw [hρ] at hi
      cases hi
    · exact fun v _ => hcloser v
    · intro v _ hv
      rcases h.opener_state v id s hv found with hopening | ⟨w, hw⟩
      · -- an `Opening` session has no port yet, so this `close` takes none
        have hnone : s.port = none := by
          cases hport : s.port with
          | none => rfl
          | some port =>
            have hready := (hok.port_iff id s found).mp (by rw [hport]; rfl)
            rw [hopening] at hready
            cases hready
        rw [hnone]
      · exact absurd (by rw [hw]; rfl) (hcloser w)
  | @restore id port s found =>
    have hcloses : (ρs t).closes = some id := by rw [hρ]; rfl
    apply h.insert
    · rfl
    · nofun
    · nofun
    · intro i hi
      rw [hρ] at hi
      cases hi
    · exact fun v hvt hv => hvt (h.closer_unique v t id hv hcloses)
    · intro v _ hv
      -- a closer beside an opener has no port, but this one has one to give back
      have hnone := (h.opener_closer v t id hv hcloses).1
      rw [hρ] at hnone
      cases hnone
  | @finish ρ id stands =>
    have hcloses : (ρs t).closes = some id := by
      rw [hρ]
      rcases stands with rfl | ⟨_, rfl⟩ <;> rfl
    apply h.erase
    · rfl
    · exact .inr hcloses
    · exact fun _ w _ hwt _ hw => hwt (h.closer_unique w t id hw hcloses)

end Moves

/-! ## The race in a trace -/

section Traces

variable {κ : Type}

/-- A `close` that found `id` still `Opening` has begun and not finished. -/
def ClosesOpening (tr : List (Label Request Response κ)) (id : String) : Prop :=
  ∃ u, .act u ⟨.beginClose id, .ok none⟩ ∈ tr ∧ ∀ x, .act u ⟨.finishClose id, x⟩ ∉ tr

/-- No `open` whose backend succeeded completes while a `close` that found its session
still `Opening` is under way. -/
def Undisturbed (tr : List (Label Request Response κ)) : Prop :=
  ∀ before t id port x after, tr = before ++ .act t ⟨.completeOpen id (.ok port), x⟩ :: after →
    ¬ClosesOpening before id

variable {tr tr' : List (Label Request Response κ)} {t : Nat} {σ σ' : ManagerState}
  {ρs : Nat → Role} {ρ ρ' : Role} {e : Ask} {id : String}

theorem Undisturbed.left (h : Undisturbed (tr ++ tr')) : Undisturbed tr := by
  rintro before t id port x after rfl
  exact h before t id port x (after ++ tr') (by simp)

structure Traced (tr : List (Label Request Response κ)) (ρs : Nat → Role) : Prop where
  begun : ∀ u id, ρs u = .closing id none → .act u ⟨.beginClose id, .ok none⟩ ∈ tr
  pending : ∀ u id, .act u ⟨.beginClose id, .ok none⟩ ∈ tr →
    ρs u = .closing id none ∨ ∃ x, .act u ⟨.finishClose id, x⟩ ∈ tr
  finished : ∀ u id x, .act u ⟨.finishClose id, x⟩ ∈ tr → ρs u = .done

theorem Traced.closesOpening_iff (h : Traced tr ρs) :
    ClosesOpening tr id ↔ ∃ u, ρs u = .closing id none := by
  constructor
  · rintro ⟨u, hbegun, hopen⟩
    rcases h.pending u id hbegun with hu | ⟨x, hx⟩
    · exact ⟨u, hu⟩
    · exact absurd hx (hopen x)
  · rintro ⟨u, hu⟩
    refine ⟨u, h.begun u id hu, fun x hx => ?_⟩
    rw [h.finished u id x hx] at hu
    cases hu

theorem Move.closing_none (m : Move t σ ρ e σ' ρ') :
    (ρ' = .closing id none → ρ = .closing id none ∨ e = ⟨.beginClose id, .ok none⟩) ∧
    (ρ = .closing id none → ρ' = .closing id none ∨ ∃ x, e = ⟨.finishClose id, x⟩) ∧
    (∀ x, e = ⟨.finishClose id, x⟩ → ρ' = .done) ∧
    (e = ⟨.beginClose id, .ok none⟩ → ρ' = .closing id none) := by
  cases m with
  | quiet _ _ silent =>
    refine ⟨.inl, .inl, ?_, ?_⟩
    · rintro x rfl
      cases silent
    · rintro rfl
      cases silent
  | io uses =>
    refine ⟨.inl, .inl, ?_, ?_⟩
    · rintro x rfl
      cases uses
    · rintro rfl
      cases uses
  | begin found live =>
    refine ⟨fun h => ?_, nofun, nofun, fun h => ?_⟩
    · obtain ⟨rfl, hport⟩ := Role.closing.inj h
      rw [hport]
      exact .inr rfl
    · obtain ⟨hid, hx⟩ := Event.mk.inj h
      cases hid
      rw [Except.ok.inj (eq_of_heq hx)]
  | finish stands =>
    refine ⟨nofun, fun h => ?_, fun x _ => rfl, nofun⟩
    rcases stands with rfl | ⟨_, rfl⟩
    · cases h
      exact .inr ⟨_, rfl⟩
    · cases h
  | release stands =>
    refine ⟨nofun, fun h => ?_, nofun, nofun⟩
    rcases stands with rfl | ⟨_, rfl⟩ <;> cases h
  | _ => exact ⟨nofun, nofun, nofun, nofun⟩

theorem Traced.initial : Traced ([] : List (Label Request Response κ)) fun _ => .idle where
  begun _ _ h := by cases h
  pending _ _ h := by cases h
  finished _ _ _ h := by cases h

theorem Traced.start (h : Traced tr ρs) (t : Nat) (call : κ) :
    Traced (tr ++ [.start t call]) ρs := by
  constructor
  · exact fun u id hu => List.mem_append_left _ (h.begun u id hu)
  · intro u id hu
    have hold : .act u ⟨.beginClose id, .ok none⟩ ∈ tr := by simpa using hu
    exact (h.pending u id hold).imp_right fun ⟨x, hx⟩ => ⟨x, List.mem_append_left _ hx⟩
  · intro u id x hu
    exact h.finished u id x (by simpa using hu)

theorem Traced.move (h : Traced tr ρs) (hρ : ρs t = ρ) (m : Move t σ ρ e σ' ρ') :
    Traced (tr ++ [.act t e]) (Function.update ρs t ρ') := by
  constructor
  · intro u id hu
    by_cases hut : u = t
    · subst hut
      rw [Function.update_self] at hu
      rcases m.closing_none.1 hu with hold | rfl
      · exact List.mem_append_left _ (h.begun u id (hρ.trans hold))
      · simp
    · rw [Function.update_of_ne hut] at hu
      exact List.mem_append_left _ (h.begun u id hu)
  · intro u id hu
    by_cases hut : u = t
    · subst hut
      rw [Function.update_self]
      rcases List.mem_append.mp hu with hold | hnew
      · rcases h.pending u id hold with hclosing | ⟨x, hx⟩
        · exact (m.closing_none.2.1 (hρ.symm.trans hclosing)).imp_right
            fun ⟨x, hx⟩ => ⟨x, by simp [hx]⟩
        · exact .inr ⟨x, List.mem_append_left _ hx⟩
      · cases List.mem_singleton.mp hnew
        exact .inl (m.closing_none.2.2.2 rfl)
    · rw [Function.update_of_ne hut]
      have hold : .act u ⟨.beginClose id, .ok none⟩ ∈ tr := by simpa [hut] using hu
      exact (h.pending u id hold).imp_right fun ⟨x, hx⟩ => ⟨x, List.mem_append_left _ hx⟩
  · intro u id x hu
    by_cases hut : u = t
    · subst hut
      rw [Function.update_self]
      rcases List.mem_append.mp hu with hold | hnew
      · exact m.done (hρ.symm.trans (h.finished u id x hold))
      · cases List.mem_singleton.mp hnew
        exact m.closing_none.2.2.1 x rfl
    · rw [Function.update_of_ne hut]
      exact h.finished u id x (by simpa [hut] using hu)

end Traces

section Runs

variable {κ α : Type} {code : κ → Program Request Response α}
  {tr tr' : List (Label Request Response κ)} {c c' : Config machine κ α} {t u : Nat} {id : String}

/-- The transition that a request makes finds its asserted source state. -/
def FromSource (sessions : Sessions) : Request → Prop
  | .completeOpen id (.ok _) => ∀ s, sessions.lookup id = some s → s.state = .opening
  | .restoreReady id _ | .finishClose id =>
    ∀ s, sessions.lookup id = some s → s.state = .closing
  | _ => True

/-- Every transition is taken from its source state, and a session that a call moved to
`Closing` is `Ready` again only after that call has rolled back. -/
structure Lawful (code : κ → Program Request Response α) (tr : List (Label Request Response κ)) :
    Prop where
  sources : EveryStep machine code tr fun d l =>
    ∀ t e, l = .act t e → FromSource d.shared.sessions e.req
  stays_closing : ∀ before u id port between after d,
    tr = before ++ [.act u ⟨.beginClose id, .ok port⟩] ++ between ++ after →
    Run machine code (before ++ [.act u ⟨.beginClose id, .ok port⟩] ++ between) d →
    ∀ s, d.shared.sessions.lookup id = some s → s.state = .ready →
      ∃ port, .act u ⟨.restoreReady id port, true⟩ ∈ between

theorem Lawful.left (h : Lawful code (tr ++ tr')) : Lawful code tr where
  sources := h.sources.left
  stays_closing := by
    rintro before u id port between after d rfl
    exact h.stays_closing before u id port between (after ++ tr') d (by simp)

theorem Orderly.traced (hcode : Orderly code) (h : Run machine code tr c) : Traced tr (roles c) :=
  hcode.invariant (I := fun tr _ ρs => Traced tr ρs) Traced.initial
    (fun _ _ _ t call hρs => hρs.start t call) (fun _ _ _ _ _ _ _ _ hρs hρ m => hρs.move hρ m) h

theorem Orderly.phases (hcode : Orderly code) (h : Run machine code tr c) (hfresh : FreshIds tr)
    (hclear : Undisturbed tr) : Phases c.shared (roles c) := by
  induction h with
  | refl => exact .initial
  | @snoc tr c' c'' l hrun last ih =>
    have hphases := ih hfresh.left hclear.left
    cases l with
    | start t call =>
      have hroles : roles c'' = roles c' := funext fun u => last.track_start u
      rw [hroles]
      cases last
      exact hphases
    | act t e =>
      obtain ⟨ρ', hmove, hroles⟩ := hcode.move hrun last
      rw [hroles]
      apply hphases.move (hcode.known hrun) (hcode.tableOk hrun) hfresh _ rfl hmove
      rintro id port x u rfl hu
      refine hclear tr t id port x [] rfl ?_
      exact (hcode.traced hrun).closesOpening_iff.mpr ⟨u, hu⟩

theorem Move.closes_cases {σ σ' : ManagerState} {ρ ρ' : Role} {e : Ask} (m : Move t σ ρ e σ' ρ')
    (h : ρ.closes = some id) : ρ'.closes = some id ∨
      (∃ port, e = ⟨.restoreReady id port, true⟩) ∨ σ'.sessions.lookup id = none := by
  cases m with
  | quiet => exact .inl h
  | drain => exact .inl h
  | drained => exact .inl h
  | @restore i port =>
    obtain rfl : i = id := Option.some.inj h
    exact .inr (.inl ⟨port, rfl⟩)
  | @vanished i port absent =>
    obtain rfl : i = id := Option.some.inj h
    exact .inr (.inr absent)
  | @finish ρ i stands =>
    obtain rfl : i = id := by rcases stands with rfl | ⟨_, rfl⟩ <;> exact Option.some.inj h
    exact .inr (.inr (AList.lookup_erase ..))
  | release stands => rcases stands with rfl | ⟨_, rfl⟩ <;> cases h
  | _ => cases h

/-- While the call that closes a session is under way, and after it has removed it, the
session stays closed for good. -/
theorem Orderly.stays_closing (hcode : Orderly code) (h : Run machine code tr c)
    {port : Option Handle} {c₁ : Config machine κ α}
    (hbegin : Step code c (.act u ⟨.beginClose id, .ok port⟩) c₁) (hs : Steps code c₁ tr' c')
    (hfresh : FreshIds (tr ++ [.act u ⟨.beginClose id, .ok port⟩] ++ tr'))
    (hrestore : ∀ port, .act u ⟨.restoreReady id port, true⟩ ∉ tr') :
    (roles c' u).closes = some id ∨ c'.shared.sessions.lookup id = none := by
  have hbegun : (roles c₁ u).closes = some id := by
    show (c₁.track lifecycle .idle u : Role).closes = _
    rw [hbegin.track_act, Function.update_self]
    rfl
  obtain ⟨w, args, hreserved⟩ := (hcode.known (h.snoc hbegin)).closes u id hbegun
  -- the id has been given out before, and no id is given out twice
  have hnew (v : Nat) (args' : SessionArgs) (hv : .act v ⟨.reserve args', .ok id⟩ ∈ tr') :
      False := by
    unfold FreshIds at hfresh
    rw [List.filterMap_append] at hfresh
    exact List.disjoint_of_nodup_append hfresh (List.mem_filterMap.mpr ⟨_, hreserved, rfl⟩)
      (List.mem_filterMap.mpr ⟨_, hv, rfl⟩)
  refine hcode.along (h.snoc hbegin) hs
    (J := fun σ ρs => (ρs u).closes = some id ∨ σ.sessions.lookup id = none) (.inl hbegun) ?_
  intro σ ρs v ρ e σ' ρ' he _ hJ hρ m
  -- the closer goes on, or it has removed the entry, which no move puts back
  rcases hJ with hcloses | habsent
  · by_cases huv : u = v
    · subst huv
      rw [Function.update_self]
      rcases m.closes_cases (hρ ▸ hcloses) with hkept | ⟨port, rfl⟩ | habsent
      · exact .inl hkept
      · exact absurd he (hrestore port)
      · exact .inr habsent
    · rw [Function.update_of_ne huv]
      exact .inl hcloses
  · right
    cases hs : σ'.sessions.lookup id with
    | none => rfl
    | some s =>
      rcases m.entry_args hs with ⟨s₀, hs₀, _⟩ | rfl
      · rw [habsent] at hs₀
        cases hs₀
      · exact (hnew v _ he).elim

/-- A completion that disturbs no `close` finds its session `Opening`, and the other
transitions always find theirs `Closing`. -/
theorem Phases.fromSource {σ : ManagerState} {ρs : Nat → Role} (h : Phases σ ρs) {r : Request}
    (hadmits : (ρs t).admits r)
    (hclear : ∀ id port u, r = .completeOpen id (.ok port) → ρs u ≠ .closing id none) :
    FromSource σ.sessions r := by
  cases r with
  | completeOpen id result =>
    cases result with
    | error e => trivial
    | ok port =>
      intro s hs
      have hopened : ρs t = .opened id (.ok port) := hadmits
      rcases h.opener_state t id s (by rw [hopened]; rfl) hs with hopening | ⟨u, hu⟩
      · exact hopening
      · exact absurd hu (hclear id port u rfl)
  | restoreReady id port =>
    intro s hs
    have hclosing : ρs t = .closing id (some port) := hadmits
    exact h.closer_state t id s (by rw [hclosing]; rfl) hs
  | finishClose id =>
    intro s hs
    have hcloses : (ρs t).closes = some id := by
      rcases hadmits with hρ | ⟨_, hρ⟩ <;> rw [hρ] <;> rfl
    exact h.closer_state t id s hcloses hs
  | _ => trivial

theorem Orderly.lawful (hcode : Orderly code) (hfresh : FreshIds tr) (hclear : Undisturbed tr) :
    Lawful code tr where
  sources := by
    rintro before l after d d' rfl hrun hstep t e rfl
    have hphases := hcode.phases hrun hfresh.left hclear.left
    obtain ⟨r, x⟩ := e
    apply hphases.fromSource (Run.admits hcode hrun hstep)
    rintro id port u rfl hu
    exact hclear before t id port x after rfl
      ((hcode.traced hrun).closesOpening_iff.mpr ⟨u, hu⟩)
  stays_closing := by
    rintro before u id port between after d rfl hrun s hs hready
    by_contra hnone
    have hrestore : ∀ port, .act u ⟨.restoreReady id port, true⟩ ∉ between :=
      fun port hport => hnone ⟨port, hport⟩
    obtain ⟨c₁, h₁, hbetween⟩ := Steps.split hrun
    obtain ⟨c₀, h₀, hbegin⟩ := Steps.split h₁
    rcases hcode.stays_closing h₀ hbegin.single hbetween hfresh.left hrestore with
      hcloses | habsent
    · have hstate := (hcode.phases hrun hfresh.left hclear.left).closer_state u id s hcloses hs
      rw [hready] at hstate
      cases hstate
    · rw [habsent] at hs
      cases hs

/-- The first completion that disturbs a `close` finds its session `Closing`. -/
theorem Orderly.undisturbed (hcode : Orderly code) (h : Run machine code tr c)
    (hfresh : FreshIds tr) (hlawful : Lawful code tr) : Undisturbed tr := by
  induction h with
  | refl =>
    intro before t id port x after hnil
    simp at hnil
  | @snoc tr c' c'' l hrun last ih =>
    have hclear := ih hfresh.left hlawful.left
    intro before t id port x after htr hcloser
    rcases snoc_eq_append_cons htr with ⟨rfl, rfl⟩ | ⟨after', rfl⟩
    · -- the last step is the completion, and nothing before it disturbed a `close`
      obtain ⟨u, hu⟩ := (hcode.traced hrun).closesOpening_iff.mp hcloser
      have hphases := hcode.phases hrun hfresh.left hclear
      have hopened : roles c' t = .opened id (.ok port) := Run.admits hcode hrun last
      obtain ⟨s, hs⟩ := Option.isSome_iff_exists.mp
        (hphases.opener_closer t u id (by rw [hopened]; rfl) (by rw [hu]; rfl)).2
      have hclosing := hphases.closer_state u id s (by rw [hu]; rfl) hs
      have hopening : s.state = .opening :=
        hlawful.sources before _ [] c' c'' rfl hrun last t _ rfl s hs
      rw [hclosing] at hopening
      cases hopening
    · exact hclear before t id port x after' rfl hcloser

end Runs

/-- Exactly the runs in which no `open` completes on a `close` under way keep to the
lifecycle. -/
theorem lawful_iff (env : Environment) (rx : RegexCrate) {tr : List ManagerLabel}
    {c : ManagerConfig} (h : Run machine (managerCode env rx) tr c) (hfresh : FreshIds tr) :
    Lawful (managerCode env rx) tr ↔ Undisturbed tr := by
  have hcode := managerCode_orderly env rx
  exact ⟨hcode.undisturbed h hfresh, hcode.lawful hfresh⟩

/-- A `close` that found its session `Opening` has finished when the `open` completes. -/
theorem lawful_iff_closed : ∃ tr c, Run machine (managerCode defaultEnv noRegex) tr c ∧
    .act 1 ⟨.beginClose firstId, .ok none⟩ ∈ tr ∧
    .act 0 ⟨.completeOpen firstId (.ok (0 : Nat)), .error (.sessionNotFound firstId)⟩ ∈ tr ∧
    Lawful (managerCode defaultEnv noRegex) tr := by
  have h₀ : Run machine (managerCode defaultEnv noRegex) [] _ := .refl
  have h₁ := h₀.start 0 (.open firstArgs) rfl
  have h₂ := h₁.act 0 (r := .reserve firstArgs) (.ok firstId) rfl
    ⟨[.ok (Vector.replicate 16 0)], _, rfl, rfl⟩
  have h₃ := h₂.start 1 (.close firstId 0) rfl
  have h₄ := h₃.act 1 (r := .beginClose firstId) (.ok none) rfl ⟨rfl, rfl⟩
  have h₅ := h₄.act 0 (r := .backendOpen firstArgs.portPath defaultBaud) (.ok (0 : Nat)) rfl
    ⟨rfl, rfl⟩
  have h₆ := h₅.act 1 (r := .finishClose firstId) true rfl ⟨rfl, rfl⟩
  have h₇ := h₆.act 0 (r := .completeOpen firstId (.ok (0 : Nat)))
    (.error (.sessionNotFound firstId)) rfl ⟨rfl, rfl⟩
  refine ⟨_, _, h₇, by simp, by simp,
    (lawful_iff defaultEnv noRegex h₇ (by unfold FreshIds; decide)).mpr ?_⟩
  intro before t id port x after htr
  rcases snoc_eq_append_cons htr with ⟨rfl, hlast⟩ | ⟨after', hinit⟩
  · cases hlast
    rintro ⟨u, hbegun, hunfinished⟩
    have hu : u = 1 := by simpa using hbegun
    exact hunfinished true (by simp [hu])
  · have hmem := List.mem_append_right before (List.mem_cons_self (l := after')
      (a := Label.act t ⟨.completeOpen id (.ok port), x⟩))
    rw [← hinit] at hmem
    simp at hmem

/-- An `open` that completes after a `close` has found its session `Opening` makes the
closing session ready. -/
theorem completion_disturbs : ∃ tr c, Run machine (managerCode defaultEnv noRegex) tr c ∧
    FreshIds tr ∧ ¬Lawful (managerCode defaultEnv noRegex) tr := by
  have h₀ : Run machine (managerCode defaultEnv noRegex) [] _ := .refl
  have h₁ := h₀.start 0 (.open firstArgs) rfl
  have h₂ := h₁.act 0 (r := .reserve firstArgs) (.ok firstId) rfl
    ⟨[.ok (Vector.replicate 16 0)], _, rfl, rfl⟩
  have h₃ := h₂.start 1 (.close firstId 0) rfl
  have h₄ := h₃.act 1 (r := .beginClose firstId) (.ok none) rfl ⟨rfl, rfl⟩
  have h₅ := h₄.act 0 (r := .backendOpen firstArgs.portPath defaultBaud) (.ok (0 : Nat)) rfl
    ⟨rfl, rfl⟩
  have h₆ := h₅.act 0 (r := .completeOpen firstId (.ok (0 : Nat))) (.ok firstId) rfl ⟨rfl, rfl⟩
  have h₇ := h₆.act 1 (r := .finishClose firstId) true rfl ⟨rfl, rfl⟩
  refine ⟨_, _, h₇, by unfold FreshIds; decide, fun hlawful => ?_⟩
  have hopening := hlawful.sources _ (.act 0 ⟨.completeOpen firstId (.ok (0 : Nat)), .ok firstId⟩)
    [.act 1 ⟨.finishClose firstId, true⟩] _ _ rfl h₅ (.act 0 rfl ⟨rfl, rfl⟩) 0 _ rfl _ rfl
  cases hopening

end McpSerial
