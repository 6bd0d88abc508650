import McpSerial.Interaction.Schedule

/-! Driving threads to their end. A thread that can always be answered runs alone until
it returns, and where some thread can always be driven so, all of them can. -/

namespace Interaction
open Program

variable {Req : Type} {Resp : Req → Type} {κ α : Type} {M : Machine Req Resp}
  {code : κ → Program Req Resp α} {c : Config M κ α}

def Config.Busy (c : Config M κ α) (t : Nat) : Prop :=
  ∃ call past r next, c.threads t = some ⟨call, past, ask r next⟩

theorem Config.returned_of_not_busy {t : Nat} {th : Thread Req Resp κ α}
    (h : ¬c.Busy t) (ht : c.threads t = some th) : ∃ a, th.rest = ret a := by
  obtain ⟨call, past, rest⟩ := th
  cases rest with
  | ret a => exact ⟨a, rfl⟩
  | ask r next => exact absurd ⟨call, past, r, next, ht⟩ h

theorem Config.Busy.started {t : Nat} (h : c.Busy t) : c.threads t ≠ none := by
  obtain ⟨_, _, _, _, ht⟩ := h
  rw [ht]
  exact Option.some_ne_none _

theorem Run.finitely_many {tr : List (Label Req Resp κ)} (h : Run M code tr c) :
    ∃ started : List Nat, ∀ t, c.threads t ≠ none → t ∈ started := by
  induction h with
  | refl => exact ⟨[], fun t ht => absurd rfl ht⟩
  | @snoc tr c' c'' l hrun last ih =>
    obtain ⟨started, hstarted⟩ := ih
    cases last with
    | start u call free =>
      refine ⟨u :: started, fun t ht => ?_⟩
      by_cases htu : t = u
      · exact List.mem_cons.mpr (.inl htu)
      · rw [Config.put_threads_ne _ _ htu] at ht
        exact List.mem_cons_of_mem _ (hstarted t ht)
    | act u at_ask answer =>
      refine ⟨started, fun t ht => ?_⟩
      by_cases htu : t = u
      · apply hstarted
        rw [htu, at_ask]
        exact Option.some_ne_none _
      · rw [Config.put_threads_ne _ _ htu] at ht
        exact hstarted t ht

/-- Steps of thread `t` alone, with answers that are good to it, up to its return. -/
structure Finishes (code : κ → Program Req Resp α) (good : Event Req Resp → Prop) (t : Nat)
    (c : Config M κ α) (tr : List (Label Req Resp κ)) (c' : Config M κ α) : Prop where
  steps : Steps code c tr c'
  own : ∀ l ∈ tr, ∃ e, l = .act t e ∧ good e
  others : ∀ u, u ≠ t → c'.threads u = c.threads u
  returned : ¬c'.Busy t

/-- A thread returns if `J` holds and gives its every request a good answer that keeps `J`. -/
theorem finishes_of_answered {good : Event Req Resp → Prop} {t : Nat} {J : Config M κ α → Prop}
    (answered : ∀ c call past r next, J c → c.threads t = some ⟨call, past, ask r next⟩ →
      ∃ x s, M.answers c.shared t r x s ∧ good ⟨r, x⟩ ∧
        J (c.put s t ⟨call, past ++ [⟨r, x⟩], next x⟩))
    (hJ : J c) {th : Thread Req Resp κ α} (ht : c.threads t = some th) :
    ∃ tr c', Finishes code good t c tr c' ∧ J c' := by
  obtain ⟨call, past, rest⟩ := th
  induction rest generalizing c past with
  | ret a =>
    refine ⟨[], c, ⟨.refl, nofun, fun _ _ => rfl, ?_⟩, hJ⟩
    rintro ⟨call', past', r, next, ht'⟩
    rw [ht] at ht'
    cases ht'
  | ask r next ih =>
    obtain ⟨x, s, hanswer, hgood, hJ'⟩ := answered c call past r next hJ ht
    obtain ⟨tr, c', hfin, hdone⟩ := ih x hJ' _ (Config.put_threads_self ..)
    have hstep : Steps code c [.act t ⟨r, x⟩] _ := Steps.refl.snoc (.act t ht hanswer)
    refine ⟨.act t ⟨r, x⟩ :: tr, c', ⟨hstep.append hfin.steps, ?_, ?_, hfin.returned⟩, hdone⟩
    · intro l hl
      rcases List.mem_cons.mp hl with rfl | hl
      · exact ⟨_, rfl, hgood⟩
      · exact hfin.own l hl
    · intro u hu
      rw [hfin.others u hu, Config.put_threads_ne _ _ hu]

/-- If in every state of `I` some busy thread can be driven to its return, all can. -/
theorem finish_all {good : Event Req Resp → Prop} {I : Config M κ α → Prop}
    (turn : ∀ c, I c → (∃ t, c.Busy t) →
      ∃ t tr c', c.Busy t ∧ Finishes code good t c tr c' ∧ I c')
    (hI : I c) {started : List Nat} (hstarted : ∀ t, c.Busy t → t ∈ started) :
    ∃ tr c', Steps code c tr c' ∧ (∀ l ∈ tr, ∃ t e, l = .act t e ∧ good e) ∧ I c' ∧
      ∀ t, ¬c'.Busy t := by
  induction hn : started.length using Nat.strongRecOn generalizing c started with
  | ind n ih =>
    by_cases hbusy : ∃ t, c.Busy t
    · obtain ⟨t, tr, c', ht, hfin, hI'⟩ := turn c hI hbusy
      have hless : (started.erase t).length < n := by
        have hmem := hstarted t ht
        have hpos := List.length_pos_of_mem hmem
        rw [List.length_erase_of_mem hmem, ← hn]
        exact Nat.sub_lt hpos Nat.one_pos
      have hrest : ∀ u, c'.Busy u → u ∈ started.erase t := by
        intro u hu
        have hne : u ≠ t := by
          rintro rfl
          exact hfin.returned hu
        apply (List.mem_erase_of_ne hne).mpr
        obtain ⟨call, past, r, next, hthread⟩ := hu
        rw [hfin.others u hne] at hthread
        exact hstarted u ⟨call, past, r, next, hthread⟩
      obtain ⟨tr', c'', hsteps, hgood, hI'', hquiet⟩ := ih _ hless hI' hrest rfl
      refine ⟨tr ++ tr', c'', hfin.steps.append hsteps, fun l hl => ?_, hI'', hquiet⟩
      rcases List.mem_append.mp hl with hl | hl
      · exact ⟨t, hfin.own l hl⟩
      · exact hgood l hl
    · exact ⟨[], c, .refl, nofun, hI, fun t ht => hbusy ⟨t, ht⟩⟩

end Interaction
