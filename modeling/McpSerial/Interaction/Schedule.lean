import Mathlib.Logic.Function.Basic
import McpSerial.Interaction.Program

/-! Threads running programs over one shared state. A step starts a call or
answers the request that one thread is asking, so a run is any interleaving of
any number of calls. -/

namespace Interaction
open Program

variable {Req : Type} {Resp : Req → Type} {κ α : Type}

/-- Shared state that answers the requests of threads. -/
structure Machine (Req : Type) (Resp : Req → Type) where
  State : Type
  init : State
  answers : State → Nat → (r : Req) → Resp r → State → Prop

structure Thread (Req : Type) (Resp : Req → Type) (κ α : Type) where
  call : κ
  past : List (Event Req Resp)
  rest : Program Req Resp α

structure Config (M : Machine Req Resp) (κ α : Type) where
  shared : M.State
  threads : Nat → Option (Thread Req Resp κ α)

inductive Label (Req : Type) (Resp : Req → Type) (κ : Type) where
  | start (t : Nat) (call : κ)
  | act (t : Nat) (e : Event Req Resp)

def initial (M : Machine Req Resp) : Config M κ α := ⟨M.init, fun _ => none⟩

variable {M : Machine Req Resp} {code : κ → Program Req Resp α}

def Config.put (c : Config M κ α) (s : M.State) (t : Nat) (th : Thread Req Resp κ α) :
    Config M κ α :=
  ⟨s, Function.update c.threads t (some th)⟩

@[simp] theorem Config.put_threads_self (c : Config M κ α) (s : M.State) (t : Nat)
    (th : Thread Req Resp κ α) : (c.put s t th).threads t = some th := Function.update_self ..

@[simp] theorem Config.put_threads_ne (c : Config M κ α) (s : M.State) {t u : Nat} (h : ¬u = t)
    (th : Thread Req Resp κ α) : (c.put s t th).threads u = c.threads u :=
  Function.update_of_ne h ..

inductive Step (code : κ → Program Req Resp α) (c : Config M κ α) :
    Label Req Resp κ → Config M κ α → Prop where
  | start (t : Nat) (call : κ) (free : c.threads t = none) :
      Step code c (.start t call) (c.put c.shared t ⟨call, [], code call⟩)
  | act (t : Nat) {call : κ} {past : List (Event Req Resp)} {r : Req}
      {next : Resp r → Program Req Resp α} {x : Resp r} {s : M.State}
      (at_ask : c.threads t = some ⟨call, past, ask r next⟩)
      (answer : M.answers c.shared t r x s) :
      Step code c (.act t ⟨r, x⟩) (c.put s t ⟨call, past ++ [⟨r, x⟩], next x⟩)

inductive Steps (code : κ → Program Req Resp α) (c : Config M κ α) :
    List (Label Req Resp κ) → Config M κ α → Prop where
  | refl : Steps code c [] c
  | snoc {tr : List (Label Req Resp κ)} {c' c'' : Config M κ α} {l : Label Req Resp κ}
      (init : Steps code c tr c') (last : Step code c' l c'') : Steps code c (tr ++ [l]) c''

abbrev Run (M : Machine Req Resp) (code : κ → Program Req Resp α)
    (tr : List (Label Req Resp κ)) (c : Config M κ α) : Prop :=
  Steps code (initial M) tr c

theorem Run.start {tr : List (Label Req Resp κ)} {c : Config M κ α} (h : Run M code tr c)
    (t : Nat) (call : κ) (free : c.threads t = none) :
    Run M code (tr ++ [.start t call]) (c.put c.shared t ⟨call, [], code call⟩) :=
  h.snoc (.start t call free)

theorem Run.act {tr : List (Label Req Resp κ)} {c : Config M κ α} (h : Run M code tr c) (t : Nat)
    {call : κ} {past : List (Event Req Resp)} {r : Req} {next : Resp r → Program Req Resp α}
    (x : Resp r) {s : M.State} (at_ask : c.threads t = some ⟨call, past, ask r next⟩)
    (answer : M.answers c.shared t r x s) :
    Run M code (tr ++ [.act t ⟨r, x⟩]) (c.put s t ⟨call, past ++ [⟨r, x⟩], next x⟩) :=
  h.snoc (.act t at_ask answer)

/-! ## Composition of steps -/

theorem snoc_eq_append_cons {L : Type} {tr before after : List L} {l last : L}
    (h : tr ++ [last] = before ++ l :: after) :
    (before = tr ∧ l = last) ∨ ∃ after', tr = before ++ l :: after' := by
  rcases List.eq_nil_or_concat after with rfl | ⟨after', l', rfl⟩
  · obtain ⟨rfl, hl⟩ := List.append_inj' h rfl
    exact .inl ⟨rfl, (List.singleton_inj.mp hl).symm⟩
  · rw [List.concat_eq_append, ← List.cons_append, ← List.append_assoc] at h
    exact .inr ⟨after', (List.append_inj' h rfl).1⟩

theorem Steps.append {c c' c'' : Config M κ α} {tr tr' : List (Label Req Resp κ)}
    (h : Steps code c tr c') (k : Steps code c' tr' c'') : Steps code c (tr ++ tr') c'' := by
  induction k with
  | refl => simpa using h
  | snoc init last ih =>
    rw [← List.append_assoc]
    exact ih.snoc last

theorem Steps.split {c c'' : Config M κ α} {tr tr' : List (Label Req Resp κ)}
    (h : Steps code c (tr ++ tr') c'') :
    ∃ c', Steps code c tr c' ∧ Steps code c' tr' c'' := by
  generalize htr : tr ++ tr' = whole at h
  induction h generalizing tr' with
  | refl =>
    obtain ⟨rfl, rfl⟩ := List.append_eq_nil_iff.mp htr
    exact ⟨c, .refl, .refl⟩
  | @snoc whole' d d' l init last ih =>
    rcases List.eq_nil_or_concat tr' with rfl | ⟨tr'', l', rfl⟩
    · rw [List.append_nil] at htr
      exact ⟨d', htr ▸ init.snoc last, .refl⟩
    · rw [List.concat_eq_append, ← List.append_assoc] at htr
      obtain ⟨rfl, hl⟩ := List.append_inj' htr rfl
      cases hl
      obtain ⟨c', h, k⟩ := ih rfl
      exact ⟨c', h, by simpa using k.snoc last⟩

theorem Steps.single {c c' : Config M κ α} {l : Label Req Resp κ} (h : Steps code c [l] c') :
    Step code c l c' := by
  generalize hone : [l] = one at h
  cases h with
  | refl => cases hone
  | snoc init last =>
    rcases List.append_eq_singleton_iff.mp hone.symm with ⟨rfl, hl⟩ | ⟨_, hl⟩
    · cases hl
      generalize hnone : ([] : List (Label Req Resp κ)) = none at init
      cases init with
      | refl => exact last
      | snoc => simp at hnone
    · cases hl

theorem Steps.step_at {c c' : Config M κ α} {before after : List (Label Req Resp κ)}
    {l : Label Req Resp κ} (h : Steps code c (before ++ l :: after) c') :
    ∃ d d', Steps code c before d ∧ Step code d l d' ∧ Steps code d' after c' := by
  rw [← List.singleton_append, ← List.append_assoc] at h
  obtain ⟨d', h, k⟩ := h.split
  obtain ⟨d, h, m⟩ := h.split
  exact ⟨d, d', h, m.single, k⟩

theorem Steps.step_of_mem {c c' : Config M κ α} {tr : List (Label Req Resp κ)}
    {l : Label Req Resp κ} (h : Steps code c tr c') (hl : l ∈ tr) :
    ∃ before after d d', tr = before ++ l :: after ∧ Steps code c before d ∧
      Step code d l d' ∧ Steps code d' after c' := by
  obtain ⟨before, after, rfl⟩ := List.append_of_mem hl
  obtain ⟨d, d', hbefore, hstep, hafter⟩ := h.step_at
  exact ⟨before, after, d, d', rfl, hbefore, hstep, hafter⟩

/-- `P` holds of every step that `tr` records, in the configuration it is taken from. -/
def EveryStep (M : Machine Req Resp) (code : κ → Program Req Resp α) (tr : List (Label Req Resp κ))
    (P : Config M κ α → Label Req Resp κ → Prop) : Prop :=
  ∀ before l after d d', tr = before ++ l :: after → Run M code before d → Step code d l d' → P d l

theorem EveryStep.left {P : Config M κ α → Label Req Resp κ → Prop}
    {tr tr' : List (Label Req Resp κ)} (h : EveryStep M code (tr ++ tr') P) :
    EveryStep M code tr P := by
  rintro before l after d d' rfl
  exact h before l (after ++ tr') d d' (by simp)

/-! ## Threads -/

def eventsOf (t : Nat) (tr : List (Label Req Resp κ)) : List (Event Req Resp) :=
  tr.filterMap fun
    | .start _ _ => none
    | .act u e => if u = t then some e else none

@[simp] theorem eventsOf_snoc_start (t u : Nat) (call : κ) (tr : List (Label Req Resp κ)) :
    eventsOf t (tr ++ [.start u call]) = eventsOf t tr := by
  simp [eventsOf]

@[simp] theorem eventsOf_snoc_act (t u : Nat) (e : Event Req Resp)
    (tr : List (Label Req Resp κ)) :
    eventsOf t (tr ++ [.act u e]) = eventsOf t tr ++ if u = t then [e] else [] := by
  by_cases hu : u = t <;> simp [eventsOf, hu]

theorem mem_eventsOf {t : Nat} {tr : List (Label Req Resp κ)} {e : Event Req Resp} :
    e ∈ eventsOf t tr ↔ .act t e ∈ tr := by
  simp only [eventsOf, List.mem_filterMap]
  constructor
  · rintro ⟨l, hl, h⟩
    cases l with
    | start => cases h
    | act u e' =>
      by_cases hu : u = t
      · subst hu
        simp only [↓reduceIte, Option.some.injEq] at h
        exact h ▸ hl
      · simp [hu] at h
  · intro h
    exact ⟨_, h, by simp⟩

structure Started (code : κ → Program Req Resp α) (tr : List (Label Req Resp κ)) (t : Nat)
    (th : Thread Req Resp κ α) : Prop where
  start_mem : .start t th.call ∈ tr
  past_eq : th.past = eventsOf t tr
  runs : Runs (code th.call) th.past th.rest

theorem Run.unstarted {tr : List (Label Req Resp κ)} {c : Config M κ α} (h : Run M code tr c)
    {t : Nat} (ht : c.threads t = none) : eventsOf t tr = [] := by
  induction h with
  | refl => rfl
  | @snoc tr c' c'' l init last ih =>
    cases last with
    | start u call free =>
      by_cases hu : t = u
      · simp [hu] at ht
      · rw [Config.put_threads_ne _ _ hu] at ht
        simpa using ih ht
    | act u at_ask answer =>
      by_cases hu : t = u
      · simp [hu] at ht
      · rw [Config.put_threads_ne _ _ hu] at ht
        simpa [Ne.symm hu] using ih ht

theorem Run.started {tr : List (Label Req Resp κ)} {c : Config M κ α} (h : Run M code tr c)
    {t : Nat} {th : Thread Req Resp κ α} (ht : c.threads t = some th) :
    Started code tr t th := by
  induction h generalizing th with
  | refl => cases ht
  | @snoc tr c' c'' l init last ih =>
    cases last with
    | start u call free =>
      by_cases hu : t = u
      · subst hu
        rw [Config.put_threads_self] at ht
        cases ht
        exact ⟨by simp, by simp [Run.unstarted init free], .refl _⟩
      · rw [Config.put_threads_ne _ _ hu] at ht
        obtain ⟨hs, hp, hr⟩ := ih ht
        exact ⟨List.mem_append_left _ hs, by simpa using hp, hr⟩
    | act u at_ask answer =>
      by_cases hu : t = u
      · subst hu
        rw [Config.put_threads_self] at ht
        cases ht
        obtain ⟨hs, hp, hr⟩ := ih at_ask
        exact ⟨List.mem_append_left _ hs, by simpa using hp, hr.snoc _⟩
      · rw [Config.put_threads_ne _ _ hu] at ht
        obtain ⟨hs, hp, hr⟩ := ih ht
        exact ⟨List.mem_append_left _ hs, by simpa [Ne.symm hu] using hp, hr⟩

theorem Run.thread_of_act {tr : List (Label Req Resp κ)} {c : Config M κ α}
    (h : Run M code tr c) {t : Nat} {e : Event Req Resp} (he : .act t e ∈ tr) :
    ∃ th, c.threads t = some th ∧ e ∈ th.past := by
  have he' : e ∈ eventsOf t tr := mem_eventsOf.mpr he
  cases ht : c.threads t with
  | none =>
    rw [Run.unstarted h ht] at he'
    cases he'
  | some th => exact ⟨th, rfl, (Run.started h ht).past_eq ▸ he'⟩

theorem Steps.thread_mono {c c' : Config M κ α} {tr : List (Label Req Resp κ)}
    (h : Steps code c tr c') {t : Nat} {th : Thread Req Resp κ α} (ht : c.threads t = some th) :
    ∃ th', c'.threads t = some th' ∧ th'.call = th.call ∧ ∃ es, th'.past = th.past ++ es := by
  induction h with
  | refl => exact ⟨th, ht, rfl, [], by simp⟩
  | @snoc tr c' c'' l init last ih =>
    obtain ⟨th', ht', hc, es, he⟩ := ih
    cases last with
    | start u call free =>
      have hu : t ≠ u := by
        rintro rfl
        rw [ht'] at free
        cases free
      exact ⟨th', (Config.put_threads_ne _ _ hu _).trans ht', hc, es, he⟩
    | @act u call past r next x s at_ask answer =>
      by_cases hu : t = u
      · subst hu
        rw [ht'] at at_ask
        cases at_ask
        exact ⟨_, Config.put_threads_self .., hc, es ++ [⟨r, x⟩],
          by rw [← List.append_assoc, ← he]⟩
      · exact ⟨th', (Config.put_threads_ne _ _ hu _).trans ht', hc, es, he⟩

/-! ## A thread that nobody interrupts -/

/-- Thread `t` is given the answers in a row, from one shared state to another. -/
inductive RunsAlone (M : Machine Req Resp) (t : Nat) :
    M.State → List (Event Req Resp) → M.State → Prop where
  | nil (σ : M.State) : RunsAlone M t σ [] σ
  | cons {σ σ' σ'' : M.State} {r : Req} {x : Resp r} {es : List (Event Req Resp)}
      (answer : M.answers σ t r x σ') (rest : RunsAlone M t σ' es σ'') :
      RunsAlone M t σ (⟨r, x⟩ :: es) σ''

/-- A discipline that keeps up with the shared state tells the truth about it when a
program returns. -/
theorem RunsAlone.returns {D : Discipline Req Resp} {R : M.State → D.State → Prop} {t : Nat}
    {σ σ' : M.State} {es : List (Event Req Resp)} (h : RunsAlone M t σ es σ') {s : D.State}
    {p : Program Req Resp α} {a : α} {Q : D.State → α → Prop} (follows : D.Follows s p Q)
    (runs : Runs p es (ret a)) (init : R σ s)
    (step : ∀ σ s r x σ', R σ s → D.admits s r → M.answers σ t r x σ' →
      R σ' (D.advance s r x)) : ∃ s', R σ' s' ∧ Q s' a := by
  induction h generalizing s p with
  | nil σ =>
    obtain rfl := runs_nil.mp runs
    exact ⟨s, init, follows⟩
  | cons answer rest ih =>
    cases runs with
    | step tail => exact ih (follows.2 _) tail (step _ _ _ _ _ init follows.1 answer)

/-! ## Tracking a discipline -/

namespace Config

def track (D : Discipline Req Resp) (s : D.State) (c : Config M κ α) (t : Nat) : D.State :=
  match c.threads t with
  | none => s
  | some th => D.after s th.past

theorem track_some {D : Discipline Req Resp} {s : D.State} {c : Config M κ α} {t : Nat}
    {th : Thread Req Resp κ α} (h : c.threads t = some th) :
    c.track D s t = D.after s th.past := by
  simp [track, h]

end Config

variable {D : Discipline Req Resp} {s : D.State}

theorem Step.track_start {c c' : Config M κ α} {t : Nat} {call : κ}
    (h : Step code c (.start t call) c') (u : Nat) : c'.track D s u = c.track D s u := by
  cases h with
  | start _ _ free =>
    by_cases hu : u = t
    · subst hu
      simp [Config.track, free]
    · simp [Config.track, hu]

theorem Step.track_act {c c' : Config M κ α} {t : Nat} {r : Req} {x : Resp r}
    (h : Step code c (.act t ⟨r, x⟩) c') :
    c'.track D s = Function.update (c.track D s) t (D.advance (c.track D s t) r x) := by
  cases h with
  | act _ at_ask answer =>
    funext u
    by_cases hu : u = t
    · subst hu
      simp [Config.track, at_ask]
    · simp [Config.track, hu]

theorem Step.answers {c c' : Config M κ α} {t : Nat} {r : Req} {x : Resp r}
    (h : Step code c (.act t ⟨r, x⟩) c') : M.answers c.shared t r x c'.shared := by
  cases h with
  | act _ at_ask answer => exact answer

theorem Run.answers {tr : List (Label Req Resp κ)} {c : Config M κ α} (h : Run M code tr c)
    {t : Nat} {th : Thread Req Resp κ α} (ht : c.threads t = some th) {e : Event Req Resp}
    (he : e ∈ th.past) : ∃ σ σ', M.answers σ t e.req e.resp σ' := by
  have hmem : .act t e ∈ tr := mem_eventsOf.mp ((Run.started h ht).past_eq ▸ he)
  obtain ⟨_, _, d, d', _, _, hstep, _⟩ := Steps.step_of_mem h hmem
  exact ⟨d.shared, d'.shared, hstep.answers⟩

theorem Step.thread {c c' : Config M κ α} {t : Nat} {e : Event Req Resp}
    (h : Step code c (.act t e) c') {th : Thread Req Resp κ α} (ht : c'.threads t = some th) :
    ∃ past next, c.threads t = some ⟨th.call, past, ask e.req next⟩ ∧ th.past = past ++ [e] ∧
      th.rest = next e.resp := by
  cases h with
  | act _ at_ask answer =>
    rw [Config.put_threads_self] at ht
    cases ht
    exact ⟨_, _, at_ask, rfl, rfl⟩

theorem Step.getLast?_past {c c' : Config M κ α} {t : Nat} {e : Event Req Resp}
    (h : Step code c (.act t e) c') {th : Thread Req Resp κ α} (ht : c'.threads t = some th) :
    th.past.getLast? = some e := by
  obtain ⟨past, _, _, hpast, _⟩ := h.thread ht
  rw [hpast, List.getLast?_concat]

/-- In a run of disciplined calls every request asked is admitted. -/
theorem Run.admits {Q : κ → D.State → α → Prop} (hcode : ∀ call, D.Follows s (code call) (Q call))
    {tr : List (Label Req Resp κ)} {c c' : Config M κ α} (h : Run M code tr c) {t : Nat} {r : Req}
    {x : Resp r} (hstep : Step code c (.act t ⟨r, x⟩) c') : D.admits (c.track D s t) r := by
  cases hstep with
  | act _ at_ask answer =>
    rw [Config.track_some at_ask]
    exact (hcode _).asks (Run.started h at_ask).runs

theorem Run.returned {Q : κ → D.State → α → Prop} (hcode : ∀ call, D.Follows s (code call) (Q call))
    {tr : List (Label Req Resp κ)} {c : Config M κ α} (h : Run M code tr c) {t : Nat}
    {th : Thread Req Resp κ α} (ht : c.threads t = some th) {a : α} (ha : th.rest = ret a) :
    Q th.call (c.track D s t) a := by
  rw [Config.track_some ht]
  exact (hcode _).returns (ha ▸ (Run.started h ht).runs)

end Interaction
