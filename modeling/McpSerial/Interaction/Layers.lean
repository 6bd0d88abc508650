import McpSerial.Interaction.Schedule

/-! Programs over two machines at once. One of them is the layer below: what is asked of the
other is erased from a run, and what is left is a run of the layer below. -/

namespace Interaction
open Program

variable {Req₁ Req₂ : Type} {Resp₁ : Req₁ → Type} {Resp₂ : Req₂ → Type} {α β : Type}

@[reducible] def SumResp (Resp₁ : Req₁ → Type) (Resp₂ : Req₂ → Type) : Req₁ ⊕ Req₂ → Type
  | .inl r => Resp₁ r
  | .inr r => Resp₂ r

def Program.raise : Program Req₁ Resp₁ α → Program (Req₁ ⊕ Req₂) (SumResp Resp₁ Resp₂) α
  | ret a => ret a
  | ask r next => ask (.inl r) fun x => (next x).raise

theorem Program.raise_bind (p : Program Req₁ Resp₁ α) (f : α → Program Req₁ Resp₁ β) :
    ((p >>= f).raise : Program (Req₁ ⊕ Req₂) (SumResp Resp₁ Resp₂) β) =
      p.raise >>= fun a => (f a).raise := by
  induction p with
  | ret a => rfl
  | ask r next ih => exact congrArg (ask (Sum.inl r)) (funext ih)

/-- The two machines side by side: a request is answered by its own machine. -/
abbrev Machine.beside (M₁ : Machine Req₁ Resp₁) (M₂ : Machine Req₂ Resp₂) :
    Machine (Req₁ ⊕ Req₂) (SumResp Resp₁ Resp₂) where
  State := M₁.State × M₂.State
  init := (M₁.init, M₂.init)
  answers σ t
    | .inl r, x, σ' => M₁.answers σ.1 t r x σ'.1 ∧ σ'.2 = σ.2
    | .inr r, x, σ' => M₂.answers σ.2 t r x σ'.2 ∧ σ'.1 = σ.1

/-! ## Erasing -/

def eraseEvent : Event (Req₁ ⊕ Req₂) (SumResp Resp₁ Resp₂) → Option (Event Req₁ Resp₁)
  | ⟨.inl r, x⟩ => some ⟨r, x⟩
  | ⟨.inr _, _⟩ => none

def erasePast (past : List (Event (Req₁ ⊕ Req₂) (SumResp Resp₁ Resp₂))) :
    List (Event Req₁ Resp₁) := past.filterMap eraseEvent

theorem erasePast_snoc_inl (past : List (Event (Req₁ ⊕ Req₂) (SumResp Resp₁ Resp₂))) (r : Req₁)
    (x : Resp₁ r) : erasePast (past ++ [⟨.inl r, x⟩]) = erasePast past ++ [⟨r, x⟩] :=
  List.filterMap_append

theorem erasePast_snoc_inr (past : List (Event (Req₁ ⊕ Req₂) (SumResp Resp₁ Resp₂))) (r : Req₂)
    (x : Resp₂ r) : erasePast (past ++ [⟨.inr r, x⟩]) = erasePast past :=
  List.filterMap_append.trans (List.append_nil _)

/-- `Erases R p q`: but for what it asks of the other machine, `p` is `q`, and they return
results that `R` relates. -/
inductive Erases (R : β → α → Prop) :
    Program (Req₁ ⊕ Req₂) (SumResp Resp₁ Resp₂) β → Program Req₁ Resp₁ α → Prop where
  | ret {b : β} {a : α} (related : R b a) : Erases R (ret b) (ret a)
  | lower {r : Req₁} {next : Resp₁ r → Program (Req₁ ⊕ Req₂) (SumResp Resp₁ Resp₂) β}
      {next' : Resp₁ r → Program Req₁ Resp₁ α} (rest : ∀ x, Erases R (next x) (next' x)) :
      Erases R (ask (.inl r) next) (ask r next')
  | other {r : Req₂} {next : Resp₂ r → Program (Req₁ ⊕ Req₂) (SumResp Resp₁ Resp₂) β}
      {q : Program Req₁ Resp₁ α} (rest : ∀ x, Erases R (next x) q) :
      Erases R (ask (.inr r) next) q

def Silent : Program (Req₁ ⊕ Req₂) (SumResp Resp₁ Resp₂) β → Prop
  | ret _ => True
  | ask (.inl _) _ => False
  | ask (.inr _) next => ∀ x, Silent (next x)

theorem erases_raise_bind {R : β → α → Prop} {p : Program Req₁ Resp₁ α}
    {f : α → Program (Req₁ ⊕ Req₂) (SumResp Resp₁ Resp₂) β} (h : ∀ a, Erases R (f a) (ret a)) :
    Erases R (p.raise >>= f) p := by
  induction p with
  | ret a => exact h a
  | ask r next ih => exact .lower ih

theorem silent_bind {p : Program (Req₁ ⊕ Req₂) (SumResp Resp₁ Resp₂) α}
    {f : α → Program (Req₁ ⊕ Req₂) (SumResp Resp₁ Resp₂) β} (hp : Silent p)
    (hf : ∀ a, Silent (f a)) : Silent (p >>= f) := by
  induction p with
  | ret a => exact hf a
  | ask r next ih =>
    cases r with
    | inl r => cases hp
    | inr r => exact fun x => ih x (hp x)

theorem erases_bind_of_silent {R : β → α → Prop}
    {p : Program (Req₁ ⊕ Req₂) (SumResp Resp₁ Resp₂) Unit}
    {f : Unit → Program (Req₁ ⊕ Req₂) (SumResp Resp₁ Resp₂) β} {q : Program Req₁ Resp₁ α}
    (hp : Silent p) (hf : Erases R (f ()) q) : Erases R (p >>= f) q := by
  induction p with
  | ret a => exact hf
  | ask r next ih =>
    cases r with
    | inl r => cases hp
    | inr r => exact .other fun x => ih x (hp x)

/-! ## Runs below -/

theorem Step.free_of_free {Req : Type} {Resp : Req → Type} {κ : Type} {M : Machine Req Resp}
    {code : κ → Program Req Resp α} {c c' : Config M κ α} {l : Label Req Resp κ}
    (h : Step code c l c') {t : Nat} (ht : c'.threads t = none) : c.threads t = none := by
  cases h with
  | start u call free =>
    by_cases hu : t = u
    · exact hu ▸ free
    · rwa [Config.put_threads_ne _ _ hu] at ht
  | act u at_ask answer =>
    by_cases hu : t = u
    · rw [hu, Config.put_threads_self] at ht
      cases ht
    · rwa [Config.put_threads_ne _ _ hu] at ht

section Below

variable {κ κ' : Type} {M₁ : Machine Req₁ Resp₁} {M₂ : Machine Req₂ Resp₂}
  {code : κ → Program (Req₁ ⊕ Req₂) (SumResp Resp₁ Resp₂) β} {code' : κ' → Program Req₁ Resp₁ α}
  {under : κ → Option κ'} {R : κ → β → α → Prop}

/-- Every call above is one call below, or asks nothing of the layer below. -/
def Over (under : κ → Option κ') (R : κ → β → α → Prop)
    (code : κ → Program (Req₁ ⊕ Req₂) (SumResp Resp₁ Resp₂) β)
    (code' : κ' → Program Req₁ Resp₁ α) : Prop :=
  ∀ k, (∀ k', under k = some k' → Erases (R k) (code k) (code' k')) ∧
    (under k = none → Silent (code k))

def eraseLabel (under : κ → Option κ') :
    Label (Req₁ ⊕ Req₂) (SumResp Resp₁ Resp₂) κ → Option (Label Req₁ Resp₁ κ')
  | .start t k => (under k).map (.start t)
  | .act t e => (eraseEvent e).map (.act t)

def erase (under : κ → Option κ') (tr : List (Label (Req₁ ⊕ Req₂) (SumResp Resp₁ Resp₂) κ)) :
    List (Label Req₁ Resp₁ κ') := tr.filterMap (eraseLabel under)

structure SameCall (under : κ → Option κ') (R : κ → β → α → Prop)
    (th : Thread (Req₁ ⊕ Req₂) (SumResp Resp₁ Resp₂) κ β) (th' : Thread Req₁ Resp₁ κ' α) :
    Prop where
  call : under th.call = some th'.call
  past : th'.past = erasePast th.past
  rest : Erases (R th.call) th.rest th'.rest

inductive SameThread (under : κ → Option κ') (R : κ → β → α → Prop) :
    Option (Thread (Req₁ ⊕ Req₂) (SumResp Resp₁ Resp₂) κ β) → Option (Thread Req₁ Resp₁ κ' α) →
      Prop where
  | none : SameThread under R none none
  | same {th : Thread (Req₁ ⊕ Req₂) (SumResp Resp₁ Resp₂) κ β} {th' : Thread Req₁ Resp₁ κ' α}
      (same : SameCall under R th th') : SameThread under R (some th) (some th')
  | silent {th : Thread (Req₁ ⊕ Req₂) (SumResp Resp₁ Resp₂) κ β} (call : under th.call = none)
      (rest : Silent th.rest) : SameThread under R (some th) none

structure Mirrors (under : κ → Option κ') (R : κ → β → α → Prop)
    (c : Config (M₁.beside M₂) κ β) (d : Config M₁ κ' α) : Prop where
  shared : c.shared.1 = d.shared
  threads : ∀ t, SameThread under R (c.threads t) (d.threads t)

theorem Mirrors.put {c : Config (M₁.beside M₂) κ β} {d : Config M₁ κ' α}
    (h : Mirrors under R c d) {s : (M₁.beside M₂).State} {t : Nat}
    {th : Thread (Req₁ ⊕ Req₂) (SumResp Resp₁ Resp₂) κ β} {th' : Thread Req₁ Resp₁ κ' α}
    (hth : SameCall under R th th') : Mirrors under R (c.put s t th) (d.put s.1 t th') := by
  refine ⟨rfl, fun u => ?_⟩
  by_cases hu : u = t
  · subst hu
    rw [Config.put_threads_self, Config.put_threads_self]
    exact .same hth
  · rw [Config.put_threads_ne _ _ hu, Config.put_threads_ne _ _ hu]
    exact h.threads u

theorem Mirrors.put_above {c : Config (M₁.beside M₂) κ β} {d : Config M₁ κ' α}
    (h : Mirrors under R c d) {s : (M₁.beside M₂).State} (hs : s.1 = c.shared.1) {t : Nat}
    {th : Thread (Req₁ ⊕ Req₂) (SumResp Resp₁ Resp₂) κ β}
    (hth : SameThread under R (some th) (d.threads t)) : Mirrors under R (c.put s t th) d := by
  refine ⟨hs.trans h.shared, fun u => ?_⟩
  by_cases hu : u = t
  · subst hu
    rw [Config.put_threads_self]
    exact hth
  · rw [Config.put_threads_ne _ _ hu]
    exact h.threads u

theorem mirrors_initial :
    Mirrors under R (initial (M₁.beside M₂) : Config (M₁.beside M₂) κ β)
      (initial M₁ : Config M₁ κ' α) :=
  ⟨rfl, fun _ => .none⟩

theorem erase_snoc (tr : List (Label (Req₁ ⊕ Req₂) (SumResp Resp₁ Resp₂) κ))
    (l : Label (Req₁ ⊕ Req₂) (SumResp Resp₁ Resp₂) κ) :
    erase under (tr ++ [l]) = erase under tr ++ (eraseLabel under l).toList := by
  cases hl : eraseLabel under l <;> simp [erase, hl]

theorem erase_append (tr tr' : List (Label (Req₁ ⊕ Req₂) (SumResp Resp₁ Resp₂) κ)) :
    erase under (tr ++ tr') = erase under tr ++ erase under tr' := List.filterMap_append

theorem act_mem_of_erase {tr : List (Label (Req₁ ⊕ Req₂) (SumResp Resp₁ Resp₂) κ)} {t : Nat}
    {r : Req₁} {x : Resp₁ r} (h : .act t ⟨r, x⟩ ∈ erase under tr) : .act t ⟨.inl r, x⟩ ∈ tr := by
  obtain ⟨l, hl, hlabel⟩ := List.mem_filterMap.mp h
  rcases l with ⟨u, k⟩ | ⟨u, ⟨r' | r', y⟩⟩
  · obtain ⟨k', _, hk⟩ := Option.map_eq_some_iff.mp hlabel
    cases hk
  · cases hlabel
    exact hl
  · cases hlabel

theorem Mirrors.step (hover : Over under R code code') {c c' : Config (M₁.beside M₂) κ β}
    {d : Config M₁ κ' α} (h : Mirrors under R c d)
    {l : Label (Req₁ ⊕ Req₂) (SumResp Resp₁ Resp₂) κ} (hstep : Step code c l c') :
    ∃ d', Steps code' d (eraseLabel under l).toList d' ∧ Mirrors under R c' d' := by
  cases hstep with
  | start t k free =>
    have hthread := h.threads t
    rw [free] at hthread
    cases hk : under k with
    | none =>
      refine ⟨d, ?_, h.put_above rfl ?_⟩
      · rw [eraseLabel, hk]
        exact .refl
      · generalize d.threads t = th' at hthread
        cases hthread
        exact .silent hk ((hover k).2 hk)
    | some k' =>
      have hfree : d.threads t = none := by
        generalize d.threads t = th' at hthread ⊢
        cases hthread
        rfl
      refine ⟨d.put d.shared t ⟨k', [], code' k'⟩, ?_, ?_⟩
      · rw [eraseLabel, hk]
        exact Steps.refl.snoc (.start t k' hfree)
      · rw [← h.shared]
        exact h.put ⟨hk, rfl, (hover k).1 k' hk⟩
  | @act t k past r next x s at_ask answer =>
    have hthread := h.threads t
    rw [at_ask] at hthread
    generalize hth' : d.threads t = th' at hthread
    cases r with
    | inl r =>
      obtain ⟨hanswer, hsame⟩ := answer
      cases hthread with
      | silent call rest => cases rest
      | @same _ th' same =>
        obtain ⟨hcall, hpast, hrest⟩ := same
        obtain ⟨k', past', rest'⟩ := th'
        cases hrest with
        | @lower _ _ next' rest =>
          rw [h.shared] at hanswer
          refine ⟨d.put s.1 t ⟨k', past' ++ [⟨r, x⟩], next' x⟩,
            Steps.refl.snoc (.act t hth' hanswer), h.put ⟨hcall, ?_, rest x⟩⟩
          exact (congrArg (· ++ _) hpast).trans (erasePast_snoc_inl ..).symm
    | inr r =>
      obtain ⟨-, hsame⟩ := answer
      refine ⟨d, .refl, h.put_above hsame ?_⟩
      rw [hth']
      cases hthread with
      | silent call rest => exact .silent call (rest x)
      | @same _ th' same =>
        obtain ⟨hcall, hpast, hrest⟩ := same
        cases hrest with
        | other rest =>
          exact .same ⟨hcall, hpast.trans (erasePast_snoc_inr ..).symm, rest x⟩

/-- A run above is a run below once what is asked of the other machine is erased. -/
theorem Run.below (hover : Over under R code code')
    {tr : List (Label (Req₁ ⊕ Req₂) (SumResp Resp₁ Resp₂) κ)} {c : Config (M₁.beside M₂) κ β}
    (h : Run (M₁.beside M₂) code tr c) :
    ∃ d, Run M₁ code' (erase under tr) d ∧ Mirrors under R c d := by
  induction h with
  | refl => exact ⟨initial M₁, .refl, mirrors_initial⟩
  | @snoc tr c' c'' l init last ih =>
    obtain ⟨d, hrun, hmirrors⟩ := ih
    obtain ⟨d', hsteps, hmirrors'⟩ := hmirrors.step hover last
    exact ⟨d', erase_snoc tr l ▸ hrun.append hsteps, hmirrors'⟩

/-! ## Runs above -/

def Machine.Answering (M : Machine Req₂ Resp₂) : Prop :=
  ∀ σ t r, ∃ x σ', M.answers σ t r x σ'

variable (code) in
theorem Mirrors.catch_up (hM : M₂.Answering) {c : Config (M₁.beside M₂) κ β} {d : Config M₁ κ' α}
    (h : Mirrors under R c d) {t : Nat} {th : Thread (Req₁ ⊕ Req₂) (SumResp Resp₁ Resp₂) κ β}
    {th' : Thread Req₁ Resp₁ κ' α} (hth : c.threads t = some th) (hth' : d.threads t = some th') :
    ∃ tr c₁ th₁, Steps code c tr c₁ ∧ erase under tr = [] ∧ Mirrors under R c₁ d ∧
      c₁.threads t = some th₁ ∧ th₁.call = th.call ∧
      (∀ u, u ≠ t → c₁.threads u = c.threads u) ∧
      (∀ a, th'.rest = .ret a → ∃ b, th₁.rest = .ret b ∧ R th.call b a) ∧
      ∀ r next', th'.rest = .ask r next' →
        ∃ next, th₁.rest = .ask (.inl r) next ∧ ∀ x, Erases (R th.call) (next x) (next' x) := by
  have hthread := h.threads t
  rw [hth, hth'] at hthread
  cases hthread with
  | same same =>
    obtain ⟨k, past, rest⟩ := th
    obtain ⟨k', past', rest'⟩ := th'
    obtain ⟨hcall, hpast, hrest⟩ := same
    change Erases (R k) rest rest' at hrest
    induction hrest generalizing c past with
    | @ret b a related =>
      refine ⟨[], c, _, .refl, rfl, h, hth, rfl, fun _ _ => rfl, ?_, fun _ _ hask => by cases hask⟩
      rintro _ ⟨⟩
      exact ⟨b, rfl, related⟩
    | @lower r next next' rest _ =>
      refine ⟨[], c, _, .refl, rfl, h, hth, rfl, fun _ _ => rfl, (fun _ hret => by cases hret), ?_⟩
      rintro _ _ ⟨⟩
      exact ⟨next, rfl, rest⟩
    | @other r next q rest ih =>
      -- one more answer of the machine beside, and the rest of the thread follows
      obtain ⟨x, σ, hanswer⟩ := hM c.shared.2 t r
      have hbeside : (M₁.beside M₂).answers c.shared t (.inr r) x (c.shared.1, σ) := ⟨hanswer, rfl⟩
      have hpast' : past' = erasePast (past ++ [⟨.inr r, x⟩]) :=
        hpast.trans (erasePast_snoc_inr ..).symm
      have hstep : Step code c (.act t ⟨.inr r, x⟩) _ := .act t hth hbeside
      have hsame : ((c.shared.1, σ) : (M₁.beside M₂).State).1 = c.shared.1 := rfl
      have hthread : SameThread under R (some ⟨k, past ++ [⟨.inr r, x⟩], next x⟩)
          (d.threads t) := by
        rw [hth']
        exact .same ⟨hcall, hpast', rest x⟩
      have hmirrors := h.put_above hsame hthread
      obtain ⟨tr, c₁, th₁, hsteps, herase, hm, ht, hk, hothers, hgoes⟩ :=
        ih x hmirrors (past ++ [⟨.inr r, x⟩]) (Config.put_threads_self ..) hth' hcall hpast'
      refine ⟨.act t ⟨.inr r, x⟩ :: tr, c₁, th₁, (Steps.refl.snoc hstep).append hsteps, herase, hm,
        ht, hk, fun u hu => ?_, hgoes⟩
      rw [hothers u hu, Config.put_threads_ne _ _ hu]

/-- What the layer below can do next is done above it, whatever the other machine does. -/
theorem Mirrors.lift (hover : Over under R code code') (hM : M₂.Answering)
    {c : Config (M₁.beside M₂) κ β} {d d' : Config M₁ κ' α} (h : Mirrors under R c d)
    {l : Label Req₁ Resp₁ κ'} (hstep : Step code' d l d')
    (hfresh : ∀ t k', l = .start t k' → c.threads t = none ∧ ∃ k, under k = some k') :
    ∃ tr c', Steps code c tr c' ∧ erase under tr = [l] ∧ Mirrors under R c' d' ∧
      ∀ u, d'.threads u = none → c'.threads u = c.threads u := by
  cases hstep with
  | start t k' free =>
    obtain ⟨hfree, k, hk⟩ := hfresh t k' rfl
    refine ⟨[.start t k], c.put c.shared t ⟨k, [], code k⟩, Steps.refl.snoc (.start t k hfree),
      ?_, ?_, fun u hu => ?_⟩
    · simp [erase, eraseLabel, hk]
    · rw [← h.shared]
      exact h.put ⟨hk, rfl, (hover k).1 k' hk⟩
    · apply Config.put_threads_ne
      rintro rfl
      rw [Config.put_threads_self] at hu
      cases hu
  | @act t k' past' r next' x s at_ask answer =>
    have hthread := h.threads t
    rw [at_ask] at hthread
    generalize hth : c.threads t = th at hthread
    cases hthread with
    | @same th _ same =>
      -- the thread above may have other requests to get through before it asks the same
      obtain ⟨tr, c₁, ⟨k, past, rest⟩, hsteps, herase, hm, ht, -, hothers, -, hgoes⟩ :=
        h.catch_up code hM hth at_ask
      obtain ⟨next, hrest, hnext⟩ := hgoes r next' rfl
      change rest = _ at hrest
      subst hrest
      have hthread₁ := hm.threads t
      rw [ht, at_ask] at hthread₁
      have hshared : c₁.shared.1 = d.shared := hm.shared
      have hbeside : (M₁.beside M₂).answers c₁.shared t (.inl r) x (s, c₁.shared.2) :=
        ⟨hshared ▸ answer, rfl⟩
      refine ⟨tr ++ [.act t ⟨.inl r, x⟩], _, hsteps.snoc (.act t ht hbeside), ?_, ?_,
        fun u hu => ?_⟩
      · rw [erase_snoc, herase]
        rfl
      · cases hthread₁ with
        | same same₁ =>
          obtain ⟨hcall, hpast, hrest⟩ := same₁
          cases hrest with
          | lower rest =>
            refine hm.put ⟨hcall, ?_, rest x⟩
            exact (congrArg (· ++ _) hpast).trans (erasePast_snoc_inl ..).symm
      · have hne : u ≠ t := by
          rintro rfl
          rw [Config.put_threads_self] at hu
          cases hu
        exact (Config.put_threads_ne _ _ hne _).trans (hothers u hne)

/-- Every run below is what is left of a run above. -/
theorem Run.above (hover : Over under R code code') (hM : M₂.Answering)
    {tr : List (Label Req₁ Resp₁ κ')} {d : Config M₁ κ' α} (h : Run M₁ code' tr d)
    (hunder : ∀ t k', .start t k' ∈ tr → ∃ k, under k = some k') :
    ∃ tr' c, Run (M₁.beside M₂) code tr' c ∧ erase under tr' = tr ∧ Mirrors under R c d ∧
      ∀ t, d.threads t = none → c.threads t = none := by
  induction h with
  | refl => exact ⟨[], initial _, .refl, rfl, mirrors_initial, fun _ _ => rfl⟩
  | @snoc tr d d' l init last ih =>
    obtain ⟨tr', c, hrun, herase, hm, hfree⟩ := ih fun t k' hk =>
      hunder t k' (List.mem_append_left _ hk)
    have hfresh : ∀ t k', l = .start t k' → c.threads t = none ∧ ∃ k, under k = some k' := by
      rintro t k' rfl
      refine ⟨hfree t ?_, hunder t k' (List.mem_append_right _ List.mem_cons_self)⟩
      cases last with
      | start _ _ free => exact free
    obtain ⟨tr'', c', hsteps, herase', hm', hsame⟩ := hm.lift hover hM last hfresh
    refine ⟨tr' ++ tr'', c', hrun.append hsteps, ?_, hm', fun t ht => ?_⟩
    · rw [erase_append, herase, herase']
    · rw [hsame t ht]
      exact hfree t (last.free_of_free ht)

end Below

/-! ## Machines that answer as others do -/

section Refines

variable {Req : Type} {Resp : Req → Type} {κ : Type} {M N : Machine Req Resp}
  {f : M.State → N.State} {code : κ → Program Req Resp α}

/-- Whatever `M` answers, `N` could have answered in the state that `f` makes of it. -/
structure Machine.Refines (M N : Machine Req Resp) (f : M.State → N.State) : Prop where
  init : f M.init = N.init
  answers : ∀ s t r x s', M.answers s t r x s' → N.answers (f s) t r x (f s')

def Config.seen (f : M.State → N.State) (c : Config M κ α) : Config N κ α := ⟨f c.shared, c.threads⟩

theorem Machine.Refines.step (h : M.Refines N f) {c c' : Config M κ α} {l : Label Req Resp κ}
    (k : Step code c l c') : Step code (c.seen f) l (c'.seen f) := by
  cases k with
  | start t call free => exact .start t call free
  | act t at_ask answer => exact .act t at_ask (h.answers _ _ _ _ _ answer)

theorem Machine.Refines.run (h : M.Refines N f) {tr : List (Label Req Resp κ)} {c : Config M κ α}
    (k : Run M code tr c) : Run N code tr (c.seen f) := by
  induction k with
  | refl =>
    have hinit : (initial M : Config M κ α).seen f = initial N :=
      congrArg (fun s => (⟨s, fun _ => none⟩ : Config N κ α)) h.init
    rw [hinit]
    exact .refl
  | snoc _ last ih => exact ih.snoc (h.step last)

end Refines

end Interaction
