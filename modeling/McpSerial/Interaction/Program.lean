/-! Programs that ask typed requests, the answers they are given, and
disciplines that such programs follow. A discipline tracks a state along the
answers and says in every state which request may come next. -/

namespace Interaction

/-- A program either returns or asks a request and resumes with the answer. -/
inductive Program (Req : Type) (Resp : Req → Type) (α : Type) where
  | ret (a : α)
  | ask (r : Req) (next : Resp r → Program Req Resp α)

structure Event (Req : Type) (Resp : Req → Type) where
  req : Req
  resp : Resp req

variable {Req : Type} {Resp : Req → Type} {α β : Type}

namespace Program

def bind : Program Req Resp α → (α → Program Req Resp β) → Program Req Resp β
  | ret a, f => f a
  | ask r next, f => ask r fun x => (next x).bind f

instance : Monad (Program Req Resp) where
  pure := ret
  bind := bind

def request (r : Req) : Program Req Resp (Resp r) := ask r ret

@[simp] theorem ret_bind (a : α) (f : α → Program Req Resp β) : (ret a >>= f) = f a := rfl

@[simp] theorem ask_bind (r : Req) (next : Resp r → Program Req Resp α)
    (f : α → Program Req Resp β) : (ask r next >>= f) = ask r fun x => next x >>= f := rfl

theorem bind_assoc {γ : Type} (p : Program Req Resp α) (f : α → Program Req Resp β)
    (g : β → Program Req Resp γ) : ((p >>= f) >>= g) = p >>= fun a => f a >>= g := by
  induction p with
  | ret a => rfl
  | ask r next ih =>
    rw [ask_bind, ask_bind, ask_bind]
    exact congrArg (ask r) (funext ih)

end Program

open Program

/-! ## Answered programs -/

/-- `Runs p es q`: the answers `es` take `p` to the rest `q`. -/
inductive Runs : Program Req Resp α → List (Event Req Resp) → Program Req Resp α → Prop where
  | refl (p : Program Req Resp α) : Runs p [] p
  | step {r : Req} {next : Resp r → Program Req Resp α} {x : Resp r}
      {es : List (Event Req Resp)} {q : Program Req Resp α}
      (tail : Runs (next x) es q) : Runs (ask r next) (⟨r, x⟩ :: es) q

@[simp] theorem runs_nil {p q : Program Req Resp α} : Runs p [] q ↔ q = p := by
  constructor
  · rintro ⟨⟩
    rfl
  · rintro rfl
    exact .refl q

@[simp] theorem runs_ret {a : α} {es : List (Event Req Resp)} {q : Program Req Resp α} :
    Runs (ret a) es q ↔ es = [] ∧ q = ret a := by
  constructor
  · rintro ⟨⟩
    exact ⟨rfl, rfl⟩
  · rintro ⟨rfl, rfl⟩
    exact .refl _

theorem not_runs_ask {p : Program Req Resp α} {es : List (Event Req Resp)} {r : Req}
    {next : Resp r → Program Req Resp α} (hp : ∃ a, p = ret a) : ¬Runs p es (ask r next) := by
  obtain ⟨a, rfl⟩ := hp
  intro h
  cases (runs_ret.mp h).2

theorem runs_ask {r : Req} {next : Resp r → Program Req Resp α}
    {es : List (Event Req Resp)} {q : Program Req Resp α} :
    Runs (ask r next) es q ↔
      (es = [] ∧ q = ask r next) ∨ ∃ x es', es = ⟨r, x⟩ :: es' ∧ Runs (next x) es' q := by
  constructor
  · rintro (_ | ⟨tail⟩)
    · exact .inl ⟨rfl, rfl⟩
    · exact .inr ⟨_, _, rfl, tail⟩
  · rintro (⟨rfl, rfl⟩ | ⟨x, es', rfl, tail⟩)
    · exact .refl _
    · exact .step tail

theorem runs_ask_ret {r : Req} {next : Resp r → Program Req Resp α}
    {es : List (Event Req Resp)} {a : α} :
    Runs (ask r next) es (ret a) ↔ ∃ x es', es = ⟨r, x⟩ :: es' ∧ Runs (next x) es' (ret a) := by
  rw [runs_ask, or_iff_right]
  rintro ⟨_, hret⟩
  cases hret

theorem runs_answer {r : Req} {next : Resp r → Program Req Resp α} {x : Resp r}
    {q : Program Req Resp α} : Runs (ask r next) [⟨r, x⟩] q ↔ q = next x := by
  constructor
  · intro h
    cases h with
    | step tail => exact runs_nil.mp tail
  · rintro rfl
    exact .step (.refl _)

theorem Runs.unique {p q q' : Program Req Resp α} {es : List (Event Req Resp)} (h : Runs p es q)
    (k : Runs p es q') : q = q' := by
  induction h with
  | refl p => exact (runs_nil.mp k).symm
  | step tail ih =>
    cases k with
    | step tail' => exact ih tail'

theorem Runs.append {p q s : Program Req Resp α} {es fs : List (Event Req Resp)}
    (h : Runs p es q) (k : Runs q fs s) : Runs p (es ++ fs) s := by
  induction h with
  | refl p => exact k
  | step tail ih => exact .step (ih k)

theorem Runs.snoc {p : Program Req Resp α} {es : List (Event Req Resp)} {r : Req}
    {next : Resp r → Program Req Resp α} (h : Runs p es (ask r next)) (x : Resp r) :
    Runs p (es ++ [⟨r, x⟩]) (next x) :=
  h.append (.step (.refl _))

theorem Runs.under {p q : Program Req Resp α} {es : List (Event Req Resp)} (h : Runs p es q)
    (f : α → Program Req Resp β) : Runs (p >>= f) es (q >>= f) := by
  induction h with
  | refl p => exact .refl _
  | step tail ih => exact .step ih

theorem Runs.bind {p : Program Req Resp α} {es : List (Event Req Resp)} {a : α}
    (h : Runs p es (ret a)) (f : α → Program Req Resp β) : Runs (p >>= f) es (f a) :=
  h.under f

theorem Runs.cut {p q : Program Req Resp α} {before after : List (Event Req Resp)}
    {e : Event Req Resp} (h : Runs p (before ++ e :: after) q) :
    ∃ next, Runs p before (ask e.req next) ∧ Runs (next e.resp) after q := by
  induction before generalizing p with
  | nil =>
    cases h with
    | step tail => exact ⟨_, .refl _, tail⟩
  | cons e' before ih =>
    cases h with
    | step tail =>
      obtain ⟨next, h, k⟩ := ih tail
      exact ⟨next, .step h, k⟩

/-- A complete run of `p >>= f` is one of `p` followed by one of `f`. -/
theorem runs_bind_ret {p : Program Req Resp α} {f : α → Program Req Resp β}
    {es : List (Event Req Resp)} {b : β} :
    Runs (p >>= f) es (ret b) ↔
      ∃ a es₁ es₂, es = es₁ ++ es₂ ∧ Runs p es₁ (ret a) ∧ Runs (f a) es₂ (ret b) := by
  constructor
  · intro h
    induction p generalizing es with
    | ret a => exact ⟨a, [], es, rfl, .refl _, h⟩
    | ask r next ih =>
      rcases runs_ask.mp h with ⟨_, hq⟩ | ⟨x, es', rfl, tail⟩
      · cases hq
      · obtain ⟨a, es₁, es₂, rfl, k, l⟩ := ih x tail
        exact ⟨a, ⟨r, x⟩ :: es₁, es₂, rfl, .step k, l⟩
  · rintro ⟨a, es₁, es₂, rfl, h, k⟩
    exact (h.bind f).append k

/-- A request of `p >>= f` is asked by `p`, or by `f` once `p` has returned. -/
theorem Runs.bind_ask {p : Program Req Resp α} {f : α → Program Req Resp β}
    {es : List (Event Req Resp)} {r : Req} {next : Resp r → Program Req Resp β}
    (h : Runs (p >>= f) es (ask r next)) :
    (∃ next', Runs p es (ask r next')) ∨
      ∃ a es₁ es₂, es = es₁ ++ es₂ ∧ Runs p es₁ (ret a) ∧ Runs (f a) es₂ (ask r next) := by
  induction p generalizing es with
  | ret a => exact .inr ⟨a, [], es, rfl, .refl _, h⟩
  | ask r' next' ih =>
    rcases runs_ask.mp h with ⟨rfl, hq⟩ | ⟨x, es', rfl, tail⟩
    · cases hq
      exact .inl ⟨next', .refl _⟩
    · rcases ih x tail with ⟨next'', k⟩ | ⟨a, es₁, es₂, rfl, k, l⟩
      · exact .inl ⟨next'', .step k⟩
      · exact .inr ⟨a, ⟨r', x⟩ :: es₁, es₂, rfl, .step k, l⟩

/-! ## Disciplines -/

/-- A discipline tracks a state along the answers and admits requests by it. -/
structure Discipline (Req : Type) (Resp : Req → Type) where
  State : Type
  admits : State → Req → Prop
  advance : State → (r : Req) → Resp r → State

namespace Discipline

def after (D : Discipline Req Resp) (s : D.State) (es : List (Event Req Resp)) : D.State :=
  es.foldl (fun s e => D.advance s e.req e.resp) s

@[simp] theorem after_nil (D : Discipline Req Resp) (s : D.State) : D.after s [] = s := rfl

@[simp] theorem after_cons (D : Discipline Req Resp) (s : D.State) (e : Event Req Resp)
    (es : List (Event Req Resp)) :
    D.after s (e :: es) = D.after (D.advance s e.req e.resp) es := rfl

@[simp] theorem after_append (D : Discipline Req Resp) (s : D.State)
    (es fs : List (Event Req Resp)) : D.after s (es ++ fs) = D.after (D.after s es) fs :=
  List.foldl_append

/-- Whatever the answers, `p` asks only admitted requests and returns in `Q`. -/
def Follows (D : Discipline Req Resp) : D.State → Program Req Resp α →
    (D.State → α → Prop) → Prop
  | s, ret a, Q => Q s a
  | s, ask r next, Q => D.admits s r ∧ ∀ x, D.Follows (D.advance s r x) (next x) Q

variable {D : Discipline Req Resp}

@[simp] theorem follows_ret {s : D.State} {a : α} {Q : D.State → α → Prop} :
    D.Follows s (ret a) Q ↔ Q s a := Iff.rfl

@[simp] theorem follows_pure {s : D.State} {a : α} {Q : D.State → α → Prop} :
    D.Follows s (pure a) Q ↔ Q s a := Iff.rfl

@[simp] theorem follows_ask {s : D.State} {r : Req} {next : Resp r → Program Req Resp α}
    {Q : D.State → α → Prop} : D.Follows s (ask r next) Q ↔
      D.admits s r ∧ ∀ x, D.Follows (D.advance s r x) (next x) Q := Iff.rfl

@[simp] theorem follows_request {s : D.State} {r : Req} {Q : D.State → Resp r → Prop} :
    D.Follows s (request r) Q ↔ D.admits s r ∧ ∀ x, Q (D.advance s r x) x := Iff.rfl

@[simp] theorem follows_bind {s : D.State} {p : Program Req Resp α}
    {f : α → Program Req Resp β} {Q : D.State → β → Prop} :
    D.Follows s (p >>= f) Q ↔ D.Follows s p fun s' a => D.Follows s' (f a) Q := by
  induction p generalizing s with
  | ret a => rfl
  | ask r next ih => simp only [ask_bind, follows_ask, ih]

theorem Follows.mono {s : D.State} {p : Program Req Resp α} {Q Q' : D.State → α → Prop}
    (h : D.Follows s p Q) (hQ : ∀ s' a, Q s' a → Q' s' a) : D.Follows s p Q' := by
  induction p generalizing s with
  | ret a => exact hQ s a h
  | ask r next ih => exact ⟨h.1, fun x => ih x (h.2 x)⟩

theorem Follows.runs {s : D.State} {p q : Program Req Resp α} {es : List (Event Req Resp)}
    {Q : D.State → α → Prop} (h : D.Follows s p Q) (k : Runs p es q) :
    D.Follows (D.after s es) q Q := by
  induction k generalizing s with
  | refl p => exact h
  | step tail ih => exact ih (h.2 _)

theorem Follows.returns {s : D.State} {p : Program Req Resp α} {es : List (Event Req Resp)}
    {a : α} {Q : D.State → α → Prop} (h : D.Follows s p Q) (k : Runs p es (ret a)) :
    Q (D.after s es) a := h.runs k

theorem Follows.asks {s : D.State} {p : Program Req Resp α} {es : List (Event Req Resp)}
    {r : Req} {next : Resp r → Program Req Resp α} {Q : D.State → α → Prop}
    (h : D.Follows s p Q) (k : Runs p es (ask r next)) : D.admits (D.after s es) r :=
  (h.runs k).1

theorem Follows.mem {P : Req → Prop} {s : D.State} {p q : Program Req Resp α}
    {es : List (Event Req Resp)} {Q : D.State → α → Prop} (h : D.Follows s p Q) (k : Runs p es q)
    (hP : ∀ s r, D.admits s r → P r) : ∀ e ∈ es, P e.req := by
  intro e he
  obtain ⟨before, after, rfl⟩ := List.append_of_mem he
  obtain ⟨next, hbefore, _⟩ := k.cut
  exact hP _ _ (h.asks hbefore)

/-- What every admitted answer keeps holds at every point of a run. -/
theorem Follows.invariant {I : D.State → Prop} {s : D.State} {p q : Program Req Resp α}
    {es : List (Event Req Resp)} {Q : D.State → α → Prop} (h : D.Follows s p Q) (k : Runs p es q)
    (init : I s) (step : ∀ s r x, I s → D.admits s r → I (D.advance s r x)) :
    I (D.after s es) := by
  induction k generalizing s with
  | refl p => exact init
  | @step r next x es q tail ih => exact ih (h.2 x) (step s r x init h.1)

abbrev only (P : Req → Prop) : Discipline Req Resp := ⟨Unit, fun _ r => P r, fun _ _ _ => ()⟩

theorem Follows.only_mono {P P' : Req → Prop} {p : Program Req Resp α} {Q : Unit → α → Prop}
    (h : (only P).Follows () p Q) (hP : ∀ r, P r → P' r) : (only P').Follows () p Q := by
  induction p with
  | ret a => exact h
  | ask r next ih => exact ⟨hP r h.1, fun x => ih x (h.2 x)⟩

theorem Follows.only_mem {P : Req → Prop} {p q : Program Req Resp α} {Q : Unit → α → Prop}
    {es : List (Event Req Resp)} (h : (only P).Follows () p Q) (k : Runs p es q) :
    ∀ e ∈ es, P e.req :=
  h.mem k fun _ _ hr => hr

/-- A program that asks only what satisfies `P` follows any discipline in which such
requests are admitted and keep an invariant. -/
theorem Follows.of_only {P : Req → Prop} {I : D.State → Prop} {s : D.State}
    {p : Program Req Resp α} {Q : Unit → α → Prop} (h : (only P).Follows () p Q) (init : I s)
    (step : ∀ s r, I s → P r → D.admits s r ∧ ∀ x, I (D.advance s r x)) :
    D.Follows s p fun s' _ => I s' := by
  induction p generalizing s with
  | ret a => exact init
  | ask r next ih =>
    obtain ⟨hadmits, hkeeps⟩ := step s r init h.1
    exact ⟨hadmits, fun x => ih x (h.2 x) (hkeeps x)⟩

/-! ## Assumptions on the answers -/

section Assuming
open Classical

/-- The discipline `D` for as long as every answer satisfies `A`, and none after that. -/
noncomputable abbrev assuming (D : Discipline Req Resp) (A : (r : Req) → Resp r → Prop) :
    Discipline Req Resp where
  State := Option D.State
  admits s r := ∀ s₀, s = some s₀ → D.admits s₀ r
  advance s r x := if A r x then s.map fun s₀ => D.advance s₀ r x else none

variable {A : (r : Req) → Resp r → Prop}

def assumed (Q : D.State → α → Prop) (s : Option D.State) (a : α) : Prop :=
  ∀ s₀, s = some s₀ → Q s₀ a

theorem assumed_none (Q : D.State → α → Prop) (a : α) : assumed Q none a := by
  intro s₀ h
  cases h

theorem assuming_advance_of {s : D.State} {r : Req} {x : Resp r} (h : A r x) :
    (D.assuming A).advance (some s) r x = some (D.advance s r x) := if_pos h

theorem assuming_advance_not {s : Option D.State} {r : Req} {x : Resp r} (h : ¬A r x) :
    (D.assuming A).advance s r x = none := if_neg h

theorem follows_assuming_none {p : Program Req Resp α} {Q : D.State → α → Prop} :
    (D.assuming A).Follows none p (assumed Q) := by
  induction p with
  | ret a => nofun
  | ask r next ih =>
    refine ⟨nofun, fun x => ?_⟩
    have hnone : (D.assuming A).advance none r x = none := ite_self none
    rw [hnone]
    exact ih x

theorem Follows.assuming {s : D.State} {p : Program Req Resp α} {Q : D.State → α → Prop}
    (h : D.Follows s p Q) : (D.assuming A).Follows (some s) p (assumed Q) := by
  induction p generalizing s with
  | ret a =>
    rintro _ ⟨⟩
    exact h
  | ask r next ih =>
    refine ⟨?_, fun x => ?_⟩
    · rintro _ ⟨⟩
      exact h.1
    · by_cases hx : A r x
      · rw [assuming_advance_of hx]
        exact ih x (h.2 x)
      · rw [assuming_advance_not hx]
        exact follows_assuming_none

theorem assuming_after {s : D.State} {es : List (Event Req Resp)} (h : ∀ e ∈ es, A e.req e.resp) :
    (D.assuming A).after (some s) es = some (D.after s es) := by
  induction es generalizing s with
  | nil => rfl
  | cons e es ih =>
    rw [after_cons, assuming_advance_of (h e List.mem_cons_self), after_cons]
    exact ih fun e' he' => h e' (List.mem_cons_of_mem _ he')

/-- As long as the assumption holds only what satisfies `P` is asked. -/
theorem Follows.assuming_mem {P : Req → Prop} {p q : Program Req Resp α}
    {es : List (Event Req Resp)} {Q : Option Unit → α → Prop}
    (h : ((only P).assuming A).Follows (some ()) p Q) (k : Runs p es q)
    (hA : ∀ e ∈ es, A e.req e.resp) : ∀ e ∈ es, P e.req := by
  induction k with
  | refl p => nofun
  | @step r next x es q tail ih =>
    have hx : A r x := hA ⟨r, x⟩ List.mem_cons_self
    have hnext := h.2 x
    rw [assuming_advance_of hx] at hnext
    intro e he
    rcases List.mem_cons.mp he with rfl | he
    · exact h.1 () rfl
    · exact ih hnext (fun e he => hA e (List.mem_cons_of_mem _ he)) e he

end Assuming

end Discipline
end Interaction
