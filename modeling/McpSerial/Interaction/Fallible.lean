import McpSerial.Interaction.Program

/-! Programs that may fail, and the rules of a discipline for them: one
postcondition for success and one for failure. -/

namespace Interaction
open Program

variable {Req : Type} {Resp : Req → Type} {ε α β : Type}

abbrev Fallible (Req : Type) (Resp : Req → Type) (ε : Type) := ExceptT ε (Program Req Resp)

namespace Fallible

def ask (r : Req) : Fallible Req Resp ε (Resp r) := ExceptT.lift (request r)

def ofResult (result : Except ε α) : Fallible Req Resp ε α := ExceptT.mk (pure result)

def attempt (p : Fallible Req Resp ε α) : Fallible Req Resp ε (Except ε α) := ExceptT.lift p.run

/-- `body`, and then `release`, however `body` ended. -/
def releasing (release : Req) (body : Fallible Req Resp ε α) : Fallible Req Resp ε α :=
  ExceptT.mk (body.run >>= fun result => request release >>= fun _ => pure result)

end Fallible

namespace Discipline

variable {D : Discipline Req Resp} {s : D.State} {Q : D.State → α → Prop} {E : D.State → ε → Prop}

def either (Q : D.State → α → Prop) (E : D.State → ε → Prop) (s : D.State) : Except ε α → Prop
  | .ok a => Q s a
  | .error e => E s e

/-- `p` asks only admitted requests, succeeds in `Q` and fails in `E`. -/
def Meets (D : Discipline Req Resp) (s : D.State) (p : Fallible Req Resp ε α)
    (Q : D.State → α → Prop) (E : D.State → ε → Prop) : Prop :=
  D.Follows s p.run (either Q E)

theorem either_attempt {R : D.State → Except ε α → Prop} :
    either (fun s' a => R s' (.ok a)) (fun s' e => R s' (.error e)) = R := by
  funext s' result
  cases result <;> rfl

@[simp] theorem meets_pure {a : α} : D.Meets s (pure a) Q E ↔ Q s a := Iff.rfl

@[simp] theorem meets_throw {e : ε} : D.Meets s (throw e) Q E ↔ E s e := Iff.rfl

@[simp] theorem meets_ask {r : Req} {Q : D.State → Resp r → Prop} :
    D.Meets s (Fallible.ask r) Q E ↔ D.admits s r ∧ ∀ x, Q (D.advance s r x) x := Iff.rfl

@[simp] theorem meets_ofResult {result : Except ε α} :
    D.Meets s (Fallible.ofResult result) Q E ↔ either Q E s result := Iff.rfl

@[simp] theorem meets_bind {p : Fallible Req Resp ε α} {f : α → Fallible Req Resp ε β}
    {Q : D.State → β → Prop} :
    D.Meets s (p >>= f) Q E ↔ D.Meets s p (fun s' a => D.Meets s' (f a) Q E) E := by
  have hrun : (p >>= f).run = p.run >>= ExceptT.bindCont f := rfl
  unfold Meets
  rw [hrun, follows_bind]
  have hpost : (fun s' result => D.Follows s' (ExceptT.bindCont f result) (either Q E)) =
      either (fun s' a => D.Follows s' (f a).run (either Q E)) E := by
    funext s' result
    cases result <;> rfl
  rw [hpost]

@[simp] theorem meets_attempt {p : Fallible Req Resp ε α} {R : D.State → Except ε α → Prop} :
    D.Meets s (Fallible.attempt p) R E ↔
      D.Meets s p (fun s' a => R s' (.ok a)) (fun s' e => R s' (.error e)) := by
  have hrun : (Fallible.attempt p).run = p.run >>= fun a => pure (.ok a) := rfl
  unfold Meets
  rw [hrun, follows_bind, either_attempt]
  rfl

@[simp] theorem meets_releasing {release : Req} {body : Fallible Req Resp ε α} :
    D.Meets s (Fallible.releasing release body) Q E ↔
      D.Meets s body
        (fun s' a => D.admits s' release ∧ ∀ x, Q (D.advance s' release x) a)
        (fun s' e => D.admits s' release ∧ ∀ x, E (D.advance s' release x) e) := by
  have hrun : (Fallible.releasing release body).run =
      body.run >>= fun result => request release >>= fun _ => pure result := rfl
  unfold Meets
  rw [hrun, follows_bind]
  have hpost : (fun s' result => D.Follows s' (request release >>= fun _ => pure result)
      (either Q E)) =
      either (fun s' a => D.admits s' release ∧ ∀ x, Q (D.advance s' release x) a)
        (fun s' e => D.admits s' release ∧ ∀ x, E (D.advance s' release x) e) := by
    funext s' result
    cases result <;> rfl
  rw [hpost]

@[simp] theorem follows_run_bind {p : Fallible Req Resp ε α} {f : Except ε α → Program Req Resp β}
    {Q : D.State → β → Prop} :
    D.Follows s (p.run >>= f) Q ↔
      D.Meets s p (fun s' a => D.Follows s' (f (.ok a)) Q)
        (fun s' e => D.Follows s' (f (.error e)) Q) := by
  rw [follows_bind, ← either_attempt (R := fun s' result => D.Follows s' (f result) Q)]
  rfl

theorem Meets.mono {p : Fallible Req Resp ε α} {Q' : D.State → α → Prop}
    {E' : D.State → ε → Prop} (h : D.Meets s p Q E) (hQ : ∀ s' a, Q s' a → Q' s' a)
    (hE : ∀ s' e, E s' e → E' s' e) : D.Meets s p Q' E' := by
  apply Follows.mono h
  intro s' result
  cases result with
  | ok a => exact hQ s' a
  | error e => exact hE s' e

theorem meets_query {r : Req} {next : Resp r → Fallible Req Resp ε α}
    (free : D.admits s r ∧ ∀ x, D.advance s r x = s) (k : ∀ x, D.Meets s (next x) Q E) :
    D.Meets s (Fallible.ask r >>= next) Q E := by
  rw [meets_bind, meets_ask]
  refine ⟨free.1, fun x => ?_⟩
  rw [free.2]
  exact k x

theorem meets_assuming_none {A : (r : Req) → Resp r → Prop} {p : Fallible Req Resp ε α}
    {Q : Option D.State → α → Prop} {E : Option D.State → ε → Prop} (hQ : ∀ a, Q none a)
    (hE : ∀ e, E none e) : (D.assuming A).Meets none p Q E := by
  apply Follows.mono (follows_assuming_none (Q := fun _ _ => False))
  intro s' result hnever
  cases s' with
  | some s₀ => exact (hnever s₀ rfl).elim
  | none =>
    cases result with
    | ok a => exact hQ a
    | error e => exact hE e

theorem meets_assumed_none {A : (r : Req) → Resp r → Prop} {p : Fallible Req Resp ε α} :
    (D.assuming A).Meets none p (assumed Q) (assumed E) :=
  meets_assuming_none (assumed_none Q) (assumed_none E)

/-- The rule for a sequence whose first half has a specification of its own. -/
theorem Meets.bind {p : Fallible Req Resp ε α} {f : α → Fallible Req Resp ε β}
    {R : D.State → β → Prop} (h : D.Meets s p Q E)
    (k : ∀ s' a, Q s' a → D.Meets s' (f a) R E) : D.Meets s (p >>= f) R E :=
  meets_bind.mpr (h.mono k fun _ _ he => he)

theorem assumed_advance {A : (r : Req) → Resp r → Prop} {r : Req} {x : Resp r} {γ : Type}
    {P : D.State → γ → Prop} {b : γ} (k : A r x → P (D.advance s r x) b) :
    assumed P ((D.assuming A).advance (some s) r x) b := by
  by_cases hx : A r x
  · rw [assuming_advance_of hx]
    rintro _ ⟨⟩
    exact k hx
  · rw [assuming_advance_not hx]
    exact assumed_none _ _

/-- The rule for a request whose answer may be taken to be as assumed. -/
theorem meets_assuming_ask {A : (r : Req) → Resp r → Prop} {r : Req}
    {Q : D.State → Resp r → Prop} (admitted : D.admits s r)
    (k : ∀ x, A r x → Q (D.advance s r x) x) :
    (D.assuming A).Meets (some s) (Fallible.ask r) (assumed Q) (assumed E) := by
  refine meets_ask.mpr ⟨?_, fun x => assumed_advance (k x)⟩
  rintro _ ⟨⟩
  exact admitted

theorem Meets.assumed_releasing {A : (r : Req) → Resp r → Prop} {release : Req}
    {body : Fallible Req Resp ε α} {s : Option D.State}
    (free : ∀ s', D.admits s' release ∧ ∀ x, D.advance s' release x = s')
    (h : (D.assuming A).Meets s body (assumed Q) (assumed E)) :
    (D.assuming A).Meets s (Fallible.releasing release body) (assumed Q) (assumed E) := by
  have hkept {γ : Type} {P : D.State → γ → Prop} {b : γ} (s' : Option D.State)
      (hP : assumed P s' b) : (D.assuming A).admits s' release ∧
        ∀ x, assumed P ((D.assuming A).advance s' release x) b := by
    refine ⟨fun s₀ _ => (free s₀).1, fun x => ?_⟩
    cases s' with
    | none =>
      have hnone : (D.assuming A).advance none release x = none := ite_self none
      rw [hnone]
      exact assumed_none P b
    | some s₀ =>
      apply assumed_advance
      rw [(free s₀).2]
      exact fun _ => hP s₀ rfl
  rw [meets_releasing]
  exact h.mono (fun s' _ ha => hkept s' ha) fun s' _ he => hkept s' he

theorem Meets.assumed_bind {A : (r : Req) → Resp r → Prop} {p : Fallible Req Resp ε α}
    {f : α → Fallible Req Resp ε β} {R : D.State → β → Prop} {s : Option D.State}
    (h : (D.assuming A).Meets s p (assumed Q) (assumed E))
    (k : ∀ s' a, Q s' a → (D.assuming A).Meets (some s') (f a) (assumed R) (assumed E)) :
    (D.assuming A).Meets s (p >>= f) (assumed R) (assumed E) := by
  apply h.bind
  intro s' a ha
  cases s' with
  | none => exact meets_assumed_none
  | some s' => exact k s' a (ha s' rfl)

end Discipline
end Interaction
