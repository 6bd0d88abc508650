import Mathlib.Data.List.Nodup

/-! The first match among choices whose order is not fixed. -/

namespace FirstMatch

variable {α β : Type*} {choices : List α} {p : α → Bool} {f : α → β}

/-- Some order of the choices makes `result` their first match. -/
def Possible (choices : List α) (p : α → Bool) (result : Option α) : Prop :=
  ∃ order : List α, order.Perm choices ∧ order.find? p = result

def Agree (choices : List α) (p : α → Bool) (f : α → β) : Prop :=
  ∀ x ∈ choices, ∀ y ∈ choices, p x = true → p y = true → f x = f y

theorem possible_none : Possible choices p none ↔ ∀ x ∈ choices, p x = false := by
  constructor
  · rintro ⟨order, hperm, hnone⟩ x hx
    have hmiss := List.find?_eq_none.mp hnone x (hperm.mem_iff.mpr hx)
    simpa using hmiss
  · intro h
    refine ⟨choices, .refl _, List.find?_eq_none.mpr ?_⟩
    intro x hx
    simp [h x hx]

/-- Any match comes first under some order, namely one that starts with it. -/
theorem possible_some {x : α} : Possible choices p (some x) ↔ x ∈ choices ∧ p x = true := by
  constructor
  · rintro ⟨order, hperm, hfind⟩
    have hmem := List.mem_of_find?_eq_some hfind
    exact ⟨hperm.mem_iff.mp hmem, List.find?_some hfind⟩
  · rintro ⟨hx, hp⟩
    obtain ⟨before, after, rfl⟩ := List.append_of_mem hx
    refine ⟨x :: (before ++ after), List.perm_middle.symm, ?_⟩
    simp [hp]

/-- The order decides nothing that `f` shows exactly when all matches agree on it. -/
theorem possible_agree_iff :
    (∀ r r', Possible choices p r → Possible choices p r' → r.map f = r'.map f) ↔
      Agree choices p f := by
  constructor
  · intro h x hx y hy hpx hpy
    have hxy := h (some x) (some y) (possible_some.mpr ⟨hx, hpx⟩) (possible_some.mpr ⟨hy, hpy⟩)
    simpa using hxy
  · intro h r r' hr hr'
    -- a choice that matches under one order rules out that none does under another
    have hclash : ∀ x, Possible choices p (some x) → ¬Possible choices p none := by
      intro x hx hnone
      obtain ⟨hmem, hp⟩ := possible_some.mp hx
      have hmiss := possible_none.mp hnone x hmem
      simp [hp] at hmiss
    cases r with
    | none =>
      cases r' with
      | none => rfl
      | some y => exact absurd hr (hclash y hr')
    | some x =>
      cases r' with
      | none => exact absurd hr' (hclash x hr)
      | some y =>
        obtain ⟨hx, hpx⟩ := possible_some.mp hr
        obtain ⟨hy, hpy⟩ := possible_some.mp hr'
        have hxy := h x hx y hy hpx hpy
        simp [hxy]

theorem find_key {κ : Type*} [DecidableEq κ] {key : α → κ} {x : α}
    (hnodup : (choices.map key).Nodup) (hx : x ∈ choices) :
    choices.find? (fun y => key y == key x) = some x := by
  have hsome : (choices.find? fun y => key y == key x).isSome :=
    List.find?_isSome.mpr ⟨x, hx, beq_self_eq_true _⟩
  obtain ⟨y, hy⟩ := Option.isSome_iff_exists.mp hsome
  have hkey : key y = key x := eq_of_beq (List.find?_some hy :)
  rw [hy, List.inj_on_of_nodup_map hnodup (List.mem_of_find?_eq_some hy) hx hkey]

end FirstMatch
