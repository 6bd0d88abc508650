import Mathlib.Data.List.Sort

/-! Records as lists of named fields, and two of them that differ under some names only. -/

namespace Fields

variable {κ β : Type*} {hidden : List κ} {l l' : List (κ × β)}

/-- The same names in the same order, with one value under every name that is not hidden. -/
def AgreeOff (hidden : List κ) (l l' : List (κ × β)) : Prop :=
  List.Forall₂ (fun x y => x.1 = y.1 ∧ (x.1 ∉ hidden → x.2 = y.2)) l l'

theorem AgreeOff.cons {x y : κ × β} (h : AgreeOff hidden l l') (hname : x.1 = y.1)
    (hvalue : x.1 ∉ hidden → x.2 = y.2) : AgreeOff hidden (x :: l) (y :: l') :=
  List.Forall₂.cons ⟨hname, hvalue⟩ h

theorem AgreeOff.refl (hidden : List κ) (l : List (κ × β)) : AgreeOff hidden l l :=
  List.forall₂_same.mpr fun _ _ => ⟨rfl, fun _ => rfl⟩

theorem AgreeOff.symm (h : AgreeOff hidden l l') : AgreeOff hidden l' l :=
  h.flip.imp fun _ _ hxy => ⟨hxy.1.symm, fun hy => (hxy.2 (hxy.1 ▸ hy)).symm⟩

theorem AgreeOff.trans {l'' : List (κ × β)} (h : AgreeOff hidden l l')
    (k : AgreeOff hidden l' l'') : AgreeOff hidden l l'' := by
  induction h generalizing l'' with
  | nil => exact k
  | cons hxy _ ih =>
    cases k with
    | cons hyz k =>
      refine (ih k).cons (hxy.1.trans hyz.1) fun hx => ?_
      exact (hxy.2 hx).trans (hyz.2 (hxy.1 ▸ hx))

theorem AgreeOff.lookup [DecidableEq κ] (h : AgreeOff hidden l l') {k : κ} (hk : k ∉ hidden) :
    l.lookup k = l'.lookup k := by
  induction h with
  | nil => rfl
  | @cons x y l l' hxy _ ih =>
    obtain ⟨name, v⟩ := x
    obtain ⟨name', w⟩ := y
    obtain ⟨rfl, hvalue⟩ : name = name' ∧ (name ∉ hidden → v = w) := hxy
    by_cases hname : k = name
    · subst hname
      rw [List.lookup_cons_self, List.lookup_cons_self, hvalue hk]
    · rw [List.lookup_cons, List.lookup_cons, beq_false_of_ne hname]
      exact ih

theorem map_eq_of_rel {α : Type*} {R : β → β → Prop} {f : β → α} {x y : Option β}
    (h : Option.Rel R x y) (hf : ∀ v w, R v w → f v = f w) : x.map f = y.map f := by
  cases h with
  | some hvw => exact congrArg some (hf _ _ hvw)
  | none => rfl

def Ascending [LT κ] (l : List (κ × β)) : Prop := (l.map Prod.fst).Pairwise (· < ·)

theorem mem_keys [DecidableEq κ] {k : κ} : k ∈ l.map Prod.fst ↔ (l.lookup k).isSome = true := by
  simp only [List.mem_map, List.lookup_isSome_iff, beq_iff_eq]
  constructor
  · rintro ⟨p, hp, rfl⟩
    exact ⟨p, hp, rfl⟩
  · rintro ⟨p, hp, rfl⟩
    exact ⟨p, hp, rfl⟩

theorem Ascending.keys_eq [LinearOrder κ] (hl : Ascending l) (hl' : Ascending l')
    (h : ∀ k, (l.lookup k).isSome = (l'.lookup k).isSome) :
    l.map Prod.fst = l'.map Prod.fst := by
  apply List.Pairwise.eq_of_mem_iff hl hl'
  intro k
  rw [mem_keys, mem_keys, h k]

end Fields
