import McpSerial.Selection.Fields

/-! A list of named fields in the order of its names, as a sorted map lists it. -/

namespace Fields

variable {κ β γ : Type*} [LinearOrder κ]

def sorted (l : List (κ × β)) : List (κ × β) := l.insertionSort fun x y => x.1 ≤ y.1

theorem mem_sorted {l : List (κ × β)} {x : κ × β} : x ∈ sorted l ↔ x ∈ l :=
  List.mem_insertionSort _

theorem map_sorted (f : β → γ) (l : List (κ × β)) :
    (sorted l).map (fun x => (x.1, f x.2)) = sorted (l.map fun x => (x.1, f x.2)) :=
  List.map_insertionSort _ _ _ _ fun _ _ _ _ => Iff.rfl

theorem lookup_cons_ne {x : κ × β} {k : κ} (h : k ≠ x.1) (l : List (κ × β)) :
    (x :: l).lookup k = l.lookup k := by
  rw [List.lookup_cons, beq_false_of_ne h]

theorem lookup_cons_self (x : κ × β) (l : List (κ × β)) : (x :: l).lookup x.1 = some x.2 :=
  List.lookup_cons_self

theorem lookup_orderedInsert (x : κ × β) (l : List (κ × β)) (k : κ) :
    (l.orderedInsert (fun x y => x.1 ≤ y.1) x).lookup k = (x :: l).lookup k := by
  induction l with
  | nil => rfl
  | cons y l ih =>
    rw [List.orderedInsert_cons]
    split
    · rfl
    · next hlt =>
      have hne : y.1 ≠ x.1 := fun heq => hlt (heq ▸ le_refl _)
      by_cases hy : k = y.1
      · subst hy
        rw [lookup_cons_self, lookup_cons_ne hne, lookup_cons_self]
      · rw [lookup_cons_ne hy, ih]
        by_cases hx : k = x.1
        · subst hx
          rw [lookup_cons_self, lookup_cons_self]
        · rw [lookup_cons_ne hx, lookup_cons_ne hx, lookup_cons_ne hy]

theorem lookup_sorted (l : List (κ × β)) (k : κ) : (sorted l).lookup k = l.lookup k := by
  induction l with
  | nil => rfl
  | cons x l ih =>
    rw [sorted, List.insertionSort_cons, lookup_orderedInsert]
    by_cases hx : k = x.1
    · subst hx
      rw [lookup_cons_self, lookup_cons_self]
    · rw [lookup_cons_ne hx, lookup_cons_ne hx]
      exact ih

theorem ascending_sorted {l : List (κ × β)} (h : (l.map Prod.fst).Nodup) :
    Ascending (sorted l) := by
  have hpairs : (sorted l).Pairwise fun x y => x.1 ≤ y.1 := List.pairwise_insertionSort _ _
  have hnames : ((sorted l).map Prod.fst).Nodup :=
    ((List.perm_insertionSort _ _).map Prod.fst).nodup_iff.mpr h
  exact List.Pairwise.imp₂ (fun _ _ hle hne => lt_of_le_of_ne hle hne)
    (List.pairwise_map.mpr hpairs) hnames

end Fields
