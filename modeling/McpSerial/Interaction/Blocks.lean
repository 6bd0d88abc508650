import Mathlib.Data.List.Nodup

/-! Sequences of tagged values in which the values of each tag form one block. -/

namespace Interaction

variable {τ β γ : Type} [DecidableEq τ] {order : List τ} {xs : List (τ × β)} {t : τ} {a b : β}

def block (t : τ) (xs : List (τ × β)) : List (τ × β) := xs.filter (·.1 = t)

@[simp] theorem block_append (t : τ) (xs ys : List (τ × β)) :
    block t (xs ++ ys) = block t xs ++ block t ys := List.filter_append ..

@[simp] theorem block_singleton_self (t : τ) (b : β) : block t [(t, b)] = [(t, b)] := by
  simp [block]

theorem block_singleton_ne {t u : τ} (h : t ≠ u) (b : β) : block u [(t, b)] = [] := by
  simp [block, h]

theorem mem_block {x : τ × β} : x ∈ block t xs ↔ x ∈ xs ∧ x.1 = t := by
  simp [block]

/-- The values are the blocks of the tags of `order`, one after the other. -/
structure Blocks (order : List τ) (xs : List (τ × β)) : Prop where
  nodup : order.Nodup
  eq : xs = order.flatMap fun t => block t xs

theorem Blocks.nil : Blocks ([] : List τ) ([] : List (τ × β)) := ⟨List.nodup_nil, rfl⟩

theorem Blocks.tag_mem (h : Blocks order xs) {x : τ × β} (hx : x ∈ xs) : x.1 ∈ order := by
  rw [h.eq] at hx
  obtain ⟨t, ht, hxt⟩ := List.mem_flatMap.mp hx
  rw [(mem_block.mp hxt).2]
  exact ht

theorem Blocks.block_eq_nil (h : Blocks order xs) (ht : t ∉ order) : block t xs = [] := by
  apply List.filter_eq_nil_iff.mpr
  intro x hx hxt
  have htag : x.1 = t := by simpa using hxt
  exact ht (htag ▸ h.tag_mem hx)

theorem Blocks.open (h : Blocks order xs) (ht : t ∉ order) : Blocks (order ++ [t]) xs where
  nodup := by
    apply List.Nodup.append h.nodup (List.nodup_singleton t)
    simpa using ht
  eq := by
    rw [List.flatMap_append, ← h.eq, List.flatMap_singleton, h.block_eq_nil ht, List.append_nil]

theorem Blocks.extend (h : Blocks (order ++ [t]) xs) (b : β) :
    Blocks (order ++ [t]) (xs ++ [(t, b)]) where
  nodup := h.nodup
  eq := by
    have hold : ∀ u ∈ order, block u (xs ++ [(t, b)]) = block u xs := by
      intro u hu
      have hne : t ≠ u := by
        rintro rfl
        exact List.disjoint_of_nodup_append h.nodup hu (List.mem_singleton_self _)
      rw [block_append, block_singleton_ne hne, List.append_nil]
    have hsplit := h.eq
    rw [List.flatMap_append, List.flatMap_singleton] at hsplit
    rw [List.flatMap_append, List.flatMap_singleton, List.flatMap_congr hold, block_append,
      block_singleton_self, ← List.append_assoc, ← hsplit]

theorem Blocks.flatMap_eq (h : Blocks order xs) (f : τ × β → List γ) :
    xs.flatMap f = order.flatMap fun t => (block t xs).flatMap f := by
  conv_lhs => rw [h.eq]
  exact List.flatMap_assoc

theorem Blocks.pairwise (h : Blocks order xs) :
    xs.Pairwise fun x y => order.idxOf x.1 ≤ order.idxOf y.1 := by
  have horder : order.Pairwise fun t u => order.idxOf t ≤ order.idxOf u := by
    rw [List.pairwise_iff_getElem]
    intro i j hi hj hij
    rw [h.nodup.idxOf_getElem i hi, h.nodup.idxOf_getElem j hj]
    exact Nat.le_of_lt hij
  rw [h.eq, List.pairwise_flatMap]
  constructor
  · intro t _
    apply List.pairwise_of_forall_mem_list
    intro x hx y hy
    exact Nat.le_of_eq (by rw [(mem_block.mp hx).2, (mem_block.mp hy).2])
  · apply horder.imp
    intro t u htu x hx y hy
    rw [(mem_block.mp hx).2, (mem_block.mp hy).2]
    exact htu

/-- Between two values of one tag there is no value of another. -/
theorem Blocks.uninterrupted (h : Blocks order xs) {before during after : List (τ × β)}
    (hxs : xs = before ++ [(t, a)] ++ during ++ [(t, b)] ++ after) : ∀ x ∈ during, x.1 = t := by
  intro x hx
  have hmem : x ∈ xs := by simp [hxs, hx]
  have hpair := h.pairwise
  rw [hxs] at hpair
  simp only [List.append_assoc, List.singleton_append, List.pairwise_append,
    List.pairwise_cons, List.mem_append, List.mem_cons] at hpair
  have hfirst : order.idxOf t ≤ order.idxOf x.1 := hpair.2.1.1.1 x hx
  have hlast : order.idxOf x.1 ≤ order.idxOf t := hpair.2.1.2.2 x (.inr hx) (t, b) (.inl rfl)
  exact (List.idxOf_inj (h.tag_mem hmem)).mp (Nat.le_antisymm hlast hfirst)

/-- Two cuts of a sequence right before a value of `t`, with as many values of `t` before
them, are one cut. -/
theorem eq_of_block_eq {xs ys xs' ys' : List (τ × β)}
    (h : xs ++ (t, a) :: ys = xs' ++ (t, b) :: ys') (hblock : block t xs = block t xs') :
    xs = xs' := by
  induction xs generalizing xs' with
  | nil =>
    cases xs' with
    | nil => rfl
    | cons x xs' =>
      obtain ⟨rfl, _⟩ := List.cons.inj h
      simp [block] at hblock
  | cons x xs ih =>
    cases xs' with
    | nil =>
      obtain ⟨rfl, _⟩ := List.cons.inj h
      simp [block] at hblock
    | cons x' xs' =>
      obtain ⟨rfl, htail⟩ := List.cons.inj h
      have hrest : block t xs = block t xs' := by
        by_cases hx : x.1 = t
        · simpa [block, hx] using hblock
        · simpa [block, hx] using hblock
      rw [ih htail hrest]

theorem Blocks.before {ts us : List τ} {before after : List (τ × β)} (h : Blocks (ts ++ t :: us) xs)
    (hxs : xs = before ++ (t, b) :: after) :
    before = (ts.flatMap fun u => block u xs) ++ block t before := by
  have hown : block t xs = block t before ++ (t, b) :: block t after := by
    rw [hxs]
    simp [block]
  have hsplit : before ++ (t, b) :: after = ((ts.flatMap fun u => block u xs) ++ block t before) ++
      (t, b) :: (block t after ++ us.flatMap fun u => block u xs) := by
    rw [← hxs]
    conv_lhs => rw [h.eq]
    rw [List.flatMap_append, List.flatMap_cons, hown]
    simp only [List.append_assoc, List.cons_append]
  have hothers : block t (ts.flatMap fun u => block u xs) = [] := by
    refine List.filter_eq_nil_iff.mpr fun x hx => ?_
    obtain ⟨u, hu, hxu⟩ := List.mem_flatMap.mp hx
    have hne : u ≠ t := by
      rintro rfl
      exact List.disjoint_of_nodup_append h.nodup hu List.mem_cons_self
    simp [(mem_block.mp hxu).2, hne]
  apply eq_of_block_eq hsplit
  rw [block_append, hothers, List.nil_append]
  simp [block]

end Interaction
