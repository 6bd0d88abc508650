import Mathlib.Data.List.DropRight
import Mathlib.Data.Nat.Find

/-! A window that keeps the last bytes of a stream, and the first place in a stream
where a terminator ends. -/

namespace Sliding

variable {α : Type}

/-! ## The last `n` items -/

theorem rtake_length (xs : List α) (n : Nat) : (xs.rtake n).length = min xs.length n := by
  unfold List.rtake
  rw [List.length_drop]
  omega

theorem rtake_of_le {xs : List α} {n : Nat} (h : xs.length ≤ n) : xs.rtake n = xs := by
  unfold List.rtake
  rw [Nat.sub_eq_zero_of_le h, List.drop_zero]

theorem rtake_append_rtake (xs ys : List α) (n : Nat) :
    (xs.rtake n ++ ys).rtake n = (xs ++ ys).rtake n := by
  have hcut : xs.rtake n ++ ys = (xs ++ ys).drop (xs.length - n) := by
    rw [List.drop_append_of_le_length (Nat.sub_le ..)]
    rfl
  rw [hcut]
  unfold List.rtake
  rw [List.drop_drop, List.length_drop, List.length_append]
  congr 1
  omega

/-! ## Where a terminator ends -/

def EndsAt (t xs : List α) (p : Nat) : Prop := p ≤ xs.length ∧ t <:+ xs.take p

/-- `p` is the first position of `xs` at which `t` ends. -/
structure FirstEnd (t xs : List α) (p : Nat) : Prop where
  ends : EndsAt t xs p
  first : ∀ q, EndsAt t xs q → p ≤ q

section Ends

variable {t xs ys : List α} {p q k : Nat}

theorem EndsAt.length_le (h : EndsAt t xs p) : t.length ≤ p := by
  have hlen := h.2.length_le
  rw [List.length_take] at hlen
  omega

theorem endsAt_length : EndsAt t xs t.length ↔ t <+: xs := by
  constructor
  · rintro ⟨hle, hsuffix⟩
    have heq : t = xs.take t.length := hsuffix.eq_of_length (by rw [List.length_take]; omega)
    exact heq ▸ List.take_prefix ..
  · intro h
    exact ⟨h.length_le, [], List.prefix_iff_eq_take.mp h⟩

open Classical in
theorem EndsAt.exists_first (h : EndsAt t xs p) : ∃ q, FirstEnd t xs q := by
  have hex : ∃ q, EndsAt t xs q := ⟨p, h⟩
  exact ⟨Nat.find hex, Nat.find_spec hex, fun q hq => Nat.find_min' hex hq⟩

theorem FirstEnd.unique (h : FirstEnd t xs p) (k : FirstEnd t xs q) : p = q :=
  Nat.le_antisymm (h.first q k.ends) (k.first p h.ends)

theorem EndsAt.append (h : EndsAt t xs p) (ys : List α) : EndsAt t (xs ++ ys) p := by
  refine ⟨h.1.trans (by simp), ?_⟩
  rw [List.take_append_of_le_length h.1]
  exact h.2

theorem EndsAt.of_append (h : EndsAt t (xs ++ ys) p) (hp : p ≤ xs.length) : EndsAt t xs p := by
  refine ⟨hp, ?_⟩
  rw [← List.take_append_of_le_length hp]
  exact h.2

theorem FirstEnd.append (h : FirstEnd t xs p) (ys : List α) : FirstEnd t (xs ++ ys) p where
  ends := h.ends.append ys
  first q hq := by
    by_cases hle : q ≤ xs.length
    · exact h.first q (hq.of_append hle)
    · exact h.ends.1.trans (Nat.le_of_not_le hle)

/-- A terminator that is whole in a window ends there where it ends in the stream. -/
theorem endsAt_drop (hk : k ≤ xs.length) :
    EndsAt t (xs.drop k) p ↔ EndsAt t xs (k + p) ∧ t.length ≤ p := by
  have htake : (xs.drop k).take p = (xs.take (k + p)).drop k := by
    rw [List.drop_take, Nat.add_sub_cancel_left]
  constructor
  · intro h
    refine ⟨⟨?_, ?_⟩, h.length_le⟩
    · have hp := h.1
      rw [List.length_drop] at hp
      omega
    · have hsuffix := h.2
      rw [htake] at hsuffix
      exact hsuffix.trans (List.drop_suffix ..)
  · rintro ⟨⟨hp, hsuffix⟩, hlen⟩
    refine ⟨by rw [List.length_drop]; omega, ?_⟩
    rw [htake]
    refine List.suffix_of_suffix_length_le hsuffix (List.drop_suffix ..) ?_
    rw [List.length_drop, List.length_take]
    omega

/-- The first end in a window that holds the stream's first terminator. -/
theorem firstEnd_drop (hk : k ≤ xs.length) (hwhole : ∀ q, EndsAt t xs q → k + t.length ≤ q) :
    FirstEnd t (xs.drop k) p ↔ FirstEnd t xs (k + p) := by
  constructor
  · intro h
    refine ⟨((endsAt_drop hk).mp h.ends).1, fun q hq => ?_⟩
    have hlen := hwhole q hq
    have hq' : EndsAt t (xs.drop k) (q - k) :=
      (endsAt_drop hk).mpr ⟨by rwa [Nat.add_sub_cancel' (by omega)], by omega⟩
    have hfirst := h.first _ hq'
    omega
  · intro h
    have hlen := hwhole _ h.ends
    refine ⟨(endsAt_drop hk).mpr ⟨h.ends, by omega⟩, fun q hq => ?_⟩
    have hfirst := h.first _ ((endsAt_drop hk).mp hq).1
    omega

theorem EndsAt.isInfix (h : EndsAt t xs p) : t <:+: xs :=
  h.2.isInfix.trans (List.take_prefix ..).isInfix

theorem endsAt_append_self (xs t ys : List α) : EndsAt t (xs ++ t ++ ys) (xs ++ t).length :=
  (show EndsAt t (xs ++ t) (xs ++ t).length from
    ⟨Nat.le_refl _, by rw [List.take_length]; exact List.suffix_append ..⟩).append ys

theorem exists_endsAt_iff : (∃ p, EndsAt t xs p) ↔ t <:+: xs := by
  constructor
  · rintro ⟨p, h⟩
    exact h.isInfix
  · rintro ⟨before, after, rfl⟩
    exact ⟨_, endsAt_append_self before t after⟩

/-! ## Words that cannot overlap themselves -/

theorem firstEnd_append_self {a : α} (ha : a ∉ t) (hxs : ¬a :: t <:+: xs) (ys : List α) :
    FirstEnd (a :: t) (xs ++ a :: t ++ ys) (xs ++ a :: t).length where
  ends := endsAt_append_self xs (a :: t) ys
  first q hq := by
    by_contra hlt
    have hin := hq.of_append (Nat.le_of_not_le hlt)
    rw [List.length_append, List.length_cons] at hlt
    by_cases hshort : q ≤ xs.length
    · exact hxs (hin.of_append hshort).isInfix
    · -- the occurrence reaches into the word and starts before it
      obtain ⟨before, hbefore⟩ := hin.2
      have hcut : before ++ a :: t = xs ++ a :: t.take (q - xs.length - 1) := by
        obtain ⟨j, hj⟩ : ∃ j, q - xs.length = j + 1 := ⟨q - xs.length - 1, by omega⟩
        rw [hbefore, List.take_append, List.take_of_length_le (by omega), hj, List.take_succ_cons,
          Nat.add_sub_cancel]
      rcases List.append_eq_append_iff.mp hcut with ⟨zs, hzs, htail⟩ | ⟨zs, hzs, htail⟩
      · cases zs with
        | nil =>
          have hlen := congrArg List.length htail
          simp only [List.nil_append, List.length_cons, List.length_take] at hlen
          omega
        | cons z zs =>
          have htail' := (List.cons.inj htail).2
          exact ha (htail' ▸ List.mem_append_right zs List.mem_cons_self)
      · have hlen := congrArg List.length htail
        simp only [List.length_cons, List.length_append, List.length_take] at hlen
        omega

theorem FirstEnd.exists_append (h : FirstEnd t xs p) (ht : t ≠ []) :
    ∃ before after, xs = before ++ t ++ after ∧ ¬t <:+: before ∧ p = (before ++ t).length := by
  obtain ⟨before, hbefore⟩ := h.ends.2
  have hp : p = (before ++ t).length := by
    rw [hbefore, List.length_take, Nat.min_eq_left h.ends.1]
  refine ⟨before, xs.drop p, by rw [hbefore, List.take_append_drop], fun hin => ?_, hp⟩
  obtain ⟨q, hq⟩ := exists_endsAt_iff.mpr hin
  have hend : EndsAt t xs q := by
    rw [← List.take_append_drop p xs, ← hbefore]
    exact (hq.append t).append _
  have hfirst := h.first q hend
  have hpos := List.length_pos_iff.mpr ht
  have hle := hq.1
  rw [List.length_append] at hp
  omega

end Ends

end Sliding
