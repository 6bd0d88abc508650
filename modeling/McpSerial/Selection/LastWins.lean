import Mathlib.Data.List.Perm.Basic
import Mathlib.Data.List.Induction

/-! A record read off a list whose later entries overwrite the earlier ones. -/

namespace LastWins

variable {α β σ : Type*} {read : α → Option β} {xs : List α} {a : α} {b : β}

def last (read : α → Option β) (xs : List α) : Option β := (xs.filterMap read).getLast?

/-- All entries that set a value set the same. -/
def Agree (read : α → Option β) (xs : List α) : Prop :=
  ∀ x ∈ xs, ∀ y ∈ xs, ∀ b c, read x = some b → read y = some c → b = c

theorem last_concat : last read (xs ++ [a]) = (read a).or (last read xs) := by
  unfold last
  rw [List.filterMap_append]
  cases hread : read a with
  | none => simp [hread]
  | some b => simp [hread]

theorem foldl_last {update : σ → α → σ} {value : σ → β}
    (h : ∀ s x, value (update s x) = (read x).getD (value s)) (s : σ) (xs : List α) :
    value (xs.foldl update s) = (last read xs).getD (value s) := by
  induction xs using List.reverseRecOn with
  | nil => rfl
  | append_singleton xs x ih =>
    rw [List.foldl_concat, h, ih, last_concat]
    cases read x with
    | none => rfl
    | some b => rfl

theorem mem_of_last (h : last read xs = some b) : ∃ x ∈ xs, read x = some b :=
  List.mem_filterMap.mp (List.mem_of_getLast? h)

theorem exists_last (ha : a ∈ xs) (hb : read a = some b) : ∃ c, last read xs = some c := by
  have hmem : b ∈ xs.filterMap read := List.mem_filterMap.mpr ⟨a, ha, hb⟩
  exact ⟨_, List.getLast?_eq_some_getLast (List.ne_nil_of_mem hmem)⟩

theorem exists_perm_last (ha : a ∈ xs) (hb : read a = some b) :
    ∃ ys : List α, ys.Perm xs ∧ last read ys = some b := by
  obtain ⟨before, after, rfl⟩ := List.append_of_mem ha
  refine ⟨before ++ after ++ [a], ?_, ?_⟩
  · exact (List.perm_append_singleton a (before ++ after)).trans List.perm_middle.symm
  · rw [last_concat, hb, Option.some_or]

/-- The order decides nothing exactly when the entries agree. -/
theorem last_perm_iff :
    (∀ ys : List α, ys.Perm xs → last read ys = last read xs) ↔ Agree read xs := by
  constructor
  · intro h x hx y hy b c hb hc
    obtain ⟨ys, hys, hlast⟩ := exists_perm_last hx hb
    obtain ⟨zs, hzs, hlast'⟩ := exists_perm_last hy hc
    have hbc : some b = some c := by rw [← hlast, ← hlast', h ys hys, h zs hzs]
    exact Option.some.inj hbc
  · intro h ys hys
    cases hlast : last read ys with
    | none =>
      cases hlast' : last read xs with
      | none => rfl
      | some b =>
        obtain ⟨x, hx, hb⟩ := mem_of_last hlast'
        obtain ⟨c, hc⟩ := exists_last (hys.mem_iff.mpr hx) hb
        rw [hlast] at hc
        cases hc
    | some b =>
      obtain ⟨x, hx, hb⟩ := mem_of_last hlast
      obtain ⟨c, hc⟩ := exists_last (hys.mem_iff.mp hx) hb
      obtain ⟨y, hy, hread⟩ := mem_of_last hc
      rw [hc, h x (hys.mem_iff.mp hx) y hy b c hb hread]

end LastWins
