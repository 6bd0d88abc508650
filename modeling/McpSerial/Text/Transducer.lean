import Mathlib.Data.List.Forall2
import Mathlib.Data.List.Basic

/-! Deterministic transducers with one letter of lookahead: what a run over joined inputs
puts out, what all of its output satisfies, and how it reads back a code. -/

variable {σ α β : Type*}

/-- A machine that reads a letter, may look at the one behind it, and puts out a list. -/
structure Transducer (σ α β : Type*) where
  next : σ → α → σ
  emit : σ → α → Option α → List β

namespace Transducer

variable (T : Transducer σ α β)

def state : σ → List α → σ := List.foldl T.next

/-- The output for an input that `rest` follows. -/
def segment (rest : List α) : σ → List α → List β
  | _, [] => []
  | s, a :: as => T.emit s a (as ++ rest).head? ++ segment rest (T.next s a) as

def run (s : σ) (as : List α) : List β := T.segment [] s as

@[simp] theorem state_nil (s : σ) : T.state s [] = s := rfl

@[simp] theorem state_cons (s : σ) (a : α) (as : List α) :
    T.state s (a :: as) = T.state (T.next s a) as := rfl

theorem state_append (s : σ) (as bs : List α) :
    T.state s (as ++ bs) = T.state (T.state s as) bs := List.foldl_append

@[simp] theorem segment_nil (rest : List α) (s : σ) : T.segment rest s [] = [] := rfl

@[simp] theorem segment_cons (rest : List α) (s : σ) (a : α) (as : List α) :
    T.segment rest s (a :: as) =
      T.emit s a (as ++ rest).head? ++ T.segment rest (T.next s a) as := rfl

theorem segment_append (rest : List α) (s : σ) (as bs : List α) :
    T.segment rest s (as ++ bs) =
      T.segment (bs ++ rest) s as ++ T.segment rest (T.state s as) bs := by
  induction as generalizing s with
  | nil => rfl
  | cons a as ih =>
    simp only [List.cons_append, segment_cons, ih, List.append_assoc, state_cons]

@[simp] theorem run_nil (s : σ) : T.run s [] = [] := rfl

theorem run_cons (s : σ) (a : α) (as : List α) :
    T.run s (a :: as) = T.emit s a as.head? ++ T.run (T.next s a) as := by
  simp only [run, segment_cons, List.append_nil]

theorem run_append (s : σ) (as bs : List α) :
    T.run s (as ++ bs) = T.segment bs s as ++ T.run (T.state s as) bs := by
  simpa only [run, List.append_nil] using T.segment_append [] s as bs

theorem forall_mem_segment {P : β → Prop} (hemit : ∀ s a look, ∀ b ∈ T.emit s a look, P b)
    (rest : List α) (s : σ) (as : List α) : ∀ b ∈ T.segment rest s as, P b := by
  induction as generalizing s with
  | nil => simp
  | cons a as ih =>
    intro b hb
    rcases List.mem_append.mp hb with hb | hb
    · exact hemit _ _ _ b hb
    · exact ih _ b hb

/-- A machine that puts out at most one letter for each one read deletes some letters and
changes the others where they stand. -/
theorem segment_forall₂ {R : α → β → Prop}
    (hemit : ∀ s a look, T.emit s a look = [] ∨ ∃ b, R a b ∧ T.emit s a look = [b])
    (rest : List α) (s : σ) (as : List α) :
    ∃ kept, kept.Sublist as ∧ List.Forall₂ R kept (T.segment rest s as) := by
  induction as generalizing s with
  | nil => exact ⟨[], .slnil, .nil⟩
  | cons a as ih =>
    obtain ⟨kept, hkept, hR⟩ := ih (T.next s a)
    rcases hemit s a (as ++ rest).head? with hnone | ⟨b, hab, hone⟩
    · exact ⟨kept, hkept.cons a, by simpa only [segment_cons, hnone, List.nil_append] using hR⟩
    · refine ⟨a :: kept, hkept.cons_cons a, ?_⟩
      simpa only [segment_cons, hone, List.singleton_append] using List.Forall₂.cons hab hR

theorem segment_length_le (hemit : ∀ s a look, (T.emit s a look).length ≤ 1) (rest : List α)
    (s : σ) (as : List α) : (T.segment rest s as).length ≤ as.length := by
  induction as generalizing s with
  | nil => exact Nat.le_refl 0
  | cons a as ih =>
    rw [segment_cons, List.length_append, List.length_cons]
    have hone := hemit s a (as ++ rest).head?
    have hrest := ih (T.next s a)
    omega

/-- A machine that reads the code of each letter back to that letter, and is then where it
was, reads the code of a text back to the text. -/
theorem segment_flatMap {γ : Type*} {s : σ} {code : γ → List α} {read : γ → β}
    (hstate : ∀ c, T.state s (code c) = s)
    (hread : ∀ c rest, T.segment rest s (code c) = [read c]) (rest : List α) (cs : List γ) :
    T.segment rest s (cs.flatMap code) = cs.map read := by
  induction cs with
  | nil => rfl
  | cons c cs ih =>
    rw [List.flatMap_cons, T.segment_append, hstate, hread, ih]
    rfl

end Transducer
