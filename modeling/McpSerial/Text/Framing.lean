import Mathlib.Data.List.Induction
import Mathlib.Data.List.Nodup

/-! Streams of terminated lines: the lines that a reader cuts out of a stream, and
streams that are made of whole lines and at most one fragment at the end. -/

namespace Framing

section Positions

variable {α : Type} {t before after : List α} {x : α}

theorem split_append {ys zs : List α} (h : before ++ x :: after = ys ++ zs) :
    (∃ y, ys = before ++ x :: y) ∨ ∃ r, before = ys ++ r ∧ r ++ x :: after = zs := by
  rcases List.append_eq_append_iff.mp h with ⟨r, hr, hrest⟩ | ⟨r, hr, hrest⟩
  · cases r with
    | nil =>
      rw [List.append_nil] at hr
      exact .inr ⟨[], by rw [hr, List.append_nil], hrest⟩
    | cons y r =>
      obtain ⟨rfl, _⟩ := List.cons.inj hrest
      exact .inl ⟨r, hr⟩
  · exact .inr ⟨r, hr, hrest.symm⟩

theorem split_lines {ls : List (List α)}
    (h : before ++ x :: after = ls.flatMap (· ++ t)) :
    ∃ ks l ms, ls = ks ++ l :: ms ∧
      ((∃ l₁ l₂, l = l₁ ++ x :: l₂ ∧ before = ks.flatMap (· ++ t) ++ l₁) ∨
        ∃ t₁ t₂, t = t₁ ++ x :: t₂ ∧ before = ks.flatMap (· ++ t) ++ l ++ t₁) := by
  induction ls generalizing before with
  | nil => simp at h
  | cons l ls ih =>
    rw [List.flatMap_cons, List.append_assoc] at h
    rcases split_append h with ⟨l₂, hl⟩ | ⟨r, rfl, hr⟩
    · exact ⟨[], l, ls, rfl, .inl ⟨before, l₂, hl, rfl⟩⟩
    rcases split_append hr with ⟨t₂, ht⟩ | ⟨q, rfl, hq⟩
    · exact ⟨[], l, ls, rfl, .inr ⟨r, t₂, ht, rfl⟩⟩
    obtain ⟨ks, k, ms, rfl, hcase⟩ := ih hq
    refine ⟨l :: ks, k, ms, rfl, ?_⟩
    rcases hcase with ⟨l₁, l₂, hk, rfl⟩ | ⟨t₁, t₂, ht, rfl⟩
    · exact .inl ⟨l₁, l₂, hk, by simp⟩
    · exact .inr ⟨t₁, t₂, ht, by simp⟩

end Positions

variable {α τ : Type} [DecidableEq α]

/-- The lines of a stream from where `skip` bytes belong to a terminator and `acc` is
what is read of the line so far. -/
def linesFrom (t : List α) : Nat → List α → List α → List (List α)
  | _, _, [] => []
  | skip + 1, acc, _ :: xs => linesFrom t skip acc xs
  | 0, acc, x :: xs =>
    if t.isPrefixOf (x :: xs) then acc :: linesFrom t (t.length - 1) [] xs
    else linesFrom t 0 (acc ++ [x]) xs

def lines (t xs : List α) : List (List α) := linesFrom t 0 [] xs

example : lines [13, 10] [1, 2, 13, 10, 13, 10, 3, 13] = [[1, 2], []] := by decide

def Clean (t l : List α) : Prop := ∀ b ∈ l, b ∉ t

/-- The stream is empty or ends a line. -/
def Ended (t xs : List α) : Prop := xs = [] ∨ t <:+ xs

/-- A line that has begun and has not ended. -/
def Fragment (t l f : List α) : Prop := f <+: l ++ t ∧ f ≠ l ++ t ∧ f ≠ []

section Lines

variable {t l f acc xs ys s : List α}

theorem linesFrom_skip : linesFrom t s.length acc (s ++ xs) = linesFrom t 0 acc xs := by
  induction s with
  | nil => rfl
  | cons b s ih => exact ih

theorem linesFrom_clean {b : α} (ht : t ≠ []) (hb : b ∉ t) :
    linesFrom t 0 acc (b :: xs) = linesFrom t 0 (acc ++ [b]) xs := by
  cases t with
  | nil => exact absurd rfl ht
  | cons a t =>
    have hne : ¬a = b := fun hab => hb (hab ▸ List.mem_cons_self)
    simp [linesFrom, List.isPrefixOf, hne]

theorem linesFrom_line (ht : t ≠ []) (hl : Clean t l) :
    linesFrom t 0 acc (l ++ t ++ xs) = (acc ++ l) :: linesFrom t 0 [] xs := by
  induction l generalizing acc with
  | nil =>
    cases t with
    | nil => exact absurd rfl ht
    | cons a t =>
      have hprefix : (a :: t).isPrefixOf (a :: (t ++ xs)) = true :=
        List.isPrefixOf_iff_prefix.mpr (List.prefix_append (a :: t) xs)
      simp only [List.nil_append, List.cons_append, linesFrom, hprefix, if_true, List.append_nil]
      exact congrArg (acc :: ·) linesFrom_skip
  | cons b l ih =>
    rw [List.cons_append, List.cons_append,
      linesFrom_clean ht (hl b List.mem_cons_self), ih fun c hc => hl c (List.mem_cons_of_mem b hc)]
    simp

theorem linesFrom_short (h : f.length < t.length) : linesFrom t 0 acc f = [] := by
  induction f generalizing acc with
  | nil => rfl
  | cons b f ih =>
    have hprefix : ¬t.isPrefixOf (b :: f) = true := by
      intro hp
      have hle := (List.isPrefixOf_iff_prefix.mp hp).length_le
      omega
    simp only [linesFrom, if_neg hprefix]
    exact ih (by simp only [List.length_cons] at h; omega)

theorem linesFrom_fragment (ht : t ≠ []) (hl : Clean t l) (hf : f <+: l ++ t) (hne : f ≠ l ++ t) :
    linesFrom t 0 acc f = [] := by
  induction l generalizing f acc with
  | nil =>
    apply linesFrom_short
    exact Nat.lt_of_le_of_ne hf.length_le fun hlen => hne (hf.eq_of_length hlen)
  | cons b l ih =>
    cases f with
    | nil => rfl
    | cons c f =>
      obtain ⟨rfl, hf'⟩ := List.cons_prefix_cons.mp hf
      rw [linesFrom_clean ht (hl c List.mem_cons_self)]
      refine ih (fun d hd => hl d (List.mem_cons_of_mem c hd)) hf' fun heq => hne ?_
      rw [heq, List.cons_append]

/-- Cutting a stream of lines gives the lines back, whatever fragment follows them. -/
theorem lines_flatMap {ls : List (List α)} (ht : t ≠ []) (hls : ∀ l ∈ ls, Clean t l)
    (hf : linesFrom t 0 [] f = []) : lines t (ls.flatMap (· ++ t) ++ f) = ls := by
  unfold lines
  induction ls with
  | nil => exact hf
  | cons l ls ih =>
    rw [List.flatMap_cons, List.append_assoc, linesFrom_line ht (hls l List.mem_cons_self),
      ih fun k hk => hls k (List.mem_cons_of_mem l hk)]
    rfl

theorem linesFrom_append {c : α} (zs ys : List α) (acc : List α) :
    linesFrom [c] 0 acc (zs ++ c :: ys) =
      linesFrom [c] 0 acc (zs ++ [c]) ++ linesFrom [c] 0 [] ys := by
  induction zs generalizing acc with
  | nil => simp [linesFrom, List.isPrefixOf]
  | cons z zs ih =>
    by_cases hz : c = z
    · subst hz
      simpa [linesFrom, List.isPrefixOf] using ih []
    · simpa [linesFrom, List.isPrefixOf, hz] using ih (acc ++ [z])

theorem lines_append_of_ended {c : α} (h : Ended [c] xs) (ys : List α) :
    lines [c] (xs ++ ys) = lines [c] xs ++ lines [c] ys := by
  rcases h with rfl | ⟨zs, rfl⟩
  · rfl
  · rw [List.append_assoc]
    exact linesFrom_append zs ys []

/-- What is appended to a stream changes none of its lines. -/
theorem lines_prefix_append (c : α) (xs ys : List α) : lines [c] xs <+: lines [c] (xs ++ ys) := by
  have hfrom (acc : List α) : linesFrom [c] 0 acc xs <+: linesFrom [c] 0 acc (xs ++ ys) := by
    induction xs generalizing acc with
    | nil => exact List.nil_prefix
    | cons x xs ih =>
      by_cases hx : c = x
      · subst hx
        simpa [linesFrom, List.isPrefixOf] using ih []
      · simpa [linesFrom, List.isPrefixOf, hx] using ih (acc ++ [x])
  exact hfrom []

omit [DecidableEq α] in
theorem ended_append_iff {c : α} (hne : ys ≠ []) : Ended [c] (xs ++ ys) ↔ [c] <:+ ys := by
  have happend : xs ++ ys ≠ [] := List.append_ne_nil_of_right_ne_nil xs hne
  unfold Ended
  rw [or_iff_right happend, List.singleton_suffix_iff_getLast?_eq_some,
    List.singleton_suffix_iff_getLast?_eq_some, List.getLast?_append_of_ne_nil xs hne]

omit [DecidableEq α] in
theorem Ended.of_append {c : α} {zs : List α} (h : Ended [c] (xs ++ (ys ++ zs))) (hne : zs ≠ [])
    (ws : List α) : Ended [c] (ws ++ zs) := by
  rw [← List.append_assoc] at h
  exact (ended_append_iff hne).mpr ((ended_append_iff hne).mp h)

theorem Fragment.not_ended (h : Fragment t l f) (ht : t ≠ []) (hnodup : t.Nodup)
    (hl : Clean t l) : ¬Ended t (xs ++ f) := by
  obtain ⟨⟨r, hr⟩, hne, hf⟩ := h
  rintro (hnil | ⟨ys, hys⟩)
  · exact hf (List.append_eq_nil_iff.mp hnil).2
  have hrne : r ≠ [] := by
    rintro rfl
    exact hne (by rw [← hr, List.append_nil])
  -- the last byte of the terminator would be in the fragment and once more after it
  let z := t.getLast ht
  have hlast : t.getLast? = some z := List.getLast?_eq_some_getLast ht
  have hzf : f.getLast? = some z := by
    rw [← List.getLast?_append_of_ne_nil xs hf, ← hys, List.getLast?_append_of_ne_nil ys ht, hlast]
  have hzr : r.getLast? = some z := by
    rw [← List.getLast?_append_of_ne_nil f hrne, hr, List.getLast?_append_of_ne_nil l ht, hlast]
  have hcount : f.count z + r.count z = t.count z := by
    have hzl : l.count z = 0 := List.count_eq_zero.mpr fun hz => hl z hz (List.getLast_mem ht)
    rw [← List.count_append, hr, List.count_append, hzl, Nat.zero_add]
  have htwice : 0 < f.count z ∧ 0 < r.count z :=
    ⟨List.count_pos_iff.mpr (List.mem_of_getLast? hzf),
      List.count_pos_iff.mpr (List.mem_of_getLast? hzr)⟩
  have honce : t.count z ≤ 1 := List.nodup_iff_count_le_one.mp hnodup z
  omega

end Lines

/-! ## Continued lines -/

/-- A reader that joins each line ending in `c` with the next one. -/
def joinContinued (c : α) : List (List α) → List (List α)
  | [] => []
  | l :: ls =>
    if l.getLast? = some c then
      match joinContinued c ls with
      | [] => [l.dropLast]
      | k :: ks => (l.dropLast ++ k) :: ks
    else l :: joinContinued c ls

example : joinContinued 9 [[1, 9], [2], [3]] = [[1, 2], [3]] := by decide

theorem joinContinued_eq {c : α} {ls : List (List α)} (h : ∀ l ∈ ls, l.getLast? ≠ some c) :
    joinContinued c ls = ls := by
  induction ls with
  | nil => rfl
  | cons l ls ih =>
    rw [joinContinued, if_neg (h l List.mem_cons_self),
      ih fun k hk => h k (List.mem_cons_of_mem l hk)]

/-! ## Streams of lines that satisfy `P` -/

/-- Whole lines that satisfy `P`, and at most a fragment of one more. -/
def Framed (P : List α → Prop) (t xs : List α) : Prop :=
  ∃ (ls : List (List α)) (f : List α), (∀ l ∈ ls, P l) ∧ xs = ls.flatMap (· ++ t) ++ f ∧
    (f = [] ∨ ∃ l, P l ∧ Fragment t l f)

section Framed

variable {P : List α → Prop} {t xs l f : List α}

theorem Framed.lines (h : Framed P t xs) (ht : t ≠ []) (hP : ∀ l, P l → Clean t l) :
    ∀ l ∈ lines t xs, P l := by
  obtain ⟨ls, f, hls, rfl, hf⟩ := h
  have hnone : linesFrom t 0 [] f = [] := by
    rcases hf with rfl | ⟨l, hl, hprefix, hne, _⟩
    · rfl
    · exact linesFrom_fragment ht (hP l hl) hprefix hne
  rw [lines_flatMap ht (fun l hl => hP l (hls l hl)) hnone]
  exact hls

/-- A stream of lines that has ended its last one goes on with a line or a part of one. -/
theorem Framed.append (h : Framed P t xs) (ht : t ≠ []) (hnodup : t.Nodup)
    (hP : ∀ l, P l → Clean t l) (hended : Ended t xs) (hl : P l) (hf : f <+: l ++ t) :
    Framed P t (xs ++ f) := by
  obtain ⟨ls, g, hls, rfl, hg⟩ := h
  have hnone : g = [] := by
    rcases hg with rfl | ⟨k, hk, hfragment⟩
    · rfl
    · exact absurd hended (hfragment.not_ended ht hnodup (hP k hk))
  subst hnone
  rw [List.append_nil]
  by_cases hwhole : f = l ++ t
  · refine ⟨ls ++ [l], [], ?_, by simp [hwhole], .inl rfl⟩
    intro k hk
    rcases List.mem_append.mp hk with hk | hk
    · exact hls k hk
    · rw [List.mem_singleton.mp hk]
      exact hl
  · by_cases hempty : f = []
    · exact ⟨ls, [], hls, by rw [hempty], .inl rfl⟩
    · exact ⟨ls, f, hls, rfl, .inr ⟨l, hl, hf, hwhole, hempty⟩⟩

/-- Writers that each send a part of one line, in turn, send a stream of lines when each
that sends anything starts where the stream has ended its last line. -/
theorem framed_flatMap {order : List τ} {sent : τ → List α} (ht : t ≠ []) (hnodup : t.Nodup)
    (hP : ∀ l, P l → Clean t l)
    (hsent : ∀ u ∈ order, sent u ≠ [] → ∃ l, P l ∧ sent u <+: l ++ t)
    (hstart : ∀ us u vs, order = us ++ u :: vs → sent u ≠ [] → Ended t (us.flatMap sent)) :
    Framed P t (order.flatMap sent) := by
  induction order using List.reverseRecOn with
  | nil => exact ⟨[], [], by simp, rfl, .inl rfl⟩
  | append_singleton us u ih =>
    have hframed := ih (fun v hv => hsent v (List.mem_append_left _ hv)) fun vs v ws hus =>
      hstart vs v (ws ++ [u]) (by rw [hus]; simp)
    rw [List.flatMap_append, List.flatMap_singleton]
    by_cases hnone : sent u = []
    · rw [hnone, List.append_nil]
      exact hframed
    · obtain ⟨l, hl, hprefix⟩ := hsent u (by simp) hnone
      exact hframed.append ht hnodup hP (hstart us u [] rfl hnone) hl hprefix

end Framed

omit [DecidableEq α] in
/-- Writers that each send one whole line, or nothing, send the lines in their order. -/
theorem exists_lines {t : List α} {order : List τ} {sent : τ → List α} {R : τ → List α → Prop}
    (h : ∀ u ∈ order, sent u ≠ [] → ∃ l, R u l ∧ sent u = l ++ t) :
    ∃ ls, List.Forall₂ R (order.filter fun u => sent u ≠ []) ls ∧
      order.flatMap sent = ls.flatMap (· ++ t) := by
  induction order with
  | nil => exact ⟨[], .nil, rfl⟩
  | cons u us ih =>
    obtain ⟨ls, hls, hstream⟩ := ih fun v hv => h v (List.mem_cons_of_mem _ hv)
    rw [List.flatMap_cons, hstream]
    by_cases hnone : sent u = []
    · refine ⟨ls, ?_, by rw [hnone, List.nil_append]⟩
      rw [List.filter_cons_of_neg (by simp [hnone])]
      exact hls
    · obtain ⟨l, hl, hline⟩ := h u List.mem_cons_self hnone
      refine ⟨l :: ls, ?_, by rw [hline, List.flatMap_cons]⟩
      rw [List.filter_cons_of_pos (by simp [hnone])]
      exact .cons hl hls

end Framing
