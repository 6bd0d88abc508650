import Mathlib.Data.List.Forall2

/-! Records of fields that are printed at fixed widths, one behind the other: their texts
are in the order of the records. -/

namespace FixedWidth

variable {α β : Type} [LT α] [LT β]

/-- How a field is printed: its valid values all at one width, and in their order. -/
structure Field (α β : Type) [LT α] [LT β] where
  print : β → List α
  valid : β → Prop
  width : Nat
  length_print : ∀ {b}, valid b → (print b).length = width
  print_lt : ∀ {b b'}, valid b → valid b' → b < b' → print b < print b'

def printAll : List (Field α β) → List β → List α
  | f :: fs, b :: bs => f.print b ++ printAll fs bs
  | _, _ => []

theorem append_lt_append {xs ys : List α} (hlen : xs.length = ys.length) (h : xs < ys)
    (xs' ys' : List α) : xs ++ xs' < ys ++ ys' := by
  change List.Lex (· < ·) xs ys at h
  change List.Lex (· < ·) (xs ++ xs') (ys ++ ys')
  induction h with
  | nil => cases hlen
  | rel h => exact .rel h
  | cons _ ih => exact .cons (ih (Nat.succ.inj hlen))

/-- The text of the lesser record is the lesser text. -/
theorem printAll_lt {fs : List (Field α β)} {bs bs' : List β}
    (hvalid : List.Forall₂ (fun f b => f.valid b) fs bs)
    (hvalid' : List.Forall₂ (fun f b => f.valid b) fs bs') (h : bs < bs') :
    printAll fs bs < printAll fs bs' := by
  induction hvalid generalizing bs' with
  | nil =>
    cases hvalid'
    cases h
  | @cons f b fs bs hb _ ih =>
    cases hvalid' with
    | @cons _ b' _ bs' hb' hvalid' =>
      rcases List.cons_lt_cons_iff.mp h with hlt | ⟨rfl, hrest⟩
      · exact append_lt_append ((f.length_print hb).trans (f.length_print hb').symm)
          (f.print_lt hb hb' hlt) _ _
      · exact List.append_left_lt (ih hvalid' hrest)

end FixedWidth
