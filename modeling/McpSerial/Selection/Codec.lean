import McpSerial.Selection.Sorted

/-! Reading a record from a sorted map of named fields, field by field, and writing it as one.
A codec says how the values of a type are read and written, and which of them can be. -/

namespace Fields

structure Codec (V α : Type) where
  read : V → Option α
  write : α → V
  Fits : α → Prop
  read_write : ∀ {a}, Fits a → read (write a) = some a
  fits : ∀ {v a}, read v = some a → Fits a

variable {κ V α : Type}

namespace Codec

def nullable (c : Codec V α) (null : V) (isNull : V → Bool) (hnull : isNull null = true)
    (hsome : ∀ a, isNull (c.write a) = false) : Codec V (Option α) where
  read v := if isNull v then some none else (c.read v).map some
  write
    | none => null
    | some a => c.write a
  Fits o := ∀ a, o = some a → c.Fits a
  read_write := by
    rintro (_ | a) h
    · exact if_pos hnull
    · rw [hsome, c.read_write (h a rfl)]
      rfl
  fits := by
    intro v o h a ha
    subst ha
    split at h
    · cases h
    · obtain ⟨b, hb, heq⟩ := Option.map_eq_some_iff.mp h
      cases heq
      exact c.fits hb

section Lookup

variable [BEq κ]

def required (c : Codec V α) (l : List (κ × V)) (k : κ) : Option α := (l.lookup k).bind c.read

def defaulted (c : Codec V α) (a : α) (l : List (κ × V)) (k : κ) : Option α :=
  match l.lookup k with
  | none => some a
  | some v => c.read v

variable {c : Codec V α} {l : List (κ × V)} {k : κ} {a d : α}

theorem required_of_lookup (h : l.lookup k = some (c.write a)) (hfits : c.Fits a) :
    c.required l k = some a := by
  rw [required, h]
  exact c.read_write hfits

theorem defaulted_of_lookup (h : l.lookup k = some (c.write a)) (hfits : c.Fits a) :
    c.defaulted d l k = some a := by
  rw [defaulted, h]
  exact c.read_write hfits

theorem fits_of_defaulted (hd : c.Fits d) (h : c.defaulted d l k = some a) : c.Fits a := by
  unfold defaulted at h
  split at h
  · cases h
    exact hd
  · exact c.fits h

end Lookup

end Codec

def onlyKnown [DecidableEq κ] (known : List κ) (l : List (κ × V)) : Bool :=
  l.all fun f => f.1 ∈ known

theorem onlyKnown_iff [DecidableEq κ] {known : List κ} {l : List (κ × V)} :
    onlyKnown known l = true ↔ ∀ k ∈ l.map Prod.fst, k ∈ known := by
  simp [onlyKnown]

theorem onlyKnown_sorted [LinearOrder κ] {known : List κ} {l : List (κ × V)}
    (h : l.map Prod.fst = known) : onlyKnown known (sorted l) = true := by
  rw [onlyKnown_iff]
  intro k hk
  obtain ⟨f, hf, rfl⟩ := List.mem_map.mp hk
  exact h ▸ List.mem_map_of_mem (mem_sorted.mp hf)

end Fields
