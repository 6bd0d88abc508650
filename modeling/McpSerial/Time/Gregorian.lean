import Mathlib.Order.Monotone.Basic
import Mathlib.Order.RelIso.Basic

/-! The proleptic Gregorian calendar: dates, and the number of a date's day, counted from
the first of January 1970. -/

namespace Gregorian

def IsLeap (year : Int) : Prop := year % 4 = 0 ∧ (year % 100 = 0 → year % 400 = 0)

instance (year : Int) : Decidable (IsLeap year) := inferInstanceAs (Decidable (_ ∧ _))

def monthLength (year : Int) : Nat → Nat
  | 2 => if IsLeap year then 29 else 28
  | 4 | 6 | 9 | 11 => 30
  | _ => 31

theorem monthLength_le (year : Int) (month : Nat) : monthLength year month ≤ 31 := by
  unfold monthLength
  split
  · split <;> decide
  all_goals decide

def daysThrough (year : Int) : Nat → Nat
  | 0 => 0
  | months + 1 => daysThrough year months + monthLength year (months + 1)

/-- The days from the start of year 1 to the start of `year`. -/
def daysBefore (year : Int) : Int :=
  365 * (year - 1) + (year - 1) / 4 - (year - 1) / 100 + (year - 1) / 400

@[ext]
structure Date where
  year : Int
  month : Nat
  day : Nat
  month_pos : 1 ≤ month
  month_le : month ≤ 12
  day_pos : 1 ≤ day
  day_le : day ≤ monthLength year month

namespace Date

def dayOfYear (d : Date) : Nat := daysThrough d.year (d.month - 1) + d.day

def dayNumber (d : Date) : Int := daysBefore d.year - daysBefore 1970 + d.dayOfYear - 1

def Before (a b : Date) : Prop :=
  a.year < b.year ∨ a.year = b.year ∧ (a.month < b.month ∨ a.month = b.month ∧ a.day < b.day)

end Date

/-! ## Years -/

theorem daysBefore_succ (year : Int) :
    daysBefore (year + 1) = daysBefore year + daysThrough year 12 := by
  have hdays : daysThrough year 12 = if IsLeap year then 366 else 365 := by
    simp only [daysThrough, monthLength]
    split <;> rfl
  rw [hdays]
  unfold daysBefore
  split
  next hleap =>
    unfold IsLeap at hleap
    omega
  next hcommon =>
    unfold IsLeap at hcommon
    omega

theorem isLeap_add_cycles (year n : Int) : IsLeap (year + n * 400) ↔ IsLeap year := by
  unfold IsLeap
  omega

theorem daysBefore_add_cycles (year n : Int) :
    daysBefore (year + n * 400) = daysBefore year + 146097 * n := by
  have hfour : (year + n * 400 - 1) / 4 = (year - 1) / 4 + 100 * n := by omega
  have hhundred : (year + n * 400 - 1) / 100 = (year - 1) / 100 + 4 * n := by omega
  have hcycle : (year + n * 400 - 1) / 400 = (year - 1) / 400 + n := by omega
  unfold daysBefore
  rw [hfour, hhundred, hcycle]
  omega

theorem daysBefore_mono {year year' : Int} (h : year ≤ year') :
    daysBefore year ≤ daysBefore year' := by
  obtain ⟨n, rfl⟩ := Int.le.dest h
  clear h
  induction n with
  | zero => rw [Int.natCast_zero, Int.add_zero]
  | succ n ih =>
    have hnext := daysBefore_succ (year + n)
    rw [Int.natCast_succ, ← Int.add_assoc]
    omega

theorem daysThrough_mono (year : Int) : Monotone (daysThrough year) :=
  monotone_nat_of_le_succ fun _ => Nat.le_add_right ..

/-! ## The order of the dates -/

namespace Date

variable {a b : Date}

theorem dayOfYear_le (d : Date) : d.dayOfYear ≤ daysThrough d.year d.month := by
  have hpos := d.month_pos
  obtain ⟨m, hm⟩ := Nat.exists_eq_add_of_le' hpos
  have hday := d.day_le
  rw [dayOfYear, hm, Nat.add_sub_cancel, daysThrough, ← hm]
  exact Nat.add_le_add_left hday _

theorem dayOfYear_pos (d : Date) : 1 ≤ d.dayOfYear :=
  Nat.le_trans d.day_pos (Nat.le_add_left ..)

theorem Before.dayNumber_lt (h : a.Before b) : a.dayNumber < b.dayNumber := by
  have ha := a.dayOfYear_le
  have hb := b.dayOfYear_pos
  unfold dayNumber
  rcases h with hyear | ⟨hyear, hmonth | ⟨hmonth, hday⟩⟩
  · have hrest := daysThrough_mono a.year a.month_le
    have hnext := daysBefore_succ a.year
    have hmono := daysBefore_mono (show a.year + 1 ≤ b.year from hyear)
    omega
  · have hmono := daysThrough_mono a.year (Nat.le_sub_one_of_lt hmonth)
    have hday := b.day_pos
    have hlt : a.dayOfYear < b.dayOfYear := by
      rw [dayOfYear, dayOfYear] at *
      rw [← hyear]
      omega
    rw [hyear]
    omega
  · have hlt : a.dayOfYear < b.dayOfYear := by
      rw [dayOfYear, dayOfYear, hyear, hmonth]
      exact Nat.add_lt_add_left hday _
    rw [hyear]
    omega

instance : Std.Trichotomous Before where
  trichotomous a b := by
    unfold Before
    rw [Date.ext_iff]
    omega

/-- The days are in the order of the dates. -/
def dayNumberEmbedding : Before ↪r fun m n : Int => m < n :=
  .ofMonotone dayNumber fun _ _ => Before.dayNumber_lt

theorem dayNumber_lt_iff : a.dayNumber < b.dayNumber ↔ a.Before b :=
  dayNumberEmbedding.map_rel_iff

theorem year_le (h : a.dayNumber ≤ b.dayNumber) : a.year ≤ b.year := by
  refine Int.not_lt.mp fun hlater => ?_
  have hbefore : b.Before a := .inl hlater
  exact absurd hbefore.dayNumber_lt (Int.not_lt.mpr h)

/-- No two dates have the same day. -/
theorem dayNumber_injective : Function.Injective dayNumber := dayNumberEmbedding.injective

end Date
end Gregorian
