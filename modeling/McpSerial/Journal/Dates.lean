import Mathlib.Tactic.IntervalCases
import McpSerial.Journal.Timestamps
import McpSerial.MachineInt
import McpSerial.Time.Gregorian

/-! The dates that `civil_from_days` (`serial/journal.rs`) returns are those of the calendar,
and its machine arithmetic stays in range. -/

namespace McpSerial
open Gregorian

/-! ## The year of an era -/

/-- A day of an era by its century, the four years in it, the year of these and its day. The
last year of four may have a day more than the others, and so may the last century. -/
theorem exists_eraDay {doe : Nat} (h : doe < 146097) : ∃ c q j t,
    doe = 36524 * c + 1461 * q + 365 * j + t ∧ c ≤ 3 ∧ q ≤ 24 ∧ j ≤ 3 ∧ t ≤ 365 ∧
      (t = 365 → j = 3) ∧ (c < 3 → 1461 * q + 365 * j + t < 36524) := by
  refine ⟨min 3 (doe / 36524), (doe - 36524 * min 3 (doe / 36524)) / 1461,
    min 3 ((doe - 36524 * min 3 (doe / 36524)) % 1461 / 365),
    (doe - 36524 * min 3 (doe / 36524)) % 1461 -
      365 * min 3 ((doe - 36524 * min 3 (doe / 36524)) % 1461 / 365), ?_⟩
  omega

theorem yearOfEra_eq {doe c q j t : Nat} (hdoe : doe = 36524 * c + 1461 * q + 365 * j + t)
    (hc : c ≤ 3) (hq : q ≤ 24) (hj : j ≤ 3) (ht : t ≤ 365) (hlast : t = 365 → j = 3)
    (hcentury : c < 3 → 1461 * q + 365 * j + t < 36524) :
    (doe - doe / 1460 + doe / 36524 - doe / 146096) / 365 = 100 * c + 4 * q + j := by
  have hcenturies : doe / 36524 - doe / 146096 = c := by omega
  have hle : doe / 146096 ≤ doe / 36524 := by omega
  have hcycles : doe / 1460 = 25 * c + q + (24 * c + q + 365 * j + t) / 1460 := by omega
  -- the leap days before the year may fill the cycle that the year is in
  have hcarry : (24 * c + q + 365 * j + t) / 1460 = 0 ∨
      (24 * c + q + 365 * j + t) / 1460 = 1 := by omega
  rcases hcarry with hnone | hone
  · rw [hnone] at hcycles
    omega
  · rw [hone] at hcycles
    omega

theorem isLeap_eraYear {c q yoe : Nat} (hyoe : 100 * c + 4 * q + 3 = yoe) (hq : q ≤ 24)
    (hcentury : q = 24 → c = 3) : IsLeap (yoe + 1) := by
  have hnext : (yoe : Int) + 1 = 100 * c + 4 * (q + 1) := by omega
  rw [hnext]
  refine ⟨by omega, fun hmultiple => ?_⟩
  have hq24 : q = 24 := by omega
  rw [hcentury hq24, hq24]
  rfl

/-- The days of an era before one of its years. -/
def daysBeforeYear (yoe : Nat) : Nat := 365 * yoe + yoe / 4 - yoe / 100

/-- The year that `civil_from_days` computes from a day of an era has the day in it, as the last
of 366 only before a leap day. -/
theorem yearOfEra_spec {doe yoe : Nat} (h : doe < 146097)
    (hyoe : (doe - doe / 1460 + doe / 36524 - doe / 146096) / 365 = yoe) :
    yoe < 400 ∧ daysBeforeYear yoe ≤ doe ∧ doe - daysBeforeYear yoe ≤ 365 ∧
      (doe - daysBeforeYear yoe = 365 → IsLeap (yoe + 1)) := by
  obtain ⟨c, q, j, t, hdoe, hc, hq, hj, ht, hlast, hcentury⟩ := exists_eraDay h
  rw [yearOfEra_eq hdoe hc hq hj ht hlast hcentury] at hyoe
  have hfour : yoe / 4 = 25 * c + q := by omega
  have hhundred : yoe / 100 = c := by omega
  have hstart : daysBeforeYear yoe = 36524 * c + 1461 * q + 365 * j := by
    unfold daysBeforeYear
    omega
  have hday : doe - daysBeforeYear yoe = t := by omega
  refine ⟨by omega, by omega, by omega, fun hlong => ?_⟩
  have ht365 : t = 365 := hday ▸ hlong
  have hj3 : j = 3 := hlast ht365
  subst ht365 hj3
  exact isLeap_eraYear hyoe hq fun hq24 => by omega

/-! ## The month and its day -/

/-- The end of `civil_from_days`: a day of a year that starts in March. -/
def marchDate (y : Int) (doy : Nat) : Int × Nat × Nat :=
  let mp := (5 * doy + 2) / 153
  let d := doy - (153 * mp + 2) / 5 + 1
  let m := if mp < 10 then mp + 3 else mp - 9
  (if m ≤ 2 then y + 1 else y, m, d)

theorem marchMonth_spec (year : Int) {mp : Nat} (hmp : mp < 10) :
    daysThrough year (mp + 2) = daysThrough year 2 + (153 * mp + 2) / 5 ∧
      monthLength year (mp + 3) = (153 * (mp + 1) + 2) / 5 - (153 * mp + 2) / 5 := by
  interval_cases mp <;> exact ⟨rfl, rfl⟩

theorem winterMonth_spec (year : Int) {doy mp : Nat} (hlow : (153 * mp + 2) / 5 ≤ doy)
    (hhigh : doy < (153 * (mp + 1) + 2) / 5) (hmp : 10 ≤ mp) (hdoy : doy ≤ 365)
    (hleap : doy = 365 → IsLeap year) :
    daysThrough year (mp - 10) + 306 = (153 * mp + 2) / 5 ∧
      doy - (153 * mp + 2) / 5 + 1 ≤ monthLength year (mp - 9) := by
  have hle : mp ≤ 11 := by omega
  interval_cases mp
  · refine ⟨rfl, ?_⟩
    show _ ≤ 31
    omega
  · refine ⟨rfl, ?_⟩
    show _ ≤ if IsLeap year then 29 else 28
    split
    next => omega
    next hcommon =>
      have hne : doy ≠ 365 := fun h => hcommon (hleap h)
      omega

theorem marchDate_spec {y : Int} {doy : Nat} (hdoy : doy ≤ 365)
    (hleap : doy = 365 → IsLeap (y + 1)) : ∃ date : Date,
    marchDate y doy = (date.year, date.month, date.day) ∧
      date.dayNumber = daysBefore (y + 1) - daysBefore 1970 - 306 + doy := by
  generalize hmp : (5 * doy + 2) / 153 = mp
  have hlow : (153 * mp + 2) / 5 ≤ doy := by omega
  have hhigh : doy < (153 * (mp + 1) + 2) / 5 := by omega
  by_cases hmarch : mp < 10
  · obtain ⟨hdays, hlength⟩ := marchMonth_spec y hmarch
    have hday : doy - (153 * mp + 2) / 5 + 1 ≤ monthLength y (mp + 3) := by omega
    refine ⟨⟨y, mp + 3, doy - (153 * mp + 2) / 5 + 1, by omega, by omega, by omega, hday⟩, ?_, ?_⟩
    · simp only [marchDate, hmp, if_pos hmarch]
      rw [if_neg (by omega)]
    · have hyear := daysBefore_succ y
      have hrest : daysThrough y 12 = daysThrough y 2 + 306 := rfl
      show daysBefore y - daysBefore 1970 +
        ((daysThrough y (mp + 2) + (doy - (153 * mp + 2) / 5 + 1) : Nat) : Int) - 1 = _
      omega
  · have hwinter : 10 ≤ mp := Nat.le_of_not_lt hmarch
    obtain ⟨hdays, hlength⟩ := winterMonth_spec (y + 1) hlow hhigh hwinter hdoy hleap
    refine ⟨⟨y + 1, mp - 9, doy - (153 * mp + 2) / 5 + 1, by omega, by omega, by omega, hlength⟩,
      ?_, ?_⟩
    · simp only [marchDate, hmp, if_neg hmarch]
      rw [if_pos (by omega)]
    · show daysBefore (y + 1) - daysBefore 1970 +
        ((daysThrough (y + 1) (mp - 9 - 1) + (doy - (153 * mp + 2) / 5 + 1) : Nat) : Int) - 1 = _
      rw [show mp - 9 - 1 = mp - 10 by omega]
      omega

/-! ## All days -/

theorem daysBefore_era {yoe : Nat} (h : yoe < 400) (era : Int) :
    daysBefore (yoe + era * 400 + 1) = 146097 * era + daysBeforeYear yoe := by
  have hshift : (yoe : Int) + era * 400 + 1 = yoe + 1 + era * 400 := by omega
  have hlast : (yoe : Int) + 1 - 1 = yoe := by omega
  rw [hshift, daysBefore_add_cycles]
  unfold daysBefore daysBeforeYear
  rw [hlast]
  omega

theorem civilFromDays_eq (days : Int) : ∃ (era : Int) (doe yoe : Nat),
    (days + 719468) / 146097 = era ∧ doe < 146097 ∧ days + 719468 = 146097 * era + doe ∧
      (doe - doe / 1460 + doe / 36524 - doe / 146096) / 365 = yoe ∧
      civilFromDays days = marchDate (yoe + era * 400) (doe - daysBeforeYear yoe) := by
  have hsplit := Int.mul_ediv_add_emod (days + 719468) 146097
  have hday : days + 719468 - (days + 719468) / 146097 * 146097 = (days + 719468) % 146097 := by
    omega
  refine ⟨_, ((days + 719468) % 146097).toNat, _, rfl, by omega, by omega, rfl, ?_⟩
  unfold civilFromDays
  simp only [era_eq, hday]
  rfl

/-- `civil_from_days` returns the date of the day. -/
theorem civilFromDays_spec (days : Int) : ∃ date : Date,
    civilFromDays days = (date.year, date.month, date.day) ∧ date.dayNumber = days := by
  obtain ⟨era, doe, yoe, -, hlt, hnumber, hyoe, hcivil⟩ := civilFromDays_eq days
  obtain ⟨hyear, hstart, hlast, hleap⟩ := yearOfEra_spec hlt hyoe
  have hleap' : doe - daysBeforeYear yoe = 365 → IsLeap (yoe + era * 400 + 1) := by
    intro hlong
    have hshift : (yoe : Int) + era * 400 + 1 = yoe + 1 + era * 400 := by omega
    rw [hshift, isLeap_add_cycles]
    exact hleap hlong
  obtain ⟨date, hdate, hdays⟩ := marchDate_spec hlast hleap'
  refine ⟨date, hcivil.trans hdate, ?_⟩
  have hepoch : daysBefore 1970 = 719162 := rfl
  rw [hdays, daysBefore_era hyear, hepoch]
  omega

/-! ## In machine arithmetic -/

def eraChecked (z : Int) : Option Int := do
  let z ← (if 0 ≤ z then some z else toI64 (z - 146096))
  return z.tdiv 146097

def yearOfEraChecked (doe : Nat) : Option Nat := do
  let days ← checkedSub doe (doe / 1460)
  let days ← checkedAdd days (doe / 36524)
  let days ← checkedSub days (doe / 146096)
  return days / 365

def daysBeforeYearChecked (yoe : Nat) : Option Nat := do
  let days ← checkedAdd (← checkedMul 365 yoe) (yoe / 4)
  checkedSub days (yoe / 100)

def marchDateChecked (y : Int) (doy : Nat) : Option (Int × Nat × Nat) := do
  let mp := (← checkedAdd (← checkedMul 5 doy) 2) / 153
  let first := (← checkedAdd (← checkedMul 153 mp) 2) / 5
  let d ← toU32 (← checkedAdd (← checkedSub doy first) 1)
  let m ← toU32 (← (if mp < 10 then checkedAdd mp 3 else checkedSub mp 9))
  let y ← (if m ≤ 2 then toI64 (y + 1) else some y)
  return (y, m, d)

/-- `civil_from_days` in the types of the source, none where a number leaves its type. -/
def civilFromDaysChecked (days : Int) : Option (Int × Nat × Nat) := do
  let z ← toI64 (days + 719468)
  let era ← eraChecked z
  let doe ← toU64 (← toI64 (z - (← toI64 (era * 146097))))
  let yoe ← yearOfEraChecked doe
  let y ← toI64 ((← toI64 yoe) + (← toI64 (era * 400)))
  let doy ← checkedSub doe (← daysBeforeYearChecked yoe)
  marchDateChecked y doy

theorem eraChecked_eq {z : Int} (h : z.natAbs < 2 ^ 62 + 2 ^ 61) :
    eraChecked z = some (z / 146097) := by
  rw [← era_eq z]
  unfold eraChecked
  split
  · rfl
  · rw [toI64_eq (by omega)]
    rfl

theorem yearOfEraChecked_eq {doe : Nat} (h : doe < 146097) : yearOfEraChecked doe =
    some ((doe - doe / 1460 + doe / 36524 - doe / 146096) / 365) := by
  have hfirst : checkedSub doe (doe / 1460) = some _ := checkedSub_eq (Nat.div_le_self ..)
  have hsecond : checkedAdd (doe - doe / 1460) (doe / 36524) = some _ :=
    checkedAdd_eq (by omega)
  have hthird : checkedSub (doe - doe / 1460 + doe / 36524) (doe / 146096) = some _ :=
    checkedSub_eq (by omega)
  simp only [yearOfEraChecked, hfirst, hsecond, hthird, Option.bind_eq_bind, Option.bind_some,
    Option.pure_def]

theorem daysBeforeYearChecked_eq {yoe : Nat} (h : yoe < 400) :
    daysBeforeYearChecked yoe = some (daysBeforeYear yoe) := by
  have hfirst : checkedMul 365 yoe = some _ := checkedMul_eq (by omega)
  have hsecond : checkedAdd (365 * yoe) (yoe / 4) = some _ := checkedAdd_eq (by omega)
  have hthird : checkedSub (365 * yoe + yoe / 4) (yoe / 100) = some _ := checkedSub_eq (by omega)
  simp only [daysBeforeYearChecked, daysBeforeYear, hfirst, hsecond, hthird,
    Option.bind_eq_bind, Option.bind_some]

theorem marchDateChecked_eq {y : Int} {doy : Nat} (hy : y.natAbs < 2 ^ 62) (hdoy : doy ≤ 365) :
    marchDateChecked y doy = some (marchDate y doy) := by
  have hfive : checkedMul 5 doy = some _ := checkedMul_eq (by omega)
  have hmonths : checkedAdd (5 * doy) 2 = some _ := checkedAdd_eq (by omega)
  generalize hmp : (5 * doy + 2) / 153 = mp
  have hle : mp ≤ 11 := by omega
  have hdays : checkedMul 153 mp = some _ := checkedMul_eq (by omega)
  have hfirst : checkedAdd (153 * mp) 2 = some _ := checkedAdd_eq (by omega)
  have hday : checkedSub doy ((153 * mp + 2) / 5) = some _ := checkedSub_eq (by omega)
  have hnext : checkedAdd (doy - (153 * mp + 2) / 5) 1 = some _ := checkedAdd_eq (by omega)
  have hd : toU32 (doy - (153 * mp + 2) / 5 + 1) = some _ := toU32_eq (by omega)
  have hmonth : (if mp < 10 then checkedAdd mp 3 else checkedSub mp 9) =
      some (if mp < 10 then mp + 3 else mp - 9) := by
    split
    · exact checkedAdd_eq (by omega)
    · exact checkedSub_eq (by omega)
  have hm : toU32 (if mp < 10 then mp + 3 else mp - 9) = some _ := toU32_eq (by split <;> omega)
  have hyear (m : Nat) : (if m ≤ 2 then toI64 (y + 1) else some y) =
      some (if m ≤ 2 then y + 1 else y) := by
    split
    · exact toI64_eq (by omega)
    · rfl
  simp only [marchDateChecked, marchDate, hmp, hfive, hmonths, hdays, hfirst, hday, hnext, hd,
    hmonth, hm, hyear, Option.bind_eq_bind, Option.bind_some, Option.pure_def]

/-- No number leaves its type. -/
theorem civilFromDaysChecked_eq {days : Int} (h : days.natAbs < 2 ^ 62) :
    civilFromDaysChecked days = some (civilFromDays days) := by
  obtain ⟨era, doe, yoe, hera, hlt, hnumber, hyoe, hcivil⟩ := civilFromDays_eq days
  obtain ⟨hyear, hstart, hlast, -⟩ := yearOfEra_spec hlt hyoe
  have hz : toI64 (days + 719468) = some _ := toI64_eq (by omega)
  generalize hshift : days + 719468 = z at hera hnumber hz
  have heraChecked : eraChecked z = some era := hera ▸ eraChecked_eq (by omega)
  have hstartOfEra : toI64 (era * 146097) = some _ := toI64_eq (by omega)
  have hdiff : toI64 (z - era * 146097) = some _ := toI64_eq (by omega)
  have hdoe : toU64 (z - era * 146097) = some doe := toU64_eq (by omega) (by omega)
  have hyoeCast : toI64 yoe = some _ := toI64_eq (by omega)
  have hyears : toI64 (era * 400) = some _ := toI64_eq (by omega)
  have hy : toI64 (yoe + era * 400) = some _ := toI64_eq (by omega)
  have hdoy : checkedSub doe (daysBeforeYear yoe) = some _ := checkedSub_eq hstart
  have hmarch : marchDateChecked (yoe + era * 400) (doe - daysBeforeYear yoe) = some _ :=
    marchDateChecked_eq (by omega) hlast
  simp only [civilFromDaysChecked, Option.bind_eq_bind]
  rw [hshift, hz, Option.bind_some, heraChecked, Option.bind_some, hstartOfEra, Option.bind_some,
    hdiff, Option.bind_some, hdoe, Option.bind_some, yearOfEraChecked_eq hlt, Option.bind_some,
    hyoe, hyoeCast, Option.bind_some, hyears, Option.bind_some, hy, Option.bind_some,
    daysBeforeYearChecked_eq hyear, Option.bind_some, hdoy, Option.bind_some, hmarch, hcivil]

end McpSerial
