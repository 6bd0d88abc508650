import McpSerial.Journal.Dates
import McpSerial.Text.FixedWidth

/-! The timestamps of the journal sort as texts in the order of their instants. -/

namespace McpSerial
open Gregorian FixedWidth

/-! ## Numbers of one width -/

theorem zeroPadded_one {n : Nat} (h : n < 10) : zeroPadded 1 n = [n.digitChar] := by
  rw [zeroPadded, Nat.toDigits_of_lt_base h]
  rfl

theorem zeroPadded_succ {width : Nat} (hwidth : 0 < width) (n : Nat) :
    zeroPadded (width + 1) n = zeroPadded width (n / 10) ++ [(n % 10).digitChar] := by
  unfold zeroPadded
  by_cases hlt : n < 10
  · rw [Nat.div_eq_of_lt hlt, Nat.mod_eq_of_lt hlt, Nat.toDigits_of_lt_base hlt, Nat.toDigits_zero]
    obtain ⟨k, rfl⟩ := Nat.exists_eq_add_of_le' hwidth
    simp only [List.leftpad, List.length_singleton, Nat.add_sub_cancel, List.replicate_succ']
  · rw [Nat.toDigits_of_base_le (by decide) (Nat.le_of_not_lt hlt)]
    simp only [List.leftpad, List.length_append, List.length_singleton, Nat.add_sub_add_right,
      List.append_assoc]

theorem length_zeroPadded {width n : Nat} (hwidth : 0 < width) (h : n < 10 ^ width) :
    (zeroPadded width n).length = width := by
  have hdigits := (Nat.length_toDigits_le_iff (by decide) hwidth).mpr h
  rw [zeroPadded, List.length_leftpad, Nat.max_eq_left hdigits]

theorem digitChar_lt : ∀ n < 10, ∀ m < n, m.digitChar < n.digitChar := by decide

theorem zeroPadded_lt {width n n' : Nat} (hwidth : 0 < width) (hlt : n < n')
    (h : n' < 10 ^ width) : zeroPadded width n < zeroPadded width n' := by
  induction width, hwidth using Nat.le_induction generalizing n n' with
  | base =>
    rw [zeroPadded_one (Nat.lt_trans hlt h), zeroPadded_one h]
    exact .rel (digitChar_lt n' h n hlt)
  | succ width hwidth ih =>
    have hhigh : n' / 10 < 10 ^ width := Nat.div_lt_of_lt_mul (Nat.pow_succ' ▸ h)
    rw [zeroPadded_succ hwidth, zeroPadded_succ hwidth]
    rcases Nat.lt_or_eq_of_le (Nat.div_le_div_right (Nat.le_of_lt hlt)) with hless | heq
    · have hlen := length_zeroPadded hwidth hhigh
      exact append_lt_append ((length_zeroPadded hwidth (Nat.lt_trans hless hhigh)).trans
        hlen.symm) (ih hless hhigh) _ _
    · rw [heq]
      apply List.append_left_lt
      exact .rel (digitChar_lt _ (Nat.mod_lt _ (by decide)) _ (by omega))

def number (width : Nat) (last : Char) (hwidth : 0 < width) : Field Char Nat where
  print n := zeroPadded width n ++ [last]
  valid n := n < 10 ^ width
  width := width + 1
  length_print h := by rw [List.length_append, length_zeroPadded hwidth h, List.length_singleton]
  print_lt h h' hlt := append_lt_append
    ((length_zeroPadded hwidth h).trans (length_zeroPadded hwidth h').symm)
    (zeroPadded_lt hwidth hlt h') _ _

/-! ## The fields of a timestamp -/

def timestampFields : List (Field Char Nat) :=
  [number 4 '-' (by decide), number 2 '-' (by decide), number 2 'T' (by decide),
    number 2 ':' (by decide), number 2 ':' (by decide), number 2 '.' (by decide),
    number 3 'Z' (by decide)]

/-- The numbers of a timestamp, from the date, the second of the day and the millisecond. -/
def timestampNumbers (date : Date) (tod millis : Nat) : List Nat :=
  [date.year.toNat, date.month, date.day, tod / 3600, tod % 3600 / 60, tod % 60, millis]

theorem timestampNumbers_lt_of_date {date date' : Date} (h : date.Before date')
    (hyear : 0 ≤ date.year) (tod tod' millis millis' : Nat) :
    timestampNumbers date tod millis < timestampNumbers date' tod' millis' := by
  rcases h with hless | ⟨heq, hmonth | ⟨hmonth, hday⟩⟩
  · exact .rel (by omega)
  · rw [timestampNumbers, timestampNumbers, heq]
    exact .cons (.rel hmonth)
  · rw [timestampNumbers, timestampNumbers, heq, hmonth]
    exact .cons (.cons (.rel hday))

theorem timestampNumbers_lt_of_clock {tod tod' millis millis' : Nat}
    (h : tod < tod' ∨ tod = tod' ∧ millis < millis') (date : Date) :
    timestampNumbers date tod millis < timestampNumbers date tod' millis' := by
  refine .cons (.cons (.cons ?_))
  rcases h with hless | ⟨rfl, hmillis⟩
  · rcases Nat.lt_or_eq_of_le (Nat.div_le_div_right (c := 3600) (Nat.le_of_lt hless)) with
      hhour | hhour
    · exact .rel hhour
    · have hrest : tod % 3600 < tod' % 3600 := by omega
      rw [hhour]
      refine .cons ?_
      rcases Nat.lt_or_eq_of_le (Nat.div_le_div_right (c := 60) (Nat.le_of_lt hrest)) with
        hminute | hminute
      · exact .rel hminute
      · rw [hminute]
        exact .cons (.rel (by omega))
  · exact .cons (.cons (.cons (.rel hmillis)))

theorem toList_iso8601FromSecs {secs : Int} {date : Date} (hyear : 0 ≤ date.year)
    (hcivil : civilFromDays (secs / 86400) = (date.year, date.month, date.day)) (millis : Nat) :
    (iso8601FromSecs secs millis).toList =
      printAll timestampFields (timestampNumbers date (secs % 86400).toNat millis) := by
  have hprint : zeroPaddedInt 4 date.year = zeroPadded 4 date.year.toNat := by
    rw [zeroPaddedInt, if_neg (Int.not_lt.mpr hyear)]
    exact congrArg (zeroPadded 4) (by omega)
  unfold iso8601FromSecs
  dsimp only
  rw [hcivil]
  simp only [String.toList_ofList, hprint, timestampFields, timestampNumbers, printAll, number,
    List.append_assoc, List.cons_append, List.nil_append, List.append_nil]

theorem valid_timestampNumbers {date : Date} {tod millis : Nat} (hyear : date.year ≤ 9999)
    (htod : tod < 86400) (hmillis : millis < 1000) : List.Forall₂ (fun f n => f.valid n)
      timestampFields (timestampNumbers date tod millis) := by
  have hmonth := date.month_le
  have hday := Nat.le_trans date.day_le (monthLength_le _ _)
  unfold timestampFields timestampNumbers
  simp only [List.forall₂_cons, List.forall₂_nil_left_iff, number, and_true]
  omega

/-! ## Instants -/

def firstDay : Date := ⟨1970, 1, 1, by decide, by decide, by decide, by decide⟩

def lastDay : Date := ⟨9999, 12, 31, by decide, by decide, by decide, by decide⟩

@[ext]
structure Instant where
  secs : Int
  millis : Nat
  firstDay_le : firstDay.dayNumber ≤ secs / 86400
  le_lastDay : secs / 86400 ≤ lastDay.dayNumber
  millis_lt : millis < 1000

namespace Instant

def Before (a b : Instant) : Prop := a.secs < b.secs ∨ a.secs = b.secs ∧ a.millis < b.millis

def text (i : Instant) : String := iso8601FromSecs i.secs i.millis

instance : Std.Trichotomous Before where
  trichotomous a b := by
    unfold Before
    rw [Instant.ext_iff]
    omega

def tod (i : Instant) : Nat := (i.secs % 86400).toNat

theorem tod_lt (i : Instant) : i.tod < 86400 := by
  unfold tod
  omega

theorem exists_date (i : Instant) : ∃ date : Date, date.dayNumber = i.secs / 86400 ∧
    0 ≤ date.year ∧ date.year ≤ 9999 ∧
      i.text.toList = printAll timestampFields (timestampNumbers date i.tod i.millis) := by
  obtain ⟨date, hcivil, hday⟩ := civilFromDays_spec (i.secs / 86400)
  have hfirst : 1970 ≤ date.year := Date.year_le (a := firstDay) (hday ▸ i.firstDay_le)
  have hlast : date.year ≤ 9999 := Date.year_le (b := lastDay) (hday ▸ i.le_lastDay)
  have hyear : 0 ≤ date.year := by omega
  exact ⟨date, hday, hyear, hlast, toList_iso8601FromSecs hyear hcivil i.millis⟩

/-- The numbers of the earlier instant are the lesser record. -/
theorem Before.numbers_lt {a b : Instant} (h : a.Before b) {date date' : Date}
    (hdate : date.dayNumber = a.secs / 86400) (hdate' : date'.dayNumber = b.secs / 86400)
    (hyear : 0 ≤ date.year) : timestampNumbers date a.tod a.millis <
      timestampNumbers date' b.tod b.millis := by
  unfold Before at h
  have hdays : a.secs / 86400 ≤ b.secs / 86400 := by omega
  rcases Int.lt_or_eq_of_le hdays with hless | heq
  · have hbefore : date.Before date' := Date.dayNumber_lt_iff.mp (hdate ▸ hdate' ▸ hless)
    exact timestampNumbers_lt_of_date hbefore hyear ..
  · have hsame : date = date' := Date.dayNumber_injective (by omega)
    rw [hsame]
    apply timestampNumbers_lt_of_clock
    unfold tod
    omega

theorem Before.text_lt {a b : Instant} (h : a.Before b) : a.text < b.text := by
  obtain ⟨date, hdate, hnonneg, hyear, htext⟩ := a.exists_date
  obtain ⟨date', hdate', -, hyear', htext'⟩ := b.exists_date
  rw [String.lt_iff, htext, htext']
  exact printAll_lt (valid_timestampNumbers hyear a.tod_lt a.millis_lt)
    (valid_timestampNumbers hyear' b.tod_lt b.millis_lt) (h.numbers_lt hdate hdate' hnonneg)

/-- The timestamps are in the order of the instants. -/
def textEmbedding : Before ↪r fun s t : String => s < t :=
  have : Std.Asymm fun s t : String => s < t := ⟨fun _ _ => String.lt_asymm⟩
  .ofMonotone text fun _ _ => Before.text_lt

theorem text_lt_iff {a b : Instant} : a.text < b.text ↔ a.Before b := textEmbedding.map_rel_iff

theorem text_injective : Function.Injective text := textEmbedding.injective

example : text ⟨253402300799, 999, by decide, by decide, by decide⟩ =
    "9999-12-31T23:59:59.999Z" := by decide

end Instant

/-- The date of a day of any `i64` number of seconds is the only one of that day and computed
without an overflow, and the timestamps of instants sort as the instants do. -/
theorem timestamps_sorted :
    (∀ secs : Int64, ∃ date : Date,
      civilFromDays (secs.toInt / 86400) = (date.year, date.month, date.day) ∧
        civilFromDaysChecked (secs.toInt / 86400) = some (date.year, date.month, date.day) ∧
          ∀ other : Date, other.dayNumber = secs.toInt / 86400 ↔ other = date) ∧
      ∀ a b : Instant,
        (iso8601FromSecs a.secs a.millis < iso8601FromSecs b.secs b.millis ↔ a.Before b) ∧
          (iso8601FromSecs a.secs a.millis = iso8601FromSecs b.secs b.millis ↔ a = b) := by
  refine ⟨fun secs => ?_, fun a b => ⟨Instant.text_lt_iff, Instant.text_injective.eq_iff⟩⟩
  obtain ⟨date, hcivil, hday⟩ := civilFromDays_spec (secs.toInt / 86400)
  have hlow := secs.le_toInt
  have hhigh := secs.toInt_lt
  have hchecked := civilFromDaysChecked_eq (show (secs.toInt / 86400).natAbs < 2 ^ 62 by omega)
  refine ⟨date, hcivil, hcivil ▸ hchecked, fun other => ⟨fun h => ?_, fun h => h ▸ hday⟩⟩
  exact Date.dayNumber_injective (h.trans hday.symm)

end McpSerial
