import McpSerial.Text.Json

/-! The timestamps of journal rows (`serial/journal.rs`). -/

namespace McpSerial
open Json Utf8

structure Duration where
  secs : UInt64
  nanos : Nat
  nanos_lt : nanos < 1000000000

def Duration.zero : Duration := ⟨0, 0, by decide⟩

def Duration.subsecMillis (d : Duration) : Nat := d.nanos / 1000000

def civilFromDays (days : Int) : Int × Nat × Nat :=
  let z := days + 719468
  let era := (if 0 ≤ z then z else z - 146096).tdiv 146097
  -- the unsigned numbers: a cast of a number that is never negative, and differences of such
  let doe := (z - era * 146097).toNat
  let yoe := (doe - doe / 1460 + doe / 36524 - doe / 146096) / 365
  let y := (yoe : Int) + era * 400
  let doy := doe - (365 * yoe + yoe / 4 - yoe / 100)
  let mp := (5 * doy + 2) / 153
  let d := doy - (153 * mp + 2) / 5 + 1
  let m := if mp < 10 then mp + 3 else mp - 9
  (if m ≤ 2 then y + 1 else y, m, d)

/-- `{n:0width}` of an unsigned number. -/
def zeroPadded (width n : Nat) : List Char := (Nat.toDigits 10 n).leftpad width '0'

/-- `{n:0width}` of a signed number: the sign counts as one of the characters. -/
def zeroPaddedInt (width : Nat) (n : Int) : List Char :=
  if n < 0 then '-' :: zeroPadded (width - 1) n.natAbs else zeroPadded width n.natAbs

def iso8601FromSecs (secs : Int) (millis : Nat) : String :=
  let days := secs / 86400
  let tod := (secs % 86400).toNat
  let (y, mo, d) := civilFromDays days
  let h := tod / 3600
  let mi := tod % 3600 / 60
  let s := tod % 60
  String.ofList (zeroPaddedInt 4 y ++ '-' :: zeroPadded 2 mo ++ '-' :: zeroPadded 2 d ++ 'T' ::
    zeroPadded 2 h ++ ':' :: zeroPadded 2 mi ++ ':' :: zeroPadded 2 s ++ '.' ::
    zeroPadded 3 millis ++ ['Z'])

/-- `clock` is the time since the epoch, none for a clock that is set before it. -/
def iso8601Now (clock : Option Duration) : String :=
  let dur := clock.getD .zero
  iso8601FromSecs dur.secs.toInt64.toInt dur.subsecMillis

example : iso8601FromSecs 1709210096 7 = "2024-02-29T12:34:56.007Z" := by decide

/-! ## Size -/

theorem era_eq (z : Int) : (if 0 ≤ z then z else z - 146096).tdiv 146097 = z / 146097 := by
  split
  next hnonneg => exact Int.tdiv_eq_ediv_of_nonneg hnonneg
  next hneg =>
    have hflip : z - 146096 = -(146096 - z) := by omega
    rw [hflip, Int.neg_tdiv, Int.tdiv_eq_ediv_of_nonneg (by omega)]
    omega

theorem civilFromDays_bounds {days : Int} (h : days.natAbs < 2 ^ 62) :
    (civilFromDays days).1.natAbs < 10 ^ 19 ∧ (civilFromDays days).2.1 < 10 ^ 19 ∧
      (civilFromDays days).2.2 < 10 ^ 19 := by
  unfold civilFromDays
  dsimp only
  rw [era_eq]
  generalize hdoe : (days + 719468 - (days + 719468) / 146097 * 146097).toNat = doe
  have hlt : doe < 146097 := by omega
  generalize hyoe : (doe - doe / 1460 + doe / 36524 - doe / 146096) / 365 = yoe
  have hyear : yoe < 401 := by omega
  generalize hdoy : doe - (365 * yoe + yoe / 4 - yoe / 100) = doy
  have hday : doy < 146097 := by omega
  generalize hmonth : (if (5 * doy + 2) / 153 < 10 then (5 * doy + 2) / 153 + 3
    else (5 * doy + 2) / 153 - 9) = m
  clear hyoe hdoy
  refine ⟨?_, ?_, ?_⟩
  · split <;> omega
  · split at hmonth <;> omega
  · omega

theorem unescaped_zeroPadded {width n : Nat} : ∀ c ∈ zeroPadded width n, Unescaped c := by
  intro c hc
  rcases List.mem_append.mp hc with hzero | hdigit
  · rw [List.eq_of_mem_replicate hzero]
    decide
  · exact unescaped_of_isDigit (Nat.isDigit_of_mem_toDigits (by decide) (by decide) hdigit)

theorem unescaped_zeroPaddedInt {width : Nat} {n : Int} :
    ∀ c ∈ zeroPaddedInt width n, Unescaped c := by
  unfold zeroPaddedInt
  split
  · exact List.forall_mem_cons.mpr ⟨by decide, unescaped_zeroPadded⟩
  · exact unescaped_zeroPadded

theorem length_zeroPadded_le {width n k : Nat} (hk : 0 < k) (hwidth : width ≤ k)
    (hn : n < 10 ^ k) : (zeroPadded width n).length ≤ k := by
  rw [zeroPadded, List.length_leftpad]
  exact Nat.max_le.mpr ⟨hwidth, (Nat.length_toDigits_le_iff (by decide) hk).mpr hn⟩

theorem length_zeroPaddedInt_le {width k : Nat} {n : Int} (hk : 0 < k) (hwidth : width ≤ k)
    (hn : n.natAbs < 10 ^ k) : (zeroPaddedInt width n).length ≤ k + 1 := by
  unfold zeroPaddedInt
  split
  · exact Nat.succ_le_succ (length_zeroPadded_le hk (Nat.le_trans (Nat.sub_le ..) hwidth) hn)
  · exact Nat.le_succ_of_le (length_zeroPadded_le hk hwidth hn)

theorem unescaped_iso8601FromSecs (secs : Int) (millis : Nat) :
    ∀ c ∈ (iso8601FromSecs secs millis).toList, Unescaped c := by
  unfold iso8601FromSecs
  simp only [String.toList_ofList, List.forall_mem_append, List.forall_mem_cons, List.not_mem_nil,
    false_implies, implies_true, and_true]
  and_intros
  all_goals first | exact unescaped_zeroPadded | exact unescaped_zeroPaddedInt | decide

theorem length_iso8601FromSecs_le {secs : Int} {millis : Nat} (hsecs : secs.natAbs ≤ 2 ^ 63)
    (hmillis : millis < 1000) : (iso8601FromSecs secs millis).length ≤ 150 := by
  have hbounds := civilFromDays_bounds (show (secs / 86400).natAbs < 2 ^ 62 by omega)
  rcases hcivil : civilFromDays (secs / 86400) with ⟨y, mo, d⟩
  rw [hcivil] at hbounds
  obtain ⟨hy, hmo, hd⟩ : y.natAbs < 10 ^ 19 ∧ mo < 10 ^ 19 ∧ d < 10 ^ 19 := hbounds
  have hfield {n : Nat} (hn : n < 10 ^ 19) : (zeroPadded 2 n).length ≤ 19 :=
    length_zeroPadded_le (by decide) (by decide) hn
  have hyear := length_zeroPaddedInt_le (by decide) (by decide : 4 ≤ 19) hy
  have hmonth := hfield hmo
  have hday := hfield hd
  have hhour := hfield (show (secs % 86400).toNat / 3600 < 10 ^ 19 by omega)
  have hminute := hfield (show (secs % 86400).toNat % 3600 / 60 < 10 ^ 19 by omega)
  have hsecond := hfield (show (secs % 86400).toNat % 60 < 10 ^ 19 by omega)
  have hmilli : (zeroPadded 3 millis).length ≤ 3 :=
    length_zeroPadded_le (by decide) (by decide) hmillis
  unfold iso8601FromSecs
  dsimp only
  rw [hcivil]
  simp only [String.length_ofList, List.length_append, List.length_cons, List.length_nil]
  omega

theorem length_iso8601Now_le (clock : Option Duration) : (iso8601Now clock).length ≤ 150 := by
  have hlow := (clock.getD .zero).secs.toInt64.le_toInt
  have hhigh := (clock.getD .zero).secs.toInt64.toInt_lt
  apply length_iso8601FromSecs_le
  · omega
  · exact Nat.div_lt_of_lt_mul (clock.getD .zero).nanos_lt

theorem unescaped_iso8601Now (clock : Option Duration) :
    ∀ c ∈ (iso8601Now clock).toList, Unescaped c :=
  unescaped_iso8601FromSecs _ _

end McpSerial
