import SasLibclient.Calendar.Moment
import SasLibclient.Hdat.Common
import Mathlib.Tactic.IntervalCases

/-!
# Dates and times of the database

`timegm` counts the seconds of the calendar. `toDateTimeCAS` gives the
microseconds since 1960 of every timestamp but those in the second before 1970,
for which `timegm` returns what `toDateTimeCAS` takes for an error.
-/

namespace SasLibclient

open Gregorian

/-- Conversion of a `uint64_t` to `int64_t`. -/
def toInt64 (x : UInt64) : Int := Int.bmod x.toNat (2 ^ 64)

theorem toNat_ofInt (n : Int) : ((UInt64.ofInt n).toNat : Int) = n % 2 ^ 64 := by
  unfold UInt64.ofInt
  rw [UInt64.toNat_ofNat']
  omega

theorem ofInt_natCast (n : Nat) : UInt64.ofInt n = UInt64.ofNat n := by
  rw [← UInt64.toNat_inj, UInt64.toNat_ofNat']
  have h := toNat_ofInt n
  omega

theorem toInt64_ofInt {n : Int} (hlow : -2 ^ 63 ≤ n) (hhigh : n < 2 ^ 63) :
    toInt64 (UInt64.ofInt n) = n := by
  unfold toInt64
  rw [toNat_ofInt]
  show Int.bmod (n % ((2 ^ 64 : Nat) : Int)) (2 ^ 64) = n
  rw [Int.emod_bmod]
  apply Int.bmod_eq_of_le
  · omega
  · omega

/-- The moment as `timegm` gets it. -/
def tmOf (m : Moment) : Tm where
  sec := m.second
  min := m.minute
  hour := m.hour
  mday := m.date.day
  mon := m.date.month - 1
  year := m.date.year - 1900

theorem daysBeforeMonth_eq (year : Int) {month : Nat} (hpos : 1 ≤ month) (hle : month ≤ 12) :
    daysBeforeMonth (month - 1) + (if isLeapYear year && (month - 1 : Int) > 1 then 1 else 0) =
      monthStart year month := by
  have hleap : isLeapYear year = decide (IsLeap year) := by
    rw [Bool.eq_iff_iff, decide_eq_true_iff]
    simp [isLeapYear, IsLeap]
  rw [hleap]
  unfold daysBeforeMonth
  by_cases h : IsLeap year
  · interval_cases month <;> simp [h, monthStart, monthLength]
  · interval_cases month <;> simp [h, monthStart, monthLength]

/-- **`timegm`** gives the seconds from 1970 on. -/
theorem timegm_tmOf (m : Moment) : timegm (tmOf m) = m.seconds := by
  have hpos := m.date.month_pos
  have hle := m.date.month_le
  have hmonth := daysBeforeMonth_eq m.date.year hpos hle
  have hyear : m.date.year - 1900 + 1900 + (m.date.month - 1 : Int) / 12 = m.date.year := by
    omega
  have hmon : (m.date.month - 1 : Int) % 12 = m.date.month - 1 := by
    omega
  unfold timegm tmOf
  dsimp only
  rw [hyear, hmon, Moment.seconds, Date.number, ← hmonth]
  have hstart : daysBeforeYear m.date.year = newYear m.date.year := rfl
  rw [hstart]
  omega

/-! ## A timestamp of the database -/

/-- The `MYSQL_TIME` of a date. -/
structure MysqlTime.DenotesDate (dt : MysqlTime) (d : Date) : Prop where
  year : (dt.year.toNat : Int) = d.year
  month : dt.month.toNat = d.month
  day : dt.day.toNat = d.day

/-- The `MYSQL_TIME` of a timestamp; `neg` does not matter. -/
structure MysqlTime.Denotes (dt : MysqlTime) (t : Timestamp) : Prop extends
    dt.DenotesDate t.date where
  hour : dt.hour.toNat = t.hour
  minute : dt.minute.toNat = t.minute
  second : dt.second.toNat = t.second
  secondPart : dt.secondPart.toNat = t.micro

/-- The years of the types `DATE` and `DATETIME`. -/
structure InYears (d : Date) : Prop where
  first : 1000 ≤ d.year
  last : d.year ≤ 9999

theorem toInt32_of_lt {x : UInt32} (h : x.toNat < 2 ^ 31) : toInt32 x = x.toNat := by
  unfold toInt32
  apply Int.bmod_eq_of_le
  · omega
  · omega

theorem toInt32_sub {x y : UInt32} (hx : x.toNat < 2 ^ 31) (hy : y.toNat < 2 ^ 31) :
    toInt32 (x - y) = x.toNat - y.toNat := by
  unfold toInt32
  rw [UInt32.toNat_sub, Int.bmod_def]
  split
  · omega
  · omega

theorem tmDate_eq {dt : MysqlTime} {d : Date} (h : dt.DenotesDate d) (hrange : InYears d)
    (hour min sec : Int) :
    tmDate dt hour min sec = ⟨sec, min, hour, d.day, d.month - 1, d.year - 1900⟩ := by
  have hfirst := hrange.first
  have hlast := hrange.last
  have hyear := h.year
  have hmonth := h.month
  have hday := h.day
  have hmonthLe := d.month_le
  have hdayLe := d.day_le
  have hlength := monthLength_le d.year d.month
  unfold tmDate
  rw [toInt32_of_lt (by omega), toInt32_sub (by omega) (by decide),
    toInt32_sub (by omega) (by decide)]
  have hone : (1 : UInt32).toNat = 1 := rfl
  have hnineteen : (1900 : UInt32).toNat = 1900 := rfl
  rw [hone, hnineteen, hday, hmonth, hyear]
  rfl

theorem zeroTimePointCAS_eq : zeroTimePointCAS = -315619200 := by decide

theorem toDateTimeCAS_eq {input : List UInt8} {t : Timestamp}
    (h : (MysqlTime.ofBytes input).Denotes t) (hrange : InYears t.date) :
    toDateTimeCAS input = if t.toMoment.seconds = -1 then
        .error ⟨s2cErrorInvArg, "Invalid Date read from DB"⟩
      else
        .ok (UInt64.ofInt ((t.toMoment.seconds + 315619200) * 1000000 + t.micro)) := by
  have hhour : toInt32 (MysqlTime.ofBytes input).hour = t.hour := by
    have hlt := t.hour_lt
    rw [toInt32_of_lt (by rw [h.hour]; omega), h.hour]
  have hminute : toInt32 (MysqlTime.ofBytes input).minute = t.minute := by
    have hlt := t.minute_lt
    rw [toInt32_of_lt (by rw [h.minute]; omega), h.minute]
  have hsecond : toInt32 (MysqlTime.ofBytes input).second = t.second := by
    have hlt := t.second_lt
    rw [toInt32_of_lt (by rw [h.second]; omega), h.second]
  have htm : tmDate (MysqlTime.ofBytes input) (toInt32 (MysqlTime.ofBytes input).hour)
      (toInt32 (MysqlTime.ofBytes input).minute) (toInt32 (MysqlTime.ofBytes input).second) =
      tmOf t.toMoment := by
    rw [tmDate_eq h.toDenotesDate hrange, hhour, hminute, hsecond]
    rfl
  unfold toDateTimeCAS
  dsimp only
  have hmillion : UInt64.ofInt 1000000 = secToMicroSec := rfl
  have hvalue : UInt64.ofInt ((t.toMoment.seconds + 315619200) * 1000000 + t.micro) =
      UInt64.ofInt (t.toMoment.seconds + 315619200) * secToMicroSec +
        (MysqlTime.ofBytes input).secondPart := by
    rw [← h.secondPart, UInt64.ofInt_add _ (_ : Nat), UInt64.ofInt_mul, hmillion, ofInt_natCast,
      UInt64.ofNat_toNat]
  rw [htm, timegm_tmOf, zeroTimePointCAS_eq, Int.sub_neg, hvalue]

theorem number_bounds_of_inYears {d : Date} (h : InYears d) :
    -354285 ≤ d.number ∧ d.number < 2932897 := by
  obtain ⟨hstart, hend⟩ := d.number_bounds
  have hfirst := newYear_le h.first
  have hlast := newYear_le (by have := h.last; omega : d.year + 1 ≤ 10000)
  have hthousand : newYear 1000 = -354285 := by decide
  have htenThousand : newYear 10000 = 2932897 := by decide
  omega

/-- The range of the seconds. -/
theorem seconds_bounds {t : Timestamp} (h : InYears t.date) :
    -40000000000 ≤ t.toMoment.seconds ∧ t.toMoment.seconds ≤ 300000000000 := by
  obtain ⟨hfirst, hlast⟩ := number_bounds_of_inYears h
  have hhour := t.hour_lt
  have hminute := t.minute_lt
  have hsecond := t.second_lt
  unfold Moment.seconds
  omega

/-- 1 January 1960. -/
def epoch1960 : Date := .of 1960 1 1 (by decide)

/-- The microseconds from the start of 1960 to the timestamp, by the days of the
calendar. -/
def MicrosSince1960 (t : Timestamp) (n : Int) : Prop :=
  ∃ days, epoch1960.Elapsed t.date days ∧
    n = (((days * 24 + t.hour) * 60 + t.minute) * 60 + t.second) * 1000000 + t.micro

theorem microsSince1960_iff {t : Timestamp} {n : Int} :
    MicrosSince1960 t n ↔ n = (t.toMoment.seconds + 315619200) * 1000000 + t.micro := by
  have hepoch : epoch1960.number = -3653 := by decide
  unfold MicrosSince1960
  simp only [Date.elapsed_iff, exists_eq_left, hepoch, Moment.seconds]
  omega

/-- The last second before 1970. -/
def lastSecondOf1969 : Moment :=
  ⟨.of 1969 12 31 (by decide), 23, 59, 59, by decide, by decide, by decide⟩

/-- `toDateTimeCAS` returns the microseconds since 1960. -/
def EncodesExactly (input : List UInt8) (t : Timestamp) : Prop :=
  ∃ v, toDateTimeCAS input = .ok v ∧ MicrosSince1960 t (toInt64 v)

theorem microsSince1960_of_ok {input : List UInt8} {t : Timestamp} {v : UInt64}
    (h : (MysqlTime.ofBytes input).Denotes t) (hrange : InYears t.date)
    (hok : toDateTimeCAS input = .ok v) :
    toInt64 v = (t.toMoment.seconds + 315619200) * 1000000 + t.micro := by
  have hmicro := t.micro_lt
  have hbounds := seconds_bounds hrange
  rw [toDateTimeCAS_eq h hrange] at hok
  split at hok
  · cases hok
  · rw [← Except.ok.inj hok, toInt64_ofInt (by omega) (by omega)]

/-- **`toDateTimeCAS`** returns the microseconds since 1960 of every timestamp
that is not in the last second before 1970, and its values are ordered like the
timestamps. -/
theorem toDateTimeCAS_exact_iff {input : List UInt8} {t : Timestamp}
    (h : (MysqlTime.ofBytes input).Denotes t) (hrange : InYears t.date) :
    (EncodesExactly input t ↔ t.toMoment ≠ lastSecondOf1969) ∧
    ∀ input' t', (MysqlTime.ofBytes input').Denotes t' → InYears t'.date →
      ∀ v v', toDateTimeCAS input = .ok v → toDateTimeCAS input' = .ok v' →
        (toInt64 v < toInt64 v' ↔ t < t') ∧ (v = v' ↔ t = t') := by
  have hlast : lastSecondOf1969.seconds = -1 := by decide
  constructor
  · rw [ne_eq, ← Moment.seconds_inj, hlast]
    constructor
    · rintro ⟨v, hok, -⟩ hminus
      rw [toDateTimeCAS_eq h hrange, if_pos hminus] at hok
      cases hok
    · intro hminus
      have hok := toDateTimeCAS_eq h hrange
      rw [if_neg hminus] at hok
      exact ⟨_, hok, microsSince1960_iff.mpr (microsSince1960_of_ok h hrange hok)⟩
  · intro input' t' h' hrange' v v' hok hok'
    have hv := microsSince1960_of_ok h hrange hok
    have hv' := microsSince1960_of_ok h' hrange' hok'
    have hlt := t.micro_lt
    have hlt' := t'.micro_lt
    constructor
    · rw [hv, hv', ← Timestamp.micros_lt_iff, Timestamp.micros, Timestamp.micros]
      omega
    · constructor
      · rintro rfl
        rw [hv] at hv'
        rw [← Timestamp.micros_inj, Timestamp.micros, Timestamp.micros]
        omega
      · rintro rfl
        rw [toDateTimeCAS_eq h hrange] at hok
        rw [toDateTimeCAS_eq h' hrange'] at hok'
        exact Except.ok.inj (hok.symm.trans hok')

/-- A `MYSQL_TIME` of the last second of 1969. -/
def lastSecondInput : List UInt8 :=
  [177, 7, 0, 0, 12, 0, 0, 0, 31, 0, 0, 0, 23, 0, 0, 0, 59, 0, 0, 0, 59, 0, 0, 0,
    0, 0, 0, 0, 0, 0, 0, 0, 0]

/-- The second before 1970 is taken for an error. -/
theorem toDateTimeCAS_last_second :
    (MysqlTime.ofBytes lastSecondInput).Denotes ⟨lastSecondOf1969, 0, by decide⟩ ∧
    InYears lastSecondOf1969.date ∧
    toDateTimeCAS lastSecondInput = .error ⟨s2cErrorInvArg, "Invalid Date read from DB"⟩ ∧
    ¬ EncodesExactly lastSecondInput ⟨lastSecondOf1969, 0, by decide⟩ := by
  have herror : toDateTimeCAS lastSecondInput =
      .error ⟨s2cErrorInvArg, "Invalid Date read from DB"⟩ := by decide
  refine ⟨⟨⟨by decide, by decide, by decide⟩, by decide, by decide, by decide, by decide⟩,
    ⟨by decide, by decide⟩, herror, ?_⟩
  rintro ⟨v, hok, -⟩
  rw [herror] at hok
  cases hok

/-- A `MYSQL_TIME` of 1 January 1960, half a second after midnight. -/
def newYear1960Input : List UInt8 :=
  [168, 7, 0, 0, 1, 0, 0, 0, 1, 0, 0, 0, 0, 0, 0, 0, 0, 0, 0, 0, 0, 0, 0, 0,
    32, 161, 7, 0, 0, 0, 0, 0, 0]

/-- Half a second after the start of 1960. -/
theorem toDateTimeCAS_exact_1960 :
    EncodesExactly newYear1960Input ⟨⟨epoch1960, 0, 0, 0, by decide, by decide, by decide⟩, 500000,
      by decide⟩ :=
  (toDateTimeCAS_exact_iff
    ⟨⟨by decide, by decide, by decide⟩, by decide, by decide, by decide, by decide⟩
    ⟨by decide, by decide⟩).1.mpr (by decide)

end SasLibclient
