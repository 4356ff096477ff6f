import SasLibclient.Calendar.Text
import SasLibclient.Hdat.DateTimes

/-!
# Printing dates and times (`hdat/common.hpp`)

What `fromDateTimeCAS`, `fromDateCAS` and `fromTimeCAS` print is read back as the
value that they got, and `toDateCAS` and `toTimeCAS` return it. The arithmetic of
the source does not overflow on these values.
-/

namespace SasLibclient

open Gregorian Decimal

/-! ## The C library -/

/-- `gmtime` -/
def gmtime (timestamp : Int) : Tm := tmOf (Moment.ofSeconds timestamp)

/-- The conversion specifications of `strftime` that the formats use. -/
def strftimeField (tm : Tm) : Char → List Char
  | 'Y' => (tm.year + 1900).repr.toList
  | 'm' => padded 2 (tm.mon + 1).toNat
  | 'd' => padded 2 tm.mday.toNat
  | 'H' => padded 2 tm.hour.toNat
  | 'M' => padded 2 tm.min.toNat
  | 'S' => padded 2 tm.sec.toNat
  | c => ['%', c]

def strftimeText (tm : Tm) : List Char → List Char
  | '%' :: c :: format => strftimeField tm c ++ strftimeText tm format
  | c :: format => c :: strftimeText tm format
  | [] => []

/-- `strftime` into an array of `max` characters, one of them for the NUL; without
the room the contents are undefined. -/
def strftime (max : Nat) (format : String) (tm : Tm) : Option (List Char) :=
  if (strftimeText tm format.toList).length < max then
    some (strftimeText tm format.toList)
  else
    none

/-! ## The functions -/

def dateFormat : String := "%Y-%m-%d"

def dateTimeFormat : String := "%Y-%m-%d %H:%M:%S"

/-- `CASshiftSec` -/
def casShiftSec : Int := timegm ⟨0, 0, 0, 1, 0, 70⟩ - zeroTimePointCAS

def dayToSec : Int := 86400

/-- `fromTimeCAS`; `total_seconds` is narrowed to an `int32_t` for the minutes. -/
def fromTimeCAS (casTime : Int) : List Char :=
  let absTime : Int := casTime.natAbs
  let totalSeconds := absTime.tdiv 1000000
  let microseconds := absTime.tmod 1000000
  let seconds := totalSeconds.tmod 60
  let totalMinutes := (totalSeconds.bmod (2 ^ 32)).tdiv 60
  let minutes := totalMinutes.tmod 60
  let hours := totalMinutes.tdiv 60
  (if absTime = casTime then [] else ['-']) ++ hours.repr.toList ++ [':'] ++ minutes.repr.toList ++
    [':'] ++ seconds.repr.toList ++ ['.'] ++ padded 6 microseconds.toNat

/-- `fromDateCAS` -/
def fromDateCAS (dtInt : Int) : Option (List Char) :=
  strftime 11 dateFormat (gmtime (dtInt * dayToSec - casShiftSec))

/-- `fromDateTimeCAS`; the microseconds are behind what `strftime` writes. -/
def fromDateTimeCAS (dtInt : Int) : Option (List Char) :=
  let microSec := dtInt.tmod 1000000
  let unixTimestamp := dtInt.tdiv 1000000 - casShiftSec
  let (microSec, unixTimestamp) :=
    if microSec < 0 then (microSec + 1000000, unixTimestamp - 1) else (microSec, unixTimestamp)
  (strftime 30 dateTimeFormat (gmtime unixTimestamp)).map fun text =>
    if microSec ≠ 0 then text ++ '.' :: padded 6 microSec.toNat else text

/-! ## Printing a date or a timestamp -/

theorem yearText {d : Date} (h : InYears d) :
    (d.year - 1900 + 1900).repr.toList = padded 4 d.year.toNat := by
  have hfirst := h.first
  rw [Int.sub_add_cancel, repr_toList, if_pos (by omega),
    padded_eq_toDigits (by omega : 10 ^ 3 ≤ d.year.toNat)]

theorem monthText (d : Date) : ((d.month : Int) - 1 + 1).toNat = d.month := by
  omega

theorem strftimeText_field (tm : Tm) (c : Char) (format : List Char) :
    strftimeText tm ('%' :: c :: format) = strftimeField tm c ++ strftimeText tm format := rfl

theorem strftimeText_cons {tm : Tm} {c : Char} {format : List Char} (h : c ≠ '%') :
    strftimeText tm (c :: format) = c :: strftimeText tm format := by
  rw [strftimeText]
  intro _ _ hc
  exact absurd hc h

theorem strftimeText_nil (tm : Tm) : strftimeText tm [] = [] := rfl

theorem strftimeText_date (m : Moment) (h : InYears m.date) :
    strftimeText (tmOf m) dateFormat.toList = m.date.text := by
  have hformat : dateFormat.toList = ['%', 'Y', '-', '%', 'm', '-', '%', 'd'] := rfl
  rw [hformat]
  simp (disch := decide) only [strftimeText_field, strftimeText_cons, strftimeText_nil,
    strftimeField, tmOf, yearText h, monthText, Int.toNat_natCast,
    Date.text, List.append_nil]

theorem strftimeText_dateTime (m : Moment) (h : InYears m.date) :
    strftimeText (tmOf m) dateTimeFormat.toList = m.text := by
  have hformat : dateTimeFormat.toList = ['%', 'Y', '-', '%', 'm', '-', '%', 'd', ' ',
    '%', 'H', ':', '%', 'M', ':', '%', 'S'] := rfl
  rw [hformat]
  simp (disch := decide) only [strftimeText_field, strftimeText_cons, strftimeText_nil,
    strftimeField, tmOf, yearText h, monthText, Int.toNat_natCast,
    Moment.text, List.append_nil]

theorem length_dateText (d : Date) (h : InYears d) : d.text.length = 10 := by
  have hlast := h.last
  have hmonth := d.month_le
  have hday := d.day_le
  have hlength := monthLength_le d.year d.month
  simp only [Date.text, List.length_append, List.length_cons,
    length_padded (by omega : d.year.toNat < 10 ^ 4) (by decide),
    length_padded (by omega : d.month < 10 ^ 2) (by decide),
    length_padded (by omega : d.day < 10 ^ 2) (by decide)]

theorem length_momentText (m : Moment) (h : InYears m.date) : m.text.length = 19 := by
  have hlast := h.last
  have hmonth := m.date.month_le
  have hday := m.date.day_le
  have hlength := monthLength_le m.date.year m.date.month
  have hhour := m.hour_lt
  have hminute := m.minute_lt
  have hsecond := m.second_lt
  simp only [Moment.text, List.length_append, List.length_cons,
    length_padded (by omega : m.date.year.toNat < 10 ^ 4) (by decide),
    length_padded (by omega : m.date.month < 10 ^ 2) (by decide),
    length_padded (by omega : m.date.day < 10 ^ 2) (by decide),
    length_padded (by omega : m.hour < 10 ^ 2) (by decide),
    length_padded (by omega : m.minute < 10 ^ 2) (by decide),
    length_padded (by omega : m.second < 10 ^ 2) (by decide)]

theorem casShiftSec_eq : casShiftSec = 315619200 := by decide

/-- The first moment of a day. -/
def midnight (d : Date) : Moment := ⟨d, 0, 0, 0, by decide, by decide, by decide⟩

theorem midnight_seconds (d : Date) : (midnight d).seconds = d.number * 86400 := by
  unfold midnight Moment.seconds
  dsimp only
  omega

/-- The days since 1960. -/
theorem elapsed_1960_iff {d : Date} {n : Int} :
    epoch1960.Elapsed d n ↔ n = d.number + 3653 := by
  have hepoch : epoch1960.number = -3653 := by decide
  rw [Date.elapsed_iff, hepoch, Int.sub_neg]

/-- **`fromDateCAS`** prints the date. -/
theorem fromDateCAS_eq {d : Date} {n : Int} (h : InYears d) (hn : epoch1960.Elapsed d n) :
    fromDateCAS n = some d.text := by
  have hseconds : n * dayToSec - casShiftSec = (midnight d).seconds := by
    rw [elapsed_1960_iff.mp hn, casShiftSec_eq, midnight_seconds, dayToSec]
    omega
  have htext := strftimeText_date (midnight d) h
  rw [fromDateCAS, hseconds, gmtime, Moment.ofSeconds_seconds, strftime, htext,
    if_pos (by rw [midnight, length_dateText d h]; decide)]
  rfl

/-- The borrow turns the truncating division into one that rounds down. -/
theorem borrow_eq (v shift : Int) :
    (if v.tmod 1000000 < 0 then (v.tmod 1000000 + 1000000, v.tdiv 1000000 - shift - 1)
      else (v.tmod 1000000, v.tdiv 1000000 - shift)) = (v % 1000000, v / 1000000 - shift) := by
  rcases Int.le_total 0 v with hv | hv
  · rw [Int.tmod_eq_emod_of_nonneg hv, Int.tdiv_eq_ediv_of_nonneg hv, if_neg (by omega)]
  · obtain ⟨w, rfl⟩ : ∃ w : Int, v = -w := ⟨-v, (Int.neg_neg v).symm⟩
    have hw : 0 ≤ w := by omega
    rw [Int.neg_tmod, Int.neg_tdiv, Int.tmod_eq_emod_of_nonneg hw, Int.tdiv_eq_ediv_of_nonneg hw]
    split
    · rw [Prod.mk.injEq]
      omega
    · rw [Prod.mk.injEq]
      omega

/-- **`fromDateTimeCAS`** prints the timestamp. -/
theorem fromDateTimeCAS_eq {t : Timestamp} {n : Int} (h : InYears t.date)
    (hn : MicrosSince1960 t n) : fromDateTimeCAS n = some t.text := by
  have hmicro := t.micro_lt
  have hvalue := microsSince1960_iff.mp hn
  have hmod : n % 1000000 = t.micro := by omega
  have hdiv : n / 1000000 - casShiftSec = t.toMoment.seconds := by
    rw [casShiftSec_eq]
    omega
  unfold fromDateTimeCAS
  dsimp only
  rw [borrow_eq, hmod, hdiv, gmtime, Moment.ofSeconds_seconds, strftime,
    strftimeText_dateTime _ h, if_pos (by rw [length_momentText _ h]; decide), Option.map_some,
    Timestamp.text, Int.toNat_natCast]
  by_cases hzero : t.micro = 0
  · rw [if_pos hzero, if_neg (by omega), List.append_nil]
  · rw [if_neg hzero, if_pos (by omega)]

/-! ## Printing a length of time -/

/-- 838:59:59.999999 -/
def maxTime : Int := 3020399999999

/-- The length of time of a number of microseconds. -/
def timeValue (t : Int) : TimeValue where
  neg := t < 0
  hours := t.natAbs / 1000000 / 60 / 60
  minutes := t.natAbs / 1000000 / 60 % 60
  seconds := t.natAbs / 1000000 % 60
  micro := t.natAbs % 1000000

theorem micros_timeValue (t : Int) : (timeValue t).micros = t := by
  unfold TimeValue.micros TimeValue.absMicros timeValue
  dsimp only
  by_cases ht : t < 0
  · rw [if_pos (decide_eq_true ht)]
    omega
  · rw [if_neg (by simpa using ht)]
    omega

/-- **`fromTimeCAS`** prints the length of time. -/
theorem fromTimeCAS_eq {t : Int} (hlow : -maxTime ≤ t) (hhigh : t ≤ maxTime) :
    fromTimeCAS t = (timeValue t).text := by
  unfold maxTime at hlow hhigh
  have habs : t.natAbs ≤ 3020399999999 := by omega
  have hseconds : ((t.natAbs : Int).tdiv 1000000).bmod (2 ^ 32) = (t.natAbs / 1000000 : Nat) := by
    rw [Int.tdiv_eq_ediv_of_nonneg (by omega)]
    apply Int.bmod_eq_of_le
    · omega
    · omega
  have hsign : (if (t.natAbs : Int) = t then [] else ['-']) =
      if decide (t < 0) = true then ['-'] else [] := by
    by_cases ht : t < 0
    · rw [if_neg (by omega), if_pos (decide_eq_true ht)]
    · rw [if_pos (by omega), if_neg (by simpa using ht)]
  have hdigits : ∀ n : Nat, (n : Int).repr.toList = Nat.toDigits 10 n := by
    intro n
    rw [repr_toList, if_pos (by omega), Int.toNat_natCast]
  unfold fromTimeCAS
  dsimp only
  rw [hseconds, hsign]
  -- what is left divides natural numbers
  show _ ++ ((t.natAbs / 1000000 / 60 / 60 : Nat) : Int).repr.toList ++ [':'] ++
    ((t.natAbs / 1000000 / 60 % 60 : Nat) : Int).repr.toList ++ [':'] ++
    ((t.natAbs / 1000000 % 60 : Nat) : Int).repr.toList ++ ['.'] ++
    padded 6 (t.natAbs % 1000000) = _
  rw [hdigits, hdigits, hdigits, TimeValue.text, timeValue]
  simp only [List.append_assoc, List.cons_append, List.nil_append]

/-- The `MYSQL_TIME` of a length of time. -/
structure MysqlTime.DenotesTime (dt : MysqlTime) (t : TimeValue) : Prop where
  hour : dt.hour.toNat = t.hours
  minute : dt.minute.toNat = t.minutes
  second : dt.second.toNat = t.seconds
  secondPart : dt.secondPart.toNat = t.micro
  neg : dt.neg = t.neg

theorem toTimeCAS_eq {input : List UInt8} {t : TimeValue}
    (h : (MysqlTime.ofBytes input).DenotesTime t)
    (hlt : (t.hours * 60 + t.minutes) * 60 + t.seconds < 2 ^ 32) :
    toTimeCAS input = UInt64.ofInt t.micros := by
  have hseconds : ((MysqlTime.ofBytes input).second + (MysqlTime.ofBytes input).minute * 60 +
      (MysqlTime.ofBytes input).hour * 3600).toNat =
      (t.hours * 60 + t.minutes) * 60 + t.seconds := by
    have hsixty : (60 : UInt32).toNat = 60 := rfl
    have hhour : (3600 : UInt32).toNat = 3600 := rfl
    rw [UInt32.toNat_add, UInt32.toNat_add, UInt32.toNat_mul, UInt32.toNat_mul, hsixty, hhour,
      h.hour, h.minute, h.second]
    omega
  have hmillion : secToMicroSec = UInt64.ofNat 1000000 := rfl
  have habs : (MysqlTime.ofBytes input).secondPart + secToMicroSec * UInt64.ofNat
      ((MysqlTime.ofBytes input).second + (MysqlTime.ofBytes input).minute * 60 +
        (MysqlTime.ofBytes input).hour * 3600).toNat = UInt64.ofInt t.absMicros := by
    rw [hseconds, hmillion, ofInt_natCast, TimeValue.absMicros, ← h.secondPart]
    generalize (t.hours * 60 + t.minutes) * 60 + t.seconds = seconds
    rw [UInt64.ofNat_add, UInt64.ofNat_mul, UInt64.ofNat_toNat, UInt64.mul_comm, UInt64.add_comm]
  unfold toTimeCAS
  dsimp only
  rw [habs, h.neg, TimeValue.micros]
  cases t.neg with
  | true =>
    rw [if_pos rfl, if_pos rfl]
    exact (UInt64.ofInt_neg _).symm
  | false => rw [if_neg Bool.false_ne_true, if_neg Bool.false_ne_true]

/-- `toDateCAS` in terms of the calendar: the number of seconds is never -1. -/
theorem toDateCAS_eq {input : List UInt8} {d : Date}
    (h : (MysqlTime.ofBytes input).DenotesDate d) (hrange : InYears d) :
    toDateCAS input = .ok (UInt32.ofInt (d.number + 3653)) := by
  have htm : tmDate (MysqlTime.ofBytes input) 0 0 0 = tmOf (midnight d) := by
    rw [tmDate_eq h hrange]
    rfl
  have hdays : (d.number * 86400 - -315619200) / (3600 * 24) = d.number + 3653 := by
    omega
  unfold toDateCAS
  dsimp only
  rw [htm, timegm_tmOf, midnight_seconds, zeroTimePointCAS_eq, if_neg (by omega), hdays]

theorem toInt32_ofInt {n : Int} (hlow : -2 ^ 31 ≤ n) (hhigh : n < 2 ^ 31) :
    toInt32 (UInt32.ofInt n) = n := by
  have hmod : ((UInt32.ofInt n).toNat : Int) = n % ((2 ^ 32 : Nat) : Int) := by
    unfold UInt32.ofInt
    rw [UInt32.toNat_ofNat']
    omega
  unfold toInt32
  rw [hmod, Int.emod_bmod]
  apply Int.bmod_eq_of_le
  · omega
  · omega

/-- **Timestamps, dates and lengths of time** are printed as texts that are read
back as the values that they denote, and the conversions of these values return
them. -/
theorem printed_values_exact :
    (∀ v t, InYears t.date → MicrosSince1960 t v →
      (fromDateTimeCAS v).bind readTimestamp = some t) ∧
    (∀ d date, InYears date → epoch1960.Elapsed date d →
      (fromDateCAS d).bind readDate = some date ∧
      ∀ input, (MysqlTime.ofBytes input).DenotesDate date →
        ∃ w, toDateCAS input = .ok w ∧ toInt32 w = d) ∧
    ∀ t, -maxTime ≤ t → t ≤ maxTime →
      ∃ value, readTime (fromTimeCAS t) = some value ∧ value.micros = t ∧
      ∀ input, (MysqlTime.ofBytes input).DenotesTime value → toInt64 (toTimeCAS input) = t := by
  refine ⟨?_, ?_, ?_⟩
  · intro v t hrange hv
    have hfirst := hrange.first
    rw [fromDateTimeCAS_eq hrange hv, Option.bind_some]
    exact readTimestamp_text t (by omega)
  · intro d date hrange hd
    have hfirst := hrange.first
    refine ⟨?_, ?_⟩
    · rw [fromDateCAS_eq hrange hd, Option.bind_some]
      exact readDate_text date (by omega)
    · intro input hinput
      refine ⟨_, toDateCAS_eq hinput hrange, ?_⟩
      have hbounds := number_bounds_of_inYears hrange
      rw [elapsed_1960_iff.mp hd]
      exact toInt32_ofInt (by omega) (by omega)
  · intro t hlow hhigh
    refine ⟨timeValue t, ?_, micros_timeValue t, ?_⟩
    · rw [fromTimeCAS_eq hlow hhigh]
      exact readTime_text (timeValue t) (Nat.mod_lt _ (by decide))
    · unfold maxTime at hlow hhigh
      intro input hinput
      have hlt : ((timeValue t).hours * 60 + (timeValue t).minutes) * 60 +
          (timeValue t).seconds < 2 ^ 32 := by
        unfold timeValue
        dsimp only
        omega
      rw [toTimeCAS_eq hinput hlt, micros_timeValue]
      exact toInt64_ofInt (by omega) (by omega)

/-- The last microsecond of 1959. -/
def lastOf1959 : Timestamp where
  toMoment := { lastSecondOf1969 with date := .of 1959 12 31 (by decide) }
  micro := 999999
  micro_lt := by decide

/-- The microsecond before 1960, the day before, and the longest time back. -/
theorem printed_values_exact_negative :
    (fromDateTimeCAS (-1)).bind readTimestamp = some lastOf1959 ∧
    (fromDateCAS (-1)).bind readDate = some lastOf1959.date ∧
    ∃ value, readTime (fromTimeCAS (-3020399999999)) = some value ∧
      value.micros = -3020399999999 := by
  have hdays : epoch1960.Elapsed lastOf1959.date (-1) := elapsed_1960_iff.mpr (by decide)
  have hmicros : MicrosSince1960 lastOf1959 (-1) := microsSince1960_iff.mpr (by decide)
  obtain ⟨htimestamp, hdate, htime⟩ := printed_values_exact
  obtain ⟨value, hread, hvalue, -⟩ := htime (-3020399999999) (by decide) (by decide)
  exact ⟨htimestamp (-1) lastOf1959 ⟨by decide, by decide⟩ hmicros,
    (hdate (-1) lastOf1959.date ⟨by decide, by decide⟩ hdays).1, value, hread, hvalue⟩

end SasLibclient
