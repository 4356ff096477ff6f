import SasLibclient.Calendar.Gregorian

/-!
# Moments of the calendar

A moment is a second of a day of the Gregorian calendar, a timestamp a
microsecond of such a second. Moments are numbered from the start of 1 January
1970, without leap seconds, and ordered like their numbers.
-/

namespace Gregorian

@[ext]
structure Moment where
  date : Date
  hour : Nat
  minute : Nat
  second : Nat
  hour_lt : hour < 24
  minute_lt : minute < 60
  second_lt : second < 60
  deriving DecidableEq, Repr

namespace Moment

/-- The seconds from 1970 on. -/
def seconds (m : Moment) : Int :=
  ((m.date.number * 24 + m.hour) * 60 + m.minute) * 60 + m.second

instance : LT Moment where
  lt a b := a.date < b.date ∨ a.date = b.date ∧ (a.hour < b.hour ∨ a.hour = b.hour ∧
    (a.minute < b.minute ∨ a.minute = b.minute ∧ a.second < b.second))

theorem lt_def (a b : Moment) : a < b ↔ a.date < b.date ∨ a.date = b.date ∧
    (a.hour < b.hour ∨ a.hour = b.hour ∧
      (a.minute < b.minute ∨ a.minute = b.minute ∧ a.second < b.second)) := Iff.rfl

theorem seconds_inj {a b : Moment} : a.seconds = b.seconds ↔ a = b := by
  refine ⟨?_, fun h => by rw [h]⟩
  intro h
  have ha := a.hour_lt
  have ha' := a.minute_lt
  have ha'' := a.second_lt
  have hb := b.hour_lt
  have hb' := b.minute_lt
  have hb'' := b.second_lt
  unfold seconds at h
  exact Moment.ext (Date.number_inj.mp (by omega)) (by omega) (by omega) (by omega)

/-- **Moments are ordered like their numbers.** -/
theorem seconds_lt_iff {a b : Moment} : a.seconds < b.seconds ↔ a < b := by
  have ha := a.hour_lt
  have ha' := a.minute_lt
  have ha'' := a.second_lt
  have hb := b.hour_lt
  have hb' := b.minute_lt
  have hb'' := b.second_lt
  rw [lt_def, ← Date.number_lt_iff, ← Date.number_inj, seconds, seconds]
  omega

/-- The moment of a second. -/
def ofSeconds (n : Int) : Moment where
  date := Date.ofNumber (n / 86400)
  hour := (n % 86400).toNat / 3600
  minute := (n % 86400).toNat / 60 % 60
  second := (n % 86400).toNat % 60
  hour_lt := by omega
  minute_lt := by omega
  second_lt := by omega

theorem seconds_ofSeconds (n : Int) : (ofSeconds n).seconds = n := by
  rw [seconds, ofSeconds]
  dsimp only
  rw [Date.number_ofNumber]
  omega

theorem ofSeconds_seconds (m : Moment) : ofSeconds m.seconds = m := by
  rw [← seconds_inj, seconds_ofSeconds]

end Moment

structure Timestamp extends Moment where
  micro : Nat
  micro_lt : micro < 1000000
  deriving DecidableEq, Repr

namespace Timestamp

/-- The microseconds from 1970 on. -/
def micros (t : Timestamp) : Int := t.toMoment.seconds * 1000000 + t.micro

instance : LT Timestamp where
  lt a b := a.toMoment < b.toMoment ∨ a.toMoment = b.toMoment ∧ a.micro < b.micro

theorem lt_def (a b : Timestamp) : a < b ↔ a.toMoment < b.toMoment ∨
    a.toMoment = b.toMoment ∧ a.micro < b.micro := Iff.rfl

theorem micros_inj {a b : Timestamp} : a.micros = b.micros ↔ a = b := by
  refine ⟨?_, fun h => by rw [h]⟩
  intro h
  have ha := a.micro_lt
  have hb := b.micro_lt
  unfold micros at h
  have hmoment : a.toMoment = b.toMoment := Moment.seconds_inj.mp (by omega)
  have hmicro : a.micro = b.micro := by
    rw [hmoment] at h
    omega
  cases a
  cases b
  cases hmoment
  cases hmicro
  rfl

/-- **Timestamps are ordered like their numbers.** -/
theorem micros_lt_iff {a b : Timestamp} : a.micros < b.micros ↔ a < b := by
  have ha := a.micro_lt
  have hb := b.micro_lt
  rw [lt_def, ← Moment.seconds_lt_iff, ← Moment.seconds_inj, micros, micros]
  omega

end Timestamp

end Gregorian
