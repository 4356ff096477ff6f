import Mathlib.Algebra.Group.Int.Defs
import Mathlib.Algebra.Group.Nat.Defs
import Mathlib.Logic.Function.Iterate

/-!
# The Gregorian calendar

Dates of the calendar without a start or an end, the day after a date, and the
number of a day, which counts from 1 January 1970. The number grows by one from
a day to the next, every number is the one of a date, and dates are ordered like
their numbers.
-/

namespace Gregorian

def IsLeap (year : Int) : Prop := year % 4 = 0 ∧ (year % 100 ≠ 0 ∨ year % 400 = 0)

instance (year : Int) : Decidable (IsLeap year) := inferInstanceAs (Decidable (_ ∧ _))

/-- The months count from 1. -/
def monthLength (year : Int) : Nat → Nat
  | 2 => if IsLeap year then 29 else 28
  | 4 | 6 | 9 | 11 => 30
  | _ => 31

def yearLength (year : Int) : Nat := if IsLeap year then 366 else 365

/-- A date that the calendar has. -/
@[ext]
structure Date where
  year : Int
  month : Nat
  day : Nat
  month_pos : 1 ≤ month
  month_le : month ≤ 12
  day_pos : 1 ≤ day
  day_le : day ≤ monthLength year month
  deriving DecidableEq, Repr

def Date.of (year : Int) (month day : Nat)
    (h : 1 ≤ month ∧ month ≤ 12 ∧ 1 ≤ day ∧ day ≤ monthLength year month) : Date :=
  ⟨year, month, day, h.1, h.2.1, h.2.2.1, h.2.2.2⟩

theorem monthLength_pos (year : Int) (month : Nat) : 28 ≤ monthLength year month := by
  unfold monthLength
  split
  · split <;> omega
  · omega
  · omega
  · omega
  · omega
  · omega

theorem monthLength_le (year : Int) (month : Nat) : monthLength year month ≤ 31 := by
  unfold monthLength
  split
  · split <;> omega
  · omega
  · omega
  · omega
  · omega
  · omega

/-- The following day. -/
def Date.next (d : Date) : Date :=
  if hday : d.day < monthLength d.year d.month then
    { d with
      day := d.day + 1
      day_pos := Nat.succ_pos d.day
      day_le := hday }
  else if hmonth : d.month < 12 then
    { year := d.year
      month := d.month + 1
      day := 1
      month_pos := Nat.succ_pos d.month
      month_le := hmonth
      day_pos := Nat.le_refl 1
      day_le := Nat.le_trans (by decide) (monthLength_pos d.year (d.month + 1)) }
  else
    { year := d.year + 1
      month := 1
      day := 1
      month_pos := Nat.le_refl 1
      month_le := by decide
      day_pos := Nat.le_refl 1
      day_le := Nat.le_trans (by decide) (monthLength_pos (d.year + 1) 1) }

/-! ## The number of a day -/

/-- The number of 1 January. -/
def newYear (year : Int) : Int :=
  365 * (year - 1970) + ((year - 1) / 4 - (year - 1) / 100 + (year - 1) / 400 - 477)

/-- The days of the year before the month. -/
def monthStart (year : Int) : Nat → Nat
  | 0 => 0
  | 1 => 0
  | month + 2 => monthStart year (month + 1) + monthLength year (month + 1)

def Date.number (d : Date) : Int :=
  newYear d.year + monthStart d.year d.month + (d.day - 1 : Int)

theorem monthStart_succ (year : Int) {month : Nat} (h : 1 ≤ month) :
    monthStart year (month + 1) = monthStart year month + monthLength year month := by
  cases month with
  | zero => omega
  | succ month => rfl

theorem newYear_succ (year : Int) : newYear (year + 1) = newYear year + yearLength year := by
  unfold yearLength
  by_cases hleap : IsLeap year
  · rw [if_pos hleap]
    unfold IsLeap at hleap
    unfold newYear
    omega
  · rw [if_neg hleap]
    unfold IsLeap at hleap
    unfold newYear
    omega

theorem monthStart_total (year : Int) : monthStart year 12 + 31 = yearLength year := by
  simp only [monthStart, monthLength, yearLength]
  split <;> rfl

/-- **The number of the next day.** -/
theorem Date.number_next (d : Date) : d.next.number = d.number + 1 := by
  have hle := d.day_le
  have hlast := d.month_le
  unfold Date.next
  split
  · rw [number, number]
    push_cast
    omega
  · split
    · rw [number, number]
      dsimp only
      rw [monthStart_succ d.year d.month_pos]
      push_cast
      omega
    · rename_i hday _
      have htwelve : d.month = 12 := by omega
      have hdecember : monthLength d.year 12 = 31 := rfl
      have htotal := monthStart_total d.year
      rw [htwelve, hdecember] at hle hday
      rw [number, number, htwelve]
      dsimp only
      rw [newYear_succ]
      have hjanuary : monthStart (d.year + 1) 1 = 0 := rfl
      rw [hjanuary]
      omega

theorem Date.number_iterate (d : Date) (n : Nat) : (next^[n] d).number = d.number + n := by
  induction n generalizing d with
  | zero => simp
  | succ n ih =>
    rw [Function.iterate_succ_apply, ih, number_next]
    push_cast
    omega

/-! ## The order of dates -/

/-- The order of year, month and day. -/
instance : LT Date where
  lt a b := a.year < b.year ∨ a.year = b.year ∧
    (a.month < b.month ∨ a.month = b.month ∧ a.day < b.day)

theorem Date.lt_def (a b : Date) : a < b ↔ a.year < b.year ∨ a.year = b.year ∧
    (a.month < b.month ∨ a.month = b.month ∧ a.day < b.day) := Iff.rfl

theorem Date.lt_trichotomy (a b : Date) : a < b ∨ a = b ∨ b < a := by
  rw [lt_def, lt_def]
  by_cases hyear : a.year = b.year
  · by_cases hmonth : a.month = b.month
    · by_cases hday : a.day = b.day
      · exact Or.inr (Or.inl (Date.ext hyear hmonth hday))
      · omega
    · omega
  · omega

theorem monthStart_le (year : Int) {a b : Nat} (ha : 1 ≤ a) (hab : a < b) :
    monthStart year a + monthLength year a ≤ monthStart year b := by
  induction b with
  | zero => omega
  | succ b ih =>
    rw [monthStart_succ year (by omega)]
    by_cases heq : a = b
    · exact Nat.le_of_eq (by rw [heq])
    · have hle := ih (by omega)
      omega

theorem Date.number_bounds (d : Date) :
    newYear d.year ≤ d.number ∧ d.number < newYear (d.year + 1) := by
  have hpos := d.day_pos
  have hle := d.day_le
  have htotal := monthStart_total d.year
  rw [newYear_succ, number]
  refine ⟨by omega, ?_⟩
  by_cases hlast : d.month = 12
  · have hdecember : monthLength d.year 12 = 31 := rfl
    rw [hlast] at hle ⊢
    omega
  · have hbefore := monthStart_le d.year d.month_pos (by have := d.month_le; omega : d.month < 12)
    omega

theorem newYear_le {a b : Int} (h : a ≤ b) : newYear a ≤ newYear b := by
  unfold newYear
  omega

theorem Date.number_lt {a b : Date} (h : a < b) : a.number < b.number := by
  rcases h with hyear | ⟨hyear, hmonth | ⟨hmonth, hday⟩⟩
  · have hle := newYear_le (by omega : a.year + 1 ≤ b.year)
    have ha := a.number_bounds
    have hb := b.number_bounds
    omega
  · have hle := monthStart_le a.year a.month_pos hmonth
    have hlast := a.day_le
    have hpos := b.day_pos
    rw [number, number, ← hyear]
    omega
  · rw [number, number, hyear, hmonth]
    omega

/-- **Dates are ordered like their numbers.** -/
theorem Date.number_lt_iff {a b : Date} : a.number < b.number ↔ a < b := by
  refine ⟨?_, number_lt⟩
  intro h
  rcases lt_trichotomy a b with hlt | rfl | hgt
  · exact hlt
  · omega
  · have hback := number_lt hgt
    omega

theorem Date.number_inj {a b : Date} : a.number = b.number ↔ a = b := by
  refine ⟨?_, fun h => by rw [h]⟩
  intro h
  rcases lt_trichotomy a b with hlt | heq | hgt
  · have hless := number_lt hlt
    omega
  · exact heq
  · have hless := number_lt hgt
    omega

/-! ## The date of a number -/

/-- The year of a day: 400 years have 146097 days, so the guess is off by one at
most. -/
def yearOf (n : Int) : Int :=
  let year := 1970 + n * 400 / 146097
  if n < newYear year then year - 1
  else if newYear (year + 1) ≤ n then year + 1
  else year

theorem yearOf_spec (n : Int) : newYear (yearOf n) ≤ n ∧ n < newYear (yearOf n + 1) := by
  unfold yearOf
  dsimp only
  generalize hguess : n * 400 / 146097 = guess
  split
  · rename_i hbefore
    rw [Int.sub_add_cancel]
    refine ⟨?_, hbefore⟩
    unfold newYear
    omega
  · split
    · rename_i hafter
      refine ⟨hafter, ?_⟩
      unfold newYear
      omega
    · omega

/-- The last month up to this one that starts on the day `k` of the year or
before. -/
def monthOf (year : Int) (k : Nat) : Nat → Nat
  | 0 => 1
  | month + 1 => if monthStart year (month + 1) ≤ k then month + 1 else monthOf year k month

theorem monthOf_spec (year : Int) (k : Nat) {last : Nat} (hlast : 1 ≤ last) :
    1 ≤ monthOf year k last ∧ monthOf year k last ≤ last ∧
      monthStart year (monthOf year k last) ≤ k ∧
      (monthOf year k last < last → k < monthStart year (monthOf year k last + 1)) := by
  induction last with
  | zero => omega
  | succ last ih =>
    rw [monthOf]
    split
    · rename_i hstart
      exact ⟨hlast, Nat.le_refl _, hstart, fun h => absurd h (Nat.lt_irrefl _)⟩
    · rename_i hstart
      cases last with
      | zero => exact absurd (Nat.zero_le k) hstart
      | succ last =>
        obtain ⟨hpos, hle, hbefore, hafter⟩ := ih (by omega)
        refine ⟨hpos, by omega, hbefore, ?_⟩
        intro hless
        by_cases heq : monthOf year k (last + 1) = last + 1
        · rw [heq]
          omega
        · exact hafter (by omega)

theorem monthOf_day_le (year : Int) {k : Nat} (hk : newYear year + k < newYear (year + 1)) :
    k - monthStart year (monthOf year k 12) + 1 ≤ monthLength year (monthOf year k 12) := by
  obtain ⟨hpos, hle, hbefore, hafter⟩ := monthOf_spec year k (by decide : 1 ≤ 12)
  by_cases htwelve : monthOf year k 12 = 12
  · have hdecember : monthLength year 12 = 31 := rfl
    have htotal := monthStart_total year
    rw [newYear_succ] at hk
    rw [htwelve]
    omega
  · have hnext := hafter (by omega)
    rw [monthStart_succ year hpos] at hnext
    omega

/-- The date of the day with this number. -/
def Date.ofNumber (n : Int) : Date where
  year := yearOf n
  month := monthOf (yearOf n) (n - newYear (yearOf n)).toNat 12
  day := (n - newYear (yearOf n)).toNat -
    monthStart (yearOf n) (monthOf (yearOf n) (n - newYear (yearOf n)).toNat 12) + 1
  month_pos := (monthOf_spec _ _ (by decide)).1
  month_le := (monthOf_spec _ _ (by decide)).2.1
  day_pos := Nat.succ_pos _
  day_le := by
    obtain ⟨hstart, hend⟩ := yearOf_spec n
    exact monthOf_day_le (yearOf n) (by omega)

/-- **Every number** is the one of a date. -/
theorem Date.number_ofNumber (n : Int) : (ofNumber n).number = n := by
  obtain ⟨hstart, -⟩ := yearOf_spec n
  obtain ⟨-, -, hbefore, -⟩ :=
    monthOf_spec (yearOf n) (n - newYear (yearOf n)).toNat (by decide : 1 ≤ 12)
  rw [number, ofNumber]
  push_cast
  omega

/-! ## Days between dates -/

/-- The days from `a` to `b`, counted from one to the next: `b` follows `a` after
`n` days, or `a` follows `b` after `-n` days. -/
def Date.Elapsed (a b : Date) (n : Int) : Prop :=
  (∃ k : Nat, n = k ∧ next^[k] a = b) ∨ ∃ k : Nat, n = -k ∧ next^[k] b = a

/-- **The difference of the numbers** counts the days. -/
theorem Date.elapsed_iff {a b : Date} {n : Int} : Elapsed a b n ↔ n = b.number - a.number := by
  constructor
  · rintro (⟨k, rfl, rfl⟩ | ⟨k, rfl, rfl⟩)
    · rw [number_iterate]
      omega
    · rw [number_iterate]
      omega
  · rintro rfl
    rcases Int.le_total a.number b.number with hle | hle
    · refine Or.inl ⟨(b.number - a.number).toNat, by omega, ?_⟩
      rw [← number_inj, number_iterate]
      omega
    · refine Or.inr ⟨(a.number - b.number).toNat, by omega, ?_⟩
      rw [← number_inj, number_iterate]
      omega

end Gregorian
