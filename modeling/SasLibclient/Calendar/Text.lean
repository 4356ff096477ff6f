import SasLibclient.Calendar.Moment
import SasLibclient.Text.Decimal

/-!
# Dates and times as text

The texts `YYYY-MM-DD`, `YYYY-MM-DD HH:MM:SS[.ffffff]` and `[-]H:M:S.ffffff`, and
the readers that give back what they denote.
-/

namespace Gregorian

open Decimal

/-- The date with these numbers, if there is one. -/
def Date.ofFields (year month day : Nat) : Option Date :=
  if h : (1 ≤ month ∧ month ≤ 12) ∧ 1 ≤ day ∧ day ≤ monthLength year month then
    some ⟨year, month, day, h.1.1, h.1.2, h.2.1, h.2.2⟩
  else
    none

theorem Date.ofFields_eq (d : Date) (h : 0 ≤ d.year) :
    ofFields d.year.toNat d.month d.day = some d := by
  have hyear : (d.year.toNat : Int) = d.year := Int.toNat_of_nonneg h
  unfold ofFields
  split
  · exact congrArg some (Date.ext hyear rfl rfl)
  · rename_i hnot
    rw [hyear] at hnot
    exact absurd ⟨⟨d.month_pos, d.month_le⟩, d.day_pos, d.day_le⟩ hnot

/-- `YYYY-MM-DD` -/
def Date.text (d : Date) : List Char :=
  padded 4 d.year.toNat ++ '-' :: (padded 2 d.month ++ '-' :: padded 2 d.day)

/-- A date, with nothing after it. -/
def readDate (text : List Char) : Option Date :=
  match readNumbers ['-', '-'] text with
  | some ([year, month, day], []) => Date.ofFields year month day
  | _ => none

/-- **A date is read back.** -/
theorem readDate_text (d : Date) (h : 0 ≤ d.year) : readDate d.text = some d := by
  have hday : readNumbers [] (padded 2 d.day) = some ([d.day], []) := by
    have hread : readNumbers [] (padded 2 d.day ++ []) = some ([d.day], []) :=
      readNumbers_padded endsNumber_nil
    rwa [List.append_nil] at hread
  have hnumbers : readNumbers ['-', '-'] d.text = some ([d.year.toNat, d.month, d.day], []) := by
    apply readNumbers_cons_padded rfl
    exact readNumbers_cons_padded rfl hday
  rw [readDate, hnumbers]
  exact d.ofFields_eq h

namespace Moment

/-- The moment with these numbers, if there is one. -/
def ofFields (year month day hour minute second : Nat) : Option Moment :=
  if h : hour < 24 ∧ minute < 60 ∧ second < 60 then
    (Date.ofFields year month day).map fun date =>
      ⟨date, hour, minute, second, h.1, h.2.1, h.2.2⟩
  else
    none

theorem ofFields_eq (m : Moment) (h : 0 ≤ m.date.year) :
    ofFields m.date.year.toNat m.date.month m.date.day m.hour m.minute m.second = some m := by
  rw [ofFields, dif_pos ⟨m.hour_lt, m.minute_lt, m.second_lt⟩, Date.ofFields_eq _ h]
  rfl

/-- `YYYY-MM-DD HH:MM:SS` -/
def text (m : Moment) : List Char :=
  padded 4 m.date.year.toNat ++ '-' :: (padded 2 m.date.month ++ '-' :: (padded 2 m.date.day ++
    ' ' :: (padded 2 m.hour ++ ':' :: (padded 2 m.minute ++ ':' :: padded 2 m.second))))

/-- The numbers of a moment, before a text that does not begin with a digit. -/
theorem readNumbers_text (m : Moment) {rest : List Char} (hrest : EndsNumber rest) :
    readNumbers ['-', '-', ' ', ':', ':'] (m.text ++ rest) =
      some ([m.date.year.toNat, m.date.month, m.date.day, m.hour, m.minute, m.second], rest) := by
  simp only [text, List.append_assoc, List.cons_append]
  apply readNumbers_cons_padded rfl
  apply readNumbers_cons_padded rfl
  apply readNumbers_cons_padded rfl
  apply readNumbers_cons_padded rfl
  apply readNumbers_cons_padded rfl
  exact readNumbers_padded hrest

end Moment

/-- The microseconds of six digits. -/
def readMicros (digits : List Char) : Option Nat :=
  if digits.length = 6 then
    match readNumbers [] digits with
    | some ([micro], []) => some micro
    | _ => none
  else
    none

theorem readMicros_padded {micro : Nat} (h : micro < 1000000) :
    readMicros (padded 6 micro) = some micro := by
  have hlength : (padded 6 micro).length = 6 := length_padded (by omega) (by decide)
  have hread : readNumbers [] (padded 6 micro ++ []) = some ([micro], []) :=
    readNumbers_padded endsNumber_nil
  rw [List.append_nil] at hread
  rw [readMicros, if_pos hlength, hread]

namespace Timestamp

/-- `YYYY-MM-DD HH:MM:SS`, with the microseconds unless there are none. -/
def text (t : Timestamp) : List Char :=
  t.toMoment.text ++ if t.micro = 0 then [] else '.' :: padded 6 t.micro

end Timestamp

/-- The timestamp of a moment and some microseconds. -/
def Moment.at (m : Moment) (micro : Nat) : Option Timestamp :=
  if h : micro < 1000000 then some ⟨m, micro, h⟩ else none

theorem Moment.at_eq (t : Timestamp) : t.toMoment.at t.micro = some t := by
  rw [Moment.at, dif_pos t.micro_lt]

def readTimestamp (text : List Char) : Option Timestamp :=
  match readNumbers ['-', '-', ' ', ':', ':'] text with
  | some ([year, month, day, hour, minute, second], []) =>
    (Moment.ofFields year month day hour minute second).bind fun m => m.at 0
  | some ([year, month, day, hour, minute, second], '.' :: digits) =>
    (readMicros digits).bind fun micro =>
      (Moment.ofFields year month day hour minute second).bind fun m => m.at micro
  | _ => none

/-- **A timestamp is read back.** -/
theorem readTimestamp_text (t : Timestamp) (h : 0 ≤ t.date.year) :
    readTimestamp t.text = some t := by
  have hmoment := Moment.ofFields_eq t.toMoment h
  have hat := Moment.at_eq t
  by_cases hmicro : t.micro = 0
  · rw [readTimestamp, Timestamp.text, if_pos hmicro, Moment.readNumbers_text _ endsNumber_nil]
    rw [hmicro] at hat
    show (Moment.ofFields _ _ _ _ _ _).bind (fun m => m.at 0) = some t
    rw [hmoment]
    exact hat
  · rw [readTimestamp, Timestamp.text, if_neg hmicro,
      Moment.readNumbers_text _ (endsNumber_cons rfl)]
    show (readMicros (padded 6 t.micro)).bind (fun micro =>
      (Moment.ofFields _ _ _ _ _ _).bind fun m => m.at micro) = some t
    rw [readMicros_padded t.micro_lt, hmoment]
    exact hat

/-! ## Lengths of time -/

/-- A signed length of time, as it is written. -/
structure TimeValue where
  neg : Bool
  hours : Nat
  minutes : Nat
  seconds : Nat
  micro : Nat
  deriving DecidableEq, Repr

namespace TimeValue

/-- The microseconds without the sign. -/
def absMicros (t : TimeValue) : Nat :=
  ((t.hours * 60 + t.minutes) * 60 + t.seconds) * 1000000 + t.micro

def micros (t : TimeValue) : Int := if t.neg then -t.absMicros else t.absMicros

/-- `[-]H:M:S.ffffff` -/
def text (t : TimeValue) : List Char :=
  (if t.neg then ['-'] else []) ++ (Nat.toDigits 10 t.hours ++ ':' :: (Nat.toDigits 10 t.minutes ++
    ':' :: (Nat.toDigits 10 t.seconds ++ '.' :: padded 6 t.micro)))

end TimeValue

/-- A length of time without a sign. -/
def readAbsTime (neg : Bool) (text : List Char) : Option TimeValue :=
  match readNumbers [':', ':'] text with
  | some ([hours, minutes, seconds], '.' :: digits) =>
    (readMicros digits).map fun micro => ⟨neg, hours, minutes, seconds, micro⟩
  | _ => none

theorem readAbsTime_text (t : TimeValue) (hmicro : t.micro < 1000000) (neg : Bool) :
    readAbsTime neg (padded 0 t.hours ++ ':' :: (padded 0 t.minutes ++
      ':' :: (padded 0 t.seconds ++ '.' :: padded 6 t.micro))) =
      some { t with neg := neg } := by
  have hnumbers : readNumbers [':', ':'] (padded 0 t.hours ++ ':' :: (padded 0 t.minutes ++
      ':' :: (padded 0 t.seconds ++ '.' :: padded 6 t.micro))) =
      some ([t.hours, t.minutes, t.seconds], '.' :: padded 6 t.micro) := by
    apply readNumbers_cons_padded rfl
    apply readNumbers_cons_padded rfl
    exact readNumbers_padded (endsNumber_cons rfl)
  rw [readAbsTime, hnumbers]
  show (readMicros (padded 6 t.micro)).map _ = _
  rw [readMicros_padded hmicro]
  rfl

def readTime : List Char → Option TimeValue
  | '-' :: text => readAbsTime true text
  | text => readAbsTime false text

/-- **A length of time is read back.** -/
theorem readTime_text (t : TimeValue) (hmicro : t.micro < 1000000) : readTime t.text = some t := by
  have hread := readAbsTime_text t hmicro t.neg
  rw [TimeValue.text, ← padded_zero, ← padded_zero, ← padded_zero]
  cases hneg : t.neg with
  | true =>
    rw [hneg] at hread
    rw [if_pos rfl, List.singleton_append, readTime, hread, ← hneg]
  | false =>
    rw [hneg] at hread
    rw [if_neg Bool.false_ne_true, List.nil_append]
    have hdigit : ∃ c rest, padded 0 t.hours ++ ':' :: (padded 0 t.minutes ++
        ':' :: (padded 0 t.seconds ++ '.' :: padded 6 t.micro)) = c :: rest ∧ c ≠ '-' := by
      have hne : padded 0 t.hours ≠ [] := padded_ne_nil
      obtain ⟨c, rest, hcons⟩ := List.exists_cons_of_ne_nil hne
      refine ⟨c, _, by rw [hcons]; rfl, ?_⟩
      rintro rfl
      have hmem : '-' ∈ padded 0 t.hours := by
        rw [hcons]
        exact List.mem_cons_self
      have hdigit : '-'.isDigit = true := isDigit_of_mem_padded hmem
      cases hdigit
    obtain ⟨c, rest, htext, hc⟩ := hdigit
    rw [htext] at hread ⊢
    unfold readTime
    split
    · rename_i heq
      exact absurd (List.cons.inj heq).1 hc
    · rw [hread, ← hneg]

end Gregorian
