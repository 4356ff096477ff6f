import Mathlib.Algebra.Group.Nat.Defs
import Mathlib.Data.List.TakeWhile

/-!
# Numbers in decimal

What `Nat.toDigits` writes, with zeros before it up to a width, is read back
digit by digit up to the first character that is no digit. An integer has a sign
before the digits of its absolute value.
-/

namespace Decimal

variable {n width : Nat} {i : Int} {digits rest : List Char} {c : Char}

/-- The number at the front of a text, and the text after its digits. -/
def readNat (text : List Char) : Nat × List Char :=
  (Nat.ofDigitChars 10 (text.takeWhile Char.isDigit) 0, text.dropWhile Char.isDigit)

/-- The integer at the front of a text. -/
def readInt : List Char → Int × List Char
  | '-' :: text => (-(readNat text).1, (readNat text).2)
  | text => ((readNat text).1, (readNat text).2)

/-- The digits of a number, with zeros before them up to the width. -/
def padded (width n : Nat) : List Char :=
  List.replicate (width - (Nat.toDigits 10 n).length) '0' ++ Nat.toDigits 10 n

/-- The text does not go on with a digit. -/
def EndsNumber (rest : List Char) : Prop := ∀ c, rest.head? = some c → c.isDigit = false

theorem endsNumber_nil : EndsNumber [] := by
  intro c h
  cases h

theorem endsNumber_cons (h : c.isDigit = false) : EndsNumber (c :: rest) := by
  intro d hd
  rw [← Option.some.inj hd]
  exact h

theorem isDigit_of_mem_toDigits (h : c ∈ Nat.toDigits 10 n) : c.isDigit = true :=
  Nat.isDigit_of_mem_toDigits (by decide) (by decide) h

theorem isDigit_of_mem_padded (h : c ∈ padded width n) : c.isDigit = true := by
  rcases List.mem_append.mp h with hzero | hdigit
  · rw [List.eq_of_mem_replicate hzero]
    rfl
  · exact isDigit_of_mem_toDigits hdigit

theorem length_padded (h : n < 10 ^ width) (hwidth : 0 < width) : (padded width n).length = width := by
  have hle := (Nat.length_toDigits_le_iff (by decide : 1 < 10) hwidth).mpr h
  rw [padded, List.length_append, List.length_replicate]
  omega

theorem padded_zero (n : Nat) : padded 0 n = Nat.toDigits 10 n := by
  rw [padded, Nat.zero_sub]
  rfl

/-- A number of the width needs no zeros. -/
theorem padded_eq_toDigits (h : 10 ^ width ≤ n) : padded (width + 1) n = Nat.toDigits 10 n := by
  have hlength : ¬ (Nat.toDigits 10 n).length ≤ width := by
    intro hle
    cases width with
    | zero => exact Nat.toDigits_ne_nil (List.length_eq_zero_iff.mp (Nat.le_zero.mp hle))
    | succ width =>
      rw [Nat.length_toDigits_le_iff (by decide) (Nat.succ_pos width)] at hle
      omega
  have hzero : width + 1 - (Nat.toDigits 10 n).length = 0 := by omega
  rw [padded, hzero]
  rfl

theorem padded_ne_nil : padded width n ≠ [] := by
  intro h
  exact Nat.toDigits_ne_nil (List.append_eq_nil_iff.mp h).2

theorem ofDigitChars_padded : Nat.ofDigitChars 10 (padded width n) 0 = n := by
  rw [padded, Nat.ofDigitChars_append, Nat.ofDigitChars_replicate_zero, Nat.mul_zero,
    Nat.ofDigitChars_ten_toDigits]

/-! ## Reading back -/

theorem readNat_append (hdigits : ∀ c ∈ digits, c.isDigit = true) (hrest : EndsNumber rest) :
    readNat (digits ++ rest) = (Nat.ofDigitChars 10 digits 0, rest) := by
  have hstop : rest.takeWhile Char.isDigit = [] ∧ rest.dropWhile Char.isDigit = rest := by
    cases rest with
    | nil => exact ⟨rfl, rfl⟩
    | cons c rest =>
      have hc := hrest c rfl
      simp [hc]
  rw [readNat, List.takeWhile_append_of_pos hdigits, List.dropWhile_append_of_pos hdigits,
    hstop.1, hstop.2, List.append_nil]

theorem readNat_toDigits (hrest : EndsNumber rest) :
    readNat (Nat.toDigits 10 n ++ rest) = (n, rest) := by
  rw [readNat_append (fun _ => isDigit_of_mem_toDigits) hrest, Nat.ofDigitChars_ten_toDigits]

theorem readNat_padded (hrest : EndsNumber rest) : readNat (padded width n ++ rest) = (n, rest) := by
  rw [readNat_append (fun _ => isDigit_of_mem_padded) hrest, ofDigitChars_padded]

theorem repr_toList (i : Int) :
    i.repr.toList = if 0 ≤ i then Nat.toDigits 10 i.toNat
      else '-' :: Nat.toDigits 10 (-i).toNat := by
  rw [Int.repr_eq_if]
  split
  · exact Nat.toList_repr
  · rw [String.toList_append, Nat.toList_repr]
    rfl

theorem isDigit_of_mem_repr (h : c ∈ i.repr.toList) : c = '-' ∨ c.isDigit = true := by
  rw [repr_toList] at h
  split at h
  · exact Or.inr (isDigit_of_mem_toDigits h)
  · rcases List.mem_cons.mp h with hminus | hdigit
    · exact Or.inl hminus
    · exact Or.inr (isDigit_of_mem_toDigits hdigit)

/-- Digits have no sign. -/
theorem readInt_toDigits (hrest : EndsNumber rest) :
    readInt (Nat.toDigits 10 n ++ rest) = ((n : Int), rest) := by
  have hread := readNat_toDigits (n := n) hrest
  unfold readInt
  split
  · rename_i text htext
    -- the first digit is no sign
    cases hdigits : Nat.toDigits 10 n with
    | nil => exact absurd hdigits Nat.toDigits_ne_nil
    | cons d ds =>
      rw [hdigits, List.cons_append] at htext
      have hd : d.isDigit = true := isDigit_of_mem_toDigits (by rw [hdigits]; simp)
      rw [(List.cons.inj htext).1] at hd
      cases hd
  · rw [hread]

/-- **An integer is read back.** -/
theorem readInt_repr (hrest : EndsNumber rest) : readInt (i.repr.toList ++ rest) = (i, rest) := by
  rw [repr_toList]
  split
  · rename_i hnonneg
    rw [readInt_toDigits hrest, Int.toNat_of_nonneg hnonneg]
  · rename_i hneg
    rw [List.cons_append, readInt, readNat_toDigits hrest]
    have habs : ((-i).toNat : Int) = -i := Int.toNat_of_nonneg (by omega)
    rw [habs, Int.neg_neg]

/-! ## Numbers with separators -/

/-- Numbers with these separators between them, and the text after them. -/
def readNumbers : List Char → List Char → Option (List Nat × List Char)
  | [], text => some ([(readNat text).1], (readNat text).2)
  | separator :: separators, text =>
    match (readNat text).2 with
    | [] => none
    | c :: rest =>
      if c = separator then
        (readNumbers separators rest).map fun r => ((readNat text).1 :: r.1, r.2)
      else
        none

theorem readNumbers_padded (hrest : EndsNumber rest) :
    readNumbers [] (padded width n ++ rest) = some ([n], rest) := by
  rw [readNumbers, readNat_padded hrest]

theorem readNumbers_cons_padded {separator : Char} {separators text : List Char}
    {numbers : List Nat} (hseparator : separator.isDigit = false)
    (h : readNumbers separators text = some (numbers, rest)) :
    readNumbers (separator :: separators) (padded width n ++ separator :: text) =
      some (n :: numbers, rest) := by
  rw [readNumbers, readNat_padded (endsNumber_cons hseparator)]
  dsimp only
  rw [if_pos rfl, h]
  rfl

end Decimal
