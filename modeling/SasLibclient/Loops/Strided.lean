import Mathlib.Data.List.Nodup
import Mathlib.Algebra.Order.Group.Int

/-!
# Counting loops with a stride

`strided first step bound` lists the values of the counter of
`for (i = first; i < bound; i += step)`. For a positive step they are the
numbers from `first` below `bound` that are congruent to `first`, each once
and in order; for two first values that differ by less than the step, the
numbers of values differ by at most one.
-/

namespace Loops

/-- The values of the loop counter. -/
def strided (first step bound : Int) : List Int :=
  if first < bound ∧ 0 < step then first :: strided (first + step) step bound else []
termination_by (bound - first).toNat
decreasing_by omega

variable {first step bound i : Int}

theorem strided_of_le (h : bound ≤ first) : strided first step bound = [] := by
  rw [strided, if_neg]
  omega

theorem strided_of_lt (h : first < bound) (hs : 0 < step) :
    strided first step bound = first :: strided (first + step) step bound := by
  rw [strided, if_pos ⟨h, hs⟩]

theorem le_of_mem_strided (h : i ∈ strided first step bound) : first ≤ i := by
  induction first using strided.induct step bound with
  | case1 first hcond ih =>
    rw [strided_of_lt hcond.1 hcond.2, List.mem_cons] at h
    rcases h with rfl | h
    · omega
    · have := ih h
      omega
  | case2 first hcond =>
    rw [strided, if_neg hcond] at h
    cases h

theorem mem_strided (hs : 0 < step) :
    i ∈ strided first step bound ↔ first ≤ i ∧ i < bound ∧ step ∣ i - first := by
  induction first using strided.induct step bound with
  | case1 first hcond ih =>
    rw [strided_of_lt hcond.1 hs, List.mem_cons, ih]
    constructor
    · rintro (rfl | ⟨hle, hlt, k, hk⟩)
      · exact ⟨by omega, hcond.1, by simp⟩
      · exact ⟨by omega, hlt, k + 1, by rw [Int.mul_add]; omega⟩
    · rintro ⟨hle, hlt, k, hk⟩
      rcases Int.lt_trichotomy k 0 with hneg | rfl | hpos
      · have := Int.mul_neg_of_pos_of_neg hs hneg
        omega
      · left
        omega
      · right
        have hge : step * 1 ≤ step * k := Int.mul_le_mul_of_nonneg_left hpos hs.le
        exact ⟨by omega, hlt, k - 1, by rw [Int.mul_sub]; omega⟩
  | case2 first hcond =>
    rw [strided, if_neg hcond]
    constructor
    · intro h
      cases h
    · rintro ⟨hle, hlt, _⟩
      exact absurd ⟨by omega, hs⟩ hcond

theorem strided_sorted (first step bound : Int) :
    (strided first step bound).Pairwise (· < ·) := by
  induction first using strided.induct step bound with
  | case1 first hcond ih =>
    rw [strided_of_lt hcond.1 hcond.2, List.pairwise_cons]
    refine ⟨fun j hj => ?_, ih⟩
    have := le_of_mem_strided hj
    omega
  | case2 first hcond =>
    rw [strided, if_neg hcond]
    exact List.Pairwise.nil

theorem strided_nodup (first step bound : Int) : (strided first step bound).Nodup :=
  (strided_sorted first step bound).imp fun h => by omega

theorem length_strided_anti {first' : Int} (h : first ≤ first') :
    (strided first' step bound).length ≤ (strided first step bound).length := by
  induction first using strided.induct step bound generalizing first' with
  | case1 first hcond ih =>
    rw [strided_of_lt hcond.1 hcond.2, List.length_cons]
    rcases Int.lt_or_le first' bound with hlt | hge
    · rw [strided_of_lt hlt hcond.2, List.length_cons]
      exact Nat.succ_le_succ (ih (by omega))
    · rw [strided_of_le hge]
      exact Nat.zero_le _
  | case2 first hcond =>
    have hnil : strided first' step bound = [] := by
      rw [strided, if_neg]
      intro hcond'
      exact hcond ⟨by omega, hcond'.2⟩
    rw [hnil]
    exact Nat.zero_le _

/-- A start less than one step later makes the loop at most one turn shorter. -/
theorem length_strided_le_succ {first' : Int} (h : first' ≤ first + step) :
    (strided first step bound).length ≤ (strided first' step bound).length + 1 := by
  rw [strided]
  split
  · rw [List.length_cons]
    exact Nat.succ_le_succ (length_strided_anti h)
  · exact Nat.zero_le _

/-- Loops that start at different residues have nearly equal lengths. -/
theorem length_strided_balanced {first' : Int} (h : first < first' + step)
    (h' : first' < first + step) :
    (strided first step bound).length ≤ (strided first' step bound).length + 1 ∧
      (strided first' step bound).length ≤ (strided first step bound).length + 1 :=
  ⟨length_strided_le_succ h'.le, length_strided_le_succ h.le⟩

theorem strided_disjoint {first' bound' : Int} (hs : 0 < step) (h0 : 0 ≤ first) (h : first < step)
    (h0' : 0 ≤ first') (h' : first' < step) (hi : i ∈ strided first step bound)
    (hi' : i ∈ strided first' step bound') : first = first' := by
  obtain ⟨_, _, hd⟩ := (mem_strided hs).mp hi
  obtain ⟨_, _, hd'⟩ := (mem_strided hs).mp hi'
  have h₁ := Int.emod_eq_emod_iff_emod_sub_eq_zero.mpr (Int.emod_eq_zero_of_dvd hd)
  have h₂ := Int.emod_eq_emod_iff_emod_sub_eq_zero.mpr (Int.emod_eq_zero_of_dvd hd')
  rw [Int.emod_eq_of_lt h0 h] at h₁
  rw [Int.emod_eq_of_lt h0' h'] at h₂
  rw [← h₁, ← h₂]

theorem mem_strided_emod (hs : 0 < step) (h0 : 0 ≤ i) (h : i < bound) :
    i ∈ strided (i % step) step bound := by
  refine (mem_strided hs).mpr ⟨?_, h, Int.dvd_self_sub_emod⟩
  have hsum := Int.emod_add_mul_ediv i step
  have hquot : 0 ≤ step * (i / step) := Int.mul_nonneg hs.le (Int.ediv_nonneg h0 hs.le)
  omega

theorem strided_zero_one (n : Nat) : strided 0 1 n = (List.range n).map Nat.cast := by
  have hfrom : ∀ k m : Nat, strided m 1 ((m + k : Nat) : Int) =
      (List.range' m k).map Nat.cast := by
    intro k
    induction k with
    | zero =>
      intro m
      exact strided_of_le (by simp)
    | succ k ih =>
      intro m
      have htail := ih (m + 1)
      rw [Nat.add_right_comm, Nat.add_assoc] at htail
      rw [strided_of_lt (by omega) (by decide), List.range'_succ, List.map_cons]
      exact congrArg _ htail
  have hall := hfrom n 0
  rw [Nat.zero_add, ← List.range_eq_range'] at hall
  exact hall

end Loops
