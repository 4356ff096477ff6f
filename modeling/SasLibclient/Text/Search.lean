import Mathlib.Data.List.Infix
import Mathlib.Data.Nat.Find

/-!
# Searching in a text

The first occurrence of a text in another one, from a position on. Positions
count from the start of the text, and what stands before the position does not
matter.
-/

namespace Search

variable {α : Type}

/-- The text stands at the position. -/
def OccursAt (needle text : List α) (i : Nat) : Prop := needle <+: text.drop i

variable {needle text before rest : List α} {c : α} {i j pos : Nat}

theorem occursAt_iff :
    OccursAt needle text i ↔ ∃ rest, text.drop i = needle ++ rest := by
  constructor
  · rintro ⟨rest, h⟩
    exact ⟨rest, h.symm⟩
  · rintro ⟨rest, h⟩
    exact ⟨rest, h.symm⟩

theorem OccursAt.lt (h : OccursAt needle text i) (hneedle : needle ≠ []) : i < text.length := by
  by_contra hle
  rw [OccursAt, List.drop_eq_nil_of_le (Nat.le_of_not_lt hle), List.prefix_nil] at h
  exact hneedle h

theorem occursAt_singleton : OccursAt [c] text i ↔ text[i]? = some c := by
  rw [OccursAt, ← List.head?_drop]
  cases text.drop i with
  | nil => simp
  | cons d rest =>
    constructor
    · intro h
      obtain rfl := (List.cons_prefix_cons.mp h).1
      rfl
    · intro h
      obtain rfl := Option.some.inj h
      exact ⟨rest, rfl⟩

/-- The characters of the text that stands there. -/
theorem OccursAt.getElem? (h : OccursAt needle text i) {k : Nat} (hk : k < needle.length) :
    text[i + k]? = needle[k]? := by
  obtain ⟨after, hafter⟩ := occursAt_iff.mp h
  rw [← List.getElem?_drop, hafter, List.getElem?_append_left hk]

theorem infix_iff : needle <:+: text ↔ ∃ i, OccursAt needle text i := by
  constructor
  · rintro ⟨before, after, rfl⟩
    refine ⟨before.length, after, ?_⟩
    rw [List.append_assoc, List.drop_left]
  · rintro ⟨i, after, h⟩
    refine ⟨text.take i, after, ?_⟩
    rw [List.append_assoc, h, List.take_append_drop]

/-! ## The first occurrence -/

section FindFrom

variable [DecidableEq α]

instance : Decidable (OccursAt needle text i) := inferInstanceAs (Decidable (_ <+: _))

/-- The first position from `pos` on at which the text stands. -/
def findFrom (needle text : List α) (pos : Nat) : Option Nat :=
  ((text.drop pos).dropInfix? needle).map fun found => pos + found.1.length

theorem findFrom_eq_some_iff (hneedle : needle ≠ []) :
    findFrom needle text pos = some i ↔
      pos ≤ i ∧ OccursAt needle text i ∧ ∀ j, pos ≤ j → j < i → ¬ OccursAt needle text j := by
  rw [findFrom, Option.map_eq_some_iff]
  constructor
  · rintro ⟨⟨before, after⟩, hfound, rfl⟩
    obtain ⟨⟨needle', hsplit, heq⟩, hfirst⟩ := List.dropInfix?_eq_some_iff.mp hfound
    obtain rfl := eq_of_beq heq
    refine ⟨Nat.le_add_right _ _, ⟨after, ?_⟩, ?_⟩
    · rw [← List.drop_drop, hsplit, List.append_assoc, List.drop_left]
    · intro j hpos hj hoccurs
      obtain ⟨after', hafter⟩ := occursAt_iff.mp hoccurs
      have hlength := hfirst ((text.drop pos).take (j - pos)) needle' after' (by
        rw [List.append_assoc, ← hafter, ← Nat.add_sub_cancel' hpos, ← List.drop_drop,
          Nat.add_sub_cancel_left, List.take_append_drop]) (beq_self_eq_true _)
      have htake := List.length_take_le (j - pos) (text.drop pos)
      dsimp only at hj
      omega
  · rintro ⟨hpos, hoccurs, hfirst⟩
    have hlt := hoccurs.lt hneedle
    obtain ⟨after, hafter⟩ := occursAt_iff.mp hoccurs
    refine ⟨((text.drop pos).take (i - pos), after), ?_, ?_⟩
    · refine List.dropInfix?_eq_some_iff.mpr ⟨⟨needle, ?_, beq_self_eq_true _⟩, ?_⟩
      · rw [List.append_assoc, ← hafter, ← Nat.add_sub_cancel' hpos, ← List.drop_drop,
          Nat.add_sub_cancel_left, List.take_append_drop]
      · intro before' needle' after' hsplit heq
        obtain rfl := eq_of_beq heq
        have hstands : OccursAt needle' text (pos + before'.length) := by
          refine ⟨after', ?_⟩
          rw [← List.drop_drop, hsplit, List.append_assoc, List.drop_left]
        have hnot : ¬ pos + before'.length < i :=
          fun hlt => hfirst _ (Nat.le_add_right pos _) hlt hstands
        rw [List.length_take, List.length_drop]
        omega
    · dsimp only
      rw [List.length_take, List.length_drop]
      omega

theorem findFrom_eq_none_iff (hneedle : needle ≠ []) :
    findFrom needle text pos = none ↔ ∀ j, pos ≤ j → ¬ OccursAt needle text j := by
  constructor
  · intro hnone j hpos hoccurs
    -- the least such position is found
    have hexists : ∃ j, pos ≤ j ∧ OccursAt needle text j := ⟨j, hpos, hoccurs⟩
    have hfound := (findFrom_eq_some_iff hneedle).mpr
      ⟨(Nat.find_spec hexists).1, (Nat.find_spec hexists).2,
        fun k hk hlt hoccurs => Nat.find_min hexists hlt ⟨hk, hoccurs⟩⟩
    rw [hnone] at hfound
    cases hfound
  · intro hclear
    cases hfound : findFrom needle text pos with
    | none => rfl
    | some i =>
      obtain ⟨hpos, hoccurs, -⟩ := (findFrom_eq_some_iff hneedle).mp hfound
      exact absurd hoccurs (hclear i hpos)

theorem findFrom_lt (hneedle : needle ≠ []) (h : findFrom needle text pos = some i) :
    i < text.length :=
  ((findFrom_eq_some_iff hneedle).mp h).2.1.lt hneedle

theorem le_findFrom (hneedle : needle ≠ []) (h : findFrom needle text pos = some i) : pos ≤ i :=
  ((findFrom_eq_some_iff hneedle).mp h).1

theorem findFrom_drop (needle text : List α) (pos : Nat) :
    findFrom needle text pos = (findFrom needle (text.drop pos) 0).map (pos + ·) := by
  rw [findFrom, findFrom, List.drop_zero, Option.map_map]
  simp only [Function.comp_def, Nat.zero_add]

/-- What stands before the position does not matter. -/
theorem findFrom_append (needle before rest : List α) (pos : Nat) :
    findFrom needle (before ++ rest) (before.length + pos) =
      (findFrom needle rest pos).map (before.length + ·) := by
  rw [findFrom, findFrom, List.drop_append, List.drop_eq_nil_of_le (Nat.le_add_right _ pos),
    List.nil_append, Nat.add_sub_cancel_left, Option.map_map]
  simp only [Function.comp_def, Nat.add_assoc]

/-- A text after one that does not contain it, when it does not overlap itself. -/
theorem findFrom_first (hneedle : needle ≠ []) (hbefore : ¬ needle <:+: before)
    (hborder : ∀ k < needle.length, needle[k]? = needle[0]? → k = 0) :
    findFrom needle (before ++ (needle ++ rest)) 0 = some before.length := by
  have hpos := List.length_pos_iff.mpr hneedle
  refine (findFrom_eq_some_iff hneedle).mpr ⟨Nat.zero_le _, ⟨rest, ?_⟩, ?_⟩
  · rw [List.drop_left]
  · intro j _ hj hoccurs
    by_cases hle : j + needle.length ≤ before.length
    · -- it would be a part of the text before
      have hdrop : (before ++ (needle ++ rest)).drop j = before.drop j ++ (needle ++ rest) :=
        List.drop_append_of_le_length (Nat.le_of_lt hj)
      rw [OccursAt, hdrop] at hoccurs
      refine hbefore (infix_iff.mpr ⟨j, List.prefix_of_prefix_length_le hoccurs
        (List.prefix_append _ _) ?_⟩)
      rw [List.length_drop]
      omega
    · have hk : before.length - j < needle.length := by omega
      have hget := hoccurs.getElem? hk
      rw [show j + (before.length - j) = before.length by omega,
        List.getElem?_append_right (Nat.le_refl _), Nat.sub_self,
        List.getElem?_append_left hpos] at hget
      have hzero := hborder _ hk hget.symm
      omega

/-- A single character after a text without it. -/
theorem findFrom_singleton (hbefore : c ∉ before) :
    findFrom [c] (before ++ c :: rest) 0 = some before.length := by
  refine (findFrom_eq_some_iff (List.cons_ne_nil _ _)).mpr ⟨Nat.zero_le _, ?_, ?_⟩
  · rw [occursAt_singleton, List.getElem?_append_right (Nat.le_refl _), Nat.sub_self]
    rfl
  · intro j _ hj hoccurs
    rw [occursAt_singleton, List.getElem?_append_left hj] at hoccurs
    exact hbefore (List.mem_of_getElem? hoccurs)

theorem findFrom_singleton_split (h : findFrom [c] text pos = some i) :
    ∃ before rest, text.drop pos = before ++ c :: rest ∧ c ∉ before ∧ i = pos + before.length := by
  have hmem : c ∈ text.drop pos := by
    obtain ⟨hpos, hoccurs, -⟩ := (findFrom_eq_some_iff (List.cons_ne_nil _ _)).mp h
    refine List.mem_of_getElem? (i := i - pos) ?_
    rw [List.getElem?_drop, Nat.add_sub_cancel' hpos]
    exact occursAt_singleton.mp hoccurs
  obtain ⟨before, rest, hsplit, hbefore⟩ := List.eq_append_cons_of_mem hmem
  have hfound : findFrom [c] (before ++ c :: rest) 0 = some before.length :=
    findFrom_singleton hbefore
  rw [← hsplit, findFrom, List.drop_zero] at hfound
  obtain ⟨found, hdrop, hlength⟩ := Option.map_eq_some_iff.mp hfound
  refine ⟨before, rest, hsplit, hbefore, ?_⟩
  rw [findFrom, hdrop, Option.map_some, Option.some.injEq] at h
  omega

theorem takeWhile_of_notMem (hbefore : c ∉ before) :
    (before ++ c :: rest).takeWhile (fun x => x != c) = before := by
  rw [List.takeWhile_append_of_pos]
  · simp
  · intro x hx
    have hne : x ≠ c := by
      rintro rfl
      exact hbefore hx
    simpa using hne

theorem findFrom_singleton_none (h : c ∉ text) : findFrom [c] text pos = none := by
  refine (findFrom_eq_none_iff (List.cons_ne_nil _ _)).mpr ?_
  intro j _ hoccurs
  exact h (List.mem_of_getElem? (occursAt_singleton.mp hoccurs))

theorem findFrom_isSome_iff (hneedle : needle ≠ []) :
    (findFrom needle text 0).isSome = true ↔ needle <:+: text := by
  rw [infix_iff]
  cases hfound : findFrom needle text 0 with
  | none =>
    have hclear := (findFrom_eq_none_iff hneedle).mp hfound
    simpa using fun i => hclear i (Nat.zero_le i)
  | some i =>
    have hoccurs := ((findFrom_eq_some_iff hneedle).mp hfound).2.1
    simpa using ⟨i, hoccurs⟩

end FindFrom

/-! ## A separator -/

/-- A text that has the separator at most as its last character stands before
the separator or ends with it, or it stands after it. -/
theorem OccursAt.separator (hlast : ∀ k < needle.length, needle[k]? = some c → k + 1 = needle.length)
    (h : OccursAt needle (before ++ c :: rest) i) :
    i + needle.length ≤ before.length + 1 ∨ before.length < i := by
  by_contra hstraddles
  have hk : before.length - i < needle.length := by omega
  have hget := h.getElem? hk
  rw [show i + (before.length - i) = before.length by omega,
    List.getElem?_append_right (Nat.le_refl _), Nat.sub_self, List.getElem?_cons_zero] at hget
  have hend := hlast _ hk hget.symm
  omega

theorem occursAt_front (hneedle : needle ≠ []) :
    OccursAt needle (before ++ [c]) i ↔
      OccursAt needle (before ++ c :: rest) i ∧ i + needle.length ≤ before.length + 1 := by
  have hpos := List.length_pos_iff.mpr hneedle
  have happend : before ++ c :: rest = (before ++ [c]) ++ rest := by simp
  have hlength : (before ++ [c]).length = before.length + 1 := by simp
  have hdrop : i ≤ before.length + 1 →
      (before ++ c :: rest).drop i = (before ++ [c]).drop i ++ rest := by
    intro hi
    rw [happend, List.drop_append_of_le_length (by omega)]
  constructor
  · intro h
    have hle := h.length_le
    rw [List.length_drop, hlength] at hle
    refine ⟨?_, by omega⟩
    rw [OccursAt, hdrop (by omega)]
    exact h.trans (List.prefix_append _ _)
  · rintro ⟨h, hle⟩
    rw [OccursAt, hdrop (by omega)] at h
    refine List.prefix_of_prefix_length_le h (List.prefix_append _ _) ?_
    rw [List.length_drop, hlength]
    omega

theorem findFrom_separator [DecidableEq α] (hneedle : needle ≠ [])
    (hlast : ∀ k < needle.length, needle[k]? = some c → k + 1 = needle.length) :
    findFrom needle (before ++ c :: rest) 0 =
      match findFrom needle (before ++ [c]) 0 with
      | some i => some i
      | none => (findFrom needle rest 0).map (before.length + 1 + ·) := by
  cases hfront : findFrom needle (before ++ [c]) 0 with
  | some i =>
    obtain ⟨-, hoccurs, hfirst⟩ := (findFrom_eq_some_iff hneedle).mp hfront
    have hfront : OccursAt needle (before ++ c :: rest) i ∧ i + needle.length ≤ before.length + 1 :=
      (occursAt_front hneedle).mp hoccurs
    obtain ⟨hoccurs, hle⟩ := hfront
    refine (findFrom_eq_some_iff hneedle).mpr ⟨Nat.zero_le _, hoccurs, ?_⟩
    intro j _ hj hj'
    exact hfirst j (Nat.zero_le j) hj ((occursAt_front hneedle).mpr ⟨hj', by omega⟩)
  | none =>
    have hclear := (findFrom_eq_none_iff hneedle).mp hfront
    have happend : before ++ c :: rest = (before ++ [c]) ++ rest := by simp
    have hlength : (before ++ [c]).length = before.length + 1 := by simp
    have hafter : ∀ j, OccursAt needle (before ++ c :: rest) j → before.length < j := by
      intro j hj
      rcases hj.separator hlast with hle | hlt
      · exact absurd ((occursAt_front hneedle).mpr ⟨hj, hle⟩) (hclear j (Nat.zero_le j))
      · exact hlt
    dsimp only
    rw [← hlength, ← findFrom_append, hlength, Nat.add_zero, ← happend]
    cases hrest : findFrom needle (before ++ c :: rest) (before.length + 1) with
    | none =>
      refine (findFrom_eq_none_iff hneedle).mpr ?_
      intro j _ hj
      exact (findFrom_eq_none_iff hneedle).mp hrest j (hafter j hj) hj
    | some i =>
      obtain ⟨-, hoccurs, hfirst⟩ := (findFrom_eq_some_iff hneedle).mp hrest
      refine (findFrom_eq_some_iff hneedle).mpr ⟨Nat.zero_le _, hoccurs, ?_⟩
      exact fun j _ hj hj' => hfirst j (hafter j hj') hj hj'

/-- A text without the separator stands on one of its sides. -/
theorem infix_append_cons (hneedle : c ∉ needle) :
    needle <:+: before ++ c :: rest ↔ needle <:+: before ∨ needle <:+: rest := by
  constructor
  · rintro ⟨front, back, h⟩
    rw [List.append_assoc] at h
    rcases List.append_eq_append_iff.mp h with ⟨mid, rfl, hmid⟩ | ⟨mid, rfl, hmid⟩
    · -- the text begins before the separator
      rcases List.append_eq_append_iff.mp hmid with ⟨mid', rfl, -⟩ | ⟨mid', rfl, hmid'⟩
      · exact Or.inl ⟨front, mid', by rw [List.append_assoc]⟩
      · cases mid' with
        | nil =>
          refine Or.inl ⟨front, [], ?_⟩
          simp
        | cons d mid' =>
          obtain rfl := (List.cons.inj hmid').1
          exact absurd (List.mem_append_right mid (List.mem_cons_self)) hneedle
    · cases mid with
      | nil =>
        cases needle with
        | nil => exact Or.inl List.nil_infix
        | cons d needle =>
          obtain rfl := (List.cons.inj hmid).1
          exact absurd List.mem_cons_self hneedle
      | cons d mid =>
        obtain ⟨-, hrest⟩ := List.cons.inj hmid
        exact Or.inr ⟨mid, back, by rw [List.append_assoc]; exact hrest.symm⟩
  · rintro (⟨front, back, rfl⟩ | ⟨front, back, rfl⟩)
    · exact ⟨front, back ++ c :: rest, by simp⟩
    · exact ⟨before ++ c :: front, back, by simp⟩

end Search
