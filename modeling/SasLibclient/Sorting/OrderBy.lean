import Mathlib.Data.List.Sort
import Mathlib.Logic.Equiv.Basic

/-!
# Sorting by columns

`OrderBy le cols` compares by the first of the columns that makes a difference.
A list of different elements has exactly one sorted permutation if and only if no
two of its elements tie on all of the columns; elements that differ in one of
the columns do not tie.
-/

namespace Sorting

variable {α κ : Type}

/-- `a` comes before `b`, or ties with it, by the columns in turn. -/
def OrderBy (le : κ → α → α → Prop) : List κ → α → α → Prop
  | [], _, _ => True
  | col :: cols, a, b => le col a b ∧ (le col b a → OrderBy le cols a b)

/-- `a` and `b` have the same values in the columns. -/
def Ties (le : κ → α → α → Prop) (cols : List κ) (a b : α) : Prop :=
  ∀ col ∈ cols, le col a b ∧ le col b a

/-- Every column compares any two elements, and is transitive. -/
structure Compares (le : κ → α → α → Prop) : Prop where
  total : ∀ col a b, le col a b ∨ le col b a
  trans : ∀ col a b c, le col a b → le col b c → le col a c

/-- A permutation of `l` that is sorted by the columns. -/
def SortedPerm (le : κ → α → α → Prop) (cols : List κ) (l l' : List α) : Prop :=
  l'.Perm l ∧ l'.Pairwise (OrderBy le cols)

variable {le : κ → α → α → Prop} {cols cols' : List κ} {a b c : α} {l l₁ l₂ : List α}

theorem orderBy_of_ties (h : Ties le cols a b) : OrderBy le cols a b := by
  induction cols with
  | nil => trivial
  | cons col cols ih =>
    obtain ⟨hcol, hcols⟩ := List.forall_mem_cons.mp h
    exact ⟨hcol.1, fun _ => ih hcols⟩

/-- Elements tie when each may come before the other. -/
theorem ties_iff : Ties le cols a b ↔ OrderBy le cols a b ∧ OrderBy le cols b a := by
  constructor
  · intro h
    exact ⟨orderBy_of_ties h, orderBy_of_ties fun col hcol => (h col hcol).symm⟩
  · intro h
    induction cols with
    | nil =>
      intro col hcol
      cases hcol
    | cons col cols ih =>
      obtain ⟨⟨hab, hleft⟩, hba, hright⟩ := h
      have hrest := ih ⟨hleft hba, hright hab⟩
      exact List.forall_mem_cons.mpr ⟨⟨hab, hba⟩, hrest⟩

theorem OrderBy.of_prefix (hcols : cols' <+: cols) (h : OrderBy le cols a b) :
    OrderBy le cols' a b := by
  induction cols' generalizing cols with
  | nil => trivial
  | cons col cols' ih =>
    obtain ⟨more, rfl⟩ := hcols
    obtain ⟨hab, hrest⟩ := h
    exact ⟨hab, fun hba => ih (List.prefix_append cols' more) (hrest hba)⟩

theorem Ties.of_subset (h : Ties le cols a b) (hsub : ∀ col ∈ cols', col ∈ cols) :
    Ties le cols' a b := fun col hcol => h col (hsub col hcol)

theorem compares_of_value {β : Type} [LinearOrder β] (value : κ → α → β) :
    Compares fun col a b => value col a ≤ value col b where
  total col a b := le_total (value col a) (value col b)
  trans _ _ _ _ hab hbc := le_trans hab hbc

theorem Compares.refl (h : Compares le) (col : κ) (a : α) : le col a a :=
  (h.total col a a).elim id id

theorem Compares.orderBy_total (h : Compares le) (cols : List κ) (a b : α) :
    OrderBy le cols a b ∨ OrderBy le cols b a := by
  induction cols with
  | nil => exact Or.inl trivial
  | cons col cols ih =>
    by_cases hab : le col a b
    · by_cases hba : le col b a
      · exact ih.imp (fun hrest => ⟨hab, fun _ => hrest⟩) (fun hrest => ⟨hba, fun _ => hrest⟩)
      · exact Or.inl ⟨hab, fun hba' => absurd hba' hba⟩
    · exact Or.inr ⟨(h.total col a b).resolve_left hab, fun hab' => absurd hab' hab⟩

theorem Compares.orderBy_trans (h : Compares le) {cols : List κ} {a b c : α}
    (hab : OrderBy le cols a b) (hbc : OrderBy le cols b c) : OrderBy le cols a c := by
  induction cols with
  | nil => trivial
  | cons col cols ih =>
    obtain ⟨hab, hleft⟩ := hab
    obtain ⟨hbc, hright⟩ := hbc
    refine ⟨h.trans col a b c hab hbc, ?_⟩
    intro hca
    -- all three have the same value in the column
    have hba := h.trans col b c a hbc hca
    have hcb := h.trans col c a b hca hab
    exact ih (hleft hba) (hright hcb)

/-! ## The number of sorted permutations -/

/-- Without ties there is at most one sorted permutation. -/
theorem SortedPerm.eq_of_no_ties (h₁ : SortedPerm le cols l l₁) (h₂ : SortedPerm le cols l l₂)
    (hties : ∀ a ∈ l, ∀ b ∈ l, Ties le cols a b → a = b) : l₁ = l₂ := by
  refine List.Perm.eq_of_pairwise ?_ h₁.2 h₂.2 (h₁.1.trans h₂.1.symm)
  intro a b ha hb hab hba
  exact hties a (h₁.1.mem_iff.mp ha) b (h₂.1.mem_iff.mp hb) (ties_iff.mpr ⟨hab, hba⟩)

theorem Compares.exists_sortedPerm (h : Compares le) (cols : List κ) (l : List α) :
    ∃ l', SortedPerm le cols l l' := by
  classical
  have htotal : Std.Total (OrderBy le cols) := ⟨h.orderBy_total cols⟩
  have htrans : IsTrans α (OrderBy le cols) := ⟨fun _ _ _ => h.orderBy_trans⟩
  exact ⟨l.insertionSort (OrderBy le cols), List.perm_insertionSort _ l,
    List.pairwise_insertionSort _ l⟩

section Swap

variable [DecidableEq α]

theorem Compares.orderBy_swap (h : Compares le) (hties : Ties le cols a b) {x y : α}
    (hxy : OrderBy le cols x y) :
    OrderBy le cols (Equiv.swap a b x) (Equiv.swap a b y) := by
  obtain ⟨hab, hba⟩ := ties_iff.mp hties
  -- swapping moves an element to one that it ties with
  have hto : ∀ z, OrderBy le cols (Equiv.swap a b z) z ∧ OrderBy le cols z (Equiv.swap a b z) := by
    intro z
    have hrefl : OrderBy le cols z z :=
      orderBy_of_ties fun col _ => ⟨h.refl col z, h.refl col z⟩
    rw [Equiv.swap_apply_def]
    split
    · rename_i hz
      rw [hz]
      exact ⟨hba, hab⟩
    · split
      · rename_i hz
        rw [hz]
        exact ⟨hab, hba⟩
      · exact ⟨hrefl, hrefl⟩
  exact h.orderBy_trans (hto x).1 (h.orderBy_trans hxy (hto y).2)

theorem SortedPerm.swap (h : Compares le) (hl : SortedPerm le cols l l₁) (hnodup : l.Nodup)
    (ha : a ∈ l) (hb : b ∈ l) (hties : Ties le cols a b) :
    SortedPerm le cols l (l₁.map (Equiv.swap a b)) := by
  obtain ⟨hperm, hsorted⟩ := hl
  constructor
  · have hnodup₁ : l₁.Nodup := hperm.nodup_iff.mpr hnodup
    refine List.Perm.trans ?_ hperm
    refine (List.perm_ext_iff_of_nodup (hnodup₁.map (Equiv.swap a b).injective) hnodup₁).mpr ?_
    have hmem : ∀ x, x ∈ l₁ → Equiv.swap a b x ∈ l₁ := by
      intro x hx
      rw [Equiv.swap_apply_def]
      split
      · exact hperm.mem_iff.mpr hb
      · split
        · exact hperm.mem_iff.mpr ha
        · exact hx
    intro x
    constructor
    · intro hx
      obtain ⟨y, hy, rfl⟩ := List.mem_map.mp hx
      exact hmem y hy
    · intro hx
      exact List.mem_map.mpr ⟨_, hmem x hx, Equiv.swap_apply_self a b x⟩
  · rw [List.pairwise_map]
    exact hsorted.imp fun hxy => h.orderBy_swap hties hxy

end Swap

/-- **When sorting has one result**: when no two elements tie. -/
theorem Compares.sortedPerm_unique_iff (h : Compares le) (cols : List κ) (hnodup : l.Nodup) :
    (∀ l₁ l₂, SortedPerm le cols l l₁ → SortedPerm le cols l l₂ → l₁ = l₂) ↔
      ∀ a ∈ l, ∀ b ∈ l, Ties le cols a b → a = b := by
  classical
  constructor
  · intro hunique a ha b hb hties
    obtain ⟨l₁, hl₁⟩ := h.exists_sortedPerm cols l
    have hsame := hunique _ _ hl₁ (hl₁.swap h hnodup ha hb hties)
    obtain ⟨i, hi⟩ := List.getElem?_of_mem (hl₁.1.mem_iff.mpr ha)
    have hswapped : (l₁.map (Equiv.swap a b))[i]? = some b := by
      rw [List.getElem?_map, hi, Option.map_some, Equiv.swap_apply_left]
    rw [← hsame, hi] at hswapped
    exact Option.some.inj hswapped
  · intro hties l₁ l₂ h₁ h₂
    exact h₁.eq_of_no_ties h₂ hties

end Sorting
