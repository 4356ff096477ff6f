import SasLibclient.ConnectionOwnership

/-!
# Ownership through a fetch

* `Counted`: the columns are counted, and there is no row array;
* `Rowed`: there are arrays, and what is known of their cells;
* `orFree_post`: the error paths;
* `newArrays_post`, `bindCell_post`, `fetchCell_post`, `copyCell_post`: the
  steps of a fetch;
* `advance_post`: after a fetch a connection is `Healthy`, or it threw and is
  `Healthy` or `Broken`, or it faulted and something was refused.
-/

namespace SasLibclient

open Ownership

namespace ConnectionMemory

variable {W : World} {s s' : ConnectionState} {u : List Nat} {n : Nat} {α : Type}
  {F : ConnectionState → Prop}

theorem Healthy.of_fits (h : Held 0 u s) (hf : Fits s) (ho : s.lastFetchedRow ≠ none → Opened s) :
    Healthy s := ⟨⟨u, h⟩, hf, ho⟩

/-- **The error paths.** They free, or they fault. -/
theorem orFree_post {ok : Bool} {e : S2ClientError} (h : ok = false → Healthy s ∨ Broken s) :
    (orFree ok e s).Post (fun _ s' => s' = s ∧ ok = true) Thrown Refused := by
  cases ok with
  | true => exact ⟨rfl, rfl⟩
  | false =>
    rcases h rfl with hhealthy | hbroken
    · obtain ⟨u, hheld⟩ := hhealthy.held
      obtain ⟨heap, hfree, hheld'⟩ := freeLastFetched_of_fits hheld hhealthy.fits
      simp only [orFree, Bool.false_eq_true, if_false, Prog.bind_of_ret hfree]
      exact Or.inl (Healthy.of_fits hheld' rfl fun hrow => absurd rfl hrow)
    · exact hbroken.freeLastFetched.bind (Q := fun _ _ => False) fun _ _ hfalse => hfalse.elim

/-! ## The arrays -/

/-- The columns are counted, and there is no row array. -/
structure Counted (u : List Nat) (n : Nat) (s : ConnectionState) : Prop where
  held : Held 0 u s
  opened : Opened s
  row : s.lastFetchedRow = none
  columns : s.lastColumnsNum = n

/-- The calls that are made while the columns are counted. -/
def CountedCall (n : Nat) (call : LibraryCall) : Prop :=
  call = .metadata n ∨ call = .fields n ∨ call = .newLengths n ∨ call = .newRow n

theorem CountedCall.refusal {call : LibraryCall} (h : CountedCall n call) {reply : Reply}
    (hno : reply.ok = false) : Refusal (call, reply) ↔ 0 < n := by
  rcases h with rfl | rfl | rfl | rfl <;> exact and_iff_right hno

theorem CountedCall.lost {call : LibraryCall} (h : CountedCall n call) (reply : Reply) :
    lost (call, reply) = 0 := by
  rcases h with rfl | rfl | rfl | rfl <;> rfl

theorem Counted.accepted (h : Counted u n s) {call : LibraryCall} (hcall : CountedCall n call)
    (hok : (W s.clock).ok = true) : Counted u n (asked W call s) :=
  ⟨h.held.asked (hcall.lost _) (not_refusal_of_ok hok), h.opened, h.row, h.columns⟩

/-- Without columns a refusal does no harm. -/
theorem Counted.refused (h : Counted u n s) {call : LibraryCall} (hcall : CountedCall n call)
    (hno : (W s.clock).ok = false) : Healthy (asked W call s) ∨ Broken (asked W call s) := by
  by_cases hpos : 0 < n
  · exact Or.inr ⟨refused_asked.mpr (Or.inr ((hcall.refusal hno).mpr hpos)),
      Or.inl ⟨h.row, h.columns ▸ hpos⟩⟩
  · refine Or.inl (Healthy.of_fits (u := u) (h.held.asked (hcall.lost _) fun hr => ?_) ?_ ?_)
    · exact hpos ((hcall.refusal hno).mp hr)
    · have hzero : s.lastColumnsNum = 0 := h.columns.trans (Nat.eq_zero_of_not_pos hpos)
      simpa [Fits, asked, h.row] using hzero
    · exact fun hrow => absurd h.row hrow

/-- The arrays have `n` columns, and the cells satisfy `P`. -/
structure Filled (n : Nat) (P : Nat → Pointer → Prop) (s : ConnectionState) : Prop where
  opened : Opened s
  columns : s.lastColumnsNum = n
  lengths : s.lastFetchedLengths ≠ none
  row : ∃ address cells, s.lastFetchedRow = some ⟨address, cells⟩ ∧ cells.length = n ∧
    ∀ i p, cells[i]? = some p → P i p

/-- The arrays are filled, and their blocks are owned. -/
structure Rowed (u : List Nat) (n : Nat) (P : Nat → Pointer → Prop) (s : ConnectionState) :
    Prop where
  held : Held 0 u s
  filled : Filled n P s

variable {P P' : Nat → Pointer → Prop} {i : Nat} {p : Pointer}

theorem Rowed.healthy (h : Rowed u n P s) : Healthy s := by
  obtain ⟨address, cells, hrow, hlength, -⟩ := h.filled.row
  refine Healthy.of_fits h.held ?_ fun _ => h.filled.opened
  rw [Fits, hrow]
  exact ⟨hlength.trans h.filled.columns.symm, h.filled.lengths⟩

theorem Rowed.asked (h : Rowed u n P s) (W : World) (call : LibraryCall) (hcall : Harmless call) :
    Rowed u n P (ConnectionMemory.asked W call s) :=
  ⟨h.held.harmless W call hcall, h.filled.opened, h.filled.columns, h.filled.lengths, h.filled.row⟩

theorem Rowed.imp (h : Rowed u n P s) (hP : ∀ i p, i < n → P i p → P' i p) :
    Rowed u n P' s := by
  obtain ⟨address, cells, hrow, hlength, hcells⟩ := h.filled.row
  refine ⟨h.held, h.filled.opened, h.filled.columns, h.filled.lengths, address, cells, hrow,
    hlength, ?_⟩
  intro i p hcell
  have hlt : i < cells.length := (List.getElem?_eq_some_iff.mp hcell).1
  exact hP i p (hlength ▸ hlt) (hcells i p hcell)

theorem newBlock_post {call : LibraryCall} {Q : Nat → ConnectionState → Prop}
    {X : ReadException → ConnectionState → Prop}
    (hok : (W s.clock).ok = true →
      Q s.heap.next { asked W call s with heap := s.heap.alloc })
    (hno : (W s.clock).ok = false → X .badAlloc (asked W call s)) :
    (newBlock W call s).Post Q X F := by
  rw [newBlock, ask_bind]
  cases hreply : (W s.clock).ok with
  | true => exact hok hreply
  | false => exact hno hreply

theorem newArrays_post (h : Counted u n s) (hlengths : s.lastFetchedLengths = none) :
    (newArrays W n s).Post (fun _ s' => Rowed u n (fun _ p => p = none) s') Thrown Refused := by
  have hcall₁ : CountedCall n (.newLengths n) := Or.inr (Or.inr (Or.inl rfl))
  have hcall₂ : CountedCall n (.newRow n) := Or.inr (Or.inr (Or.inr rfl))
  rw [newArrays]
  refine Outcome.Post.bind (Q := fun a s' => Counted u n { s' with lastFetchedLengths := some a })
    (newBlock_post (fun hok => ?_) fun hno => h.refused hcall₁ hno) fun a s₁ h₁ => ?_
  · have hasked := h.accepted hcall₁ hok
    refine ⟨hasked.held.of_heap (h.held.owns.alloc.perm ?_) rfl rfl rfl,
      h.opened, h.row, h.columns⟩
    refine List.perm_iff_count.mpr fun b => ?_
    simp only [blocks, asked, hlengths, List.count_append, List.count_cons, Option.toList_none,
      Option.toList_some, List.count_nil]
    omega
  rw [modify_bind]
  refine Outcome.Post.bind
    (Q := fun a s' => Rowed u n (fun _ p => p = none)
      { s' with lastFetchedRow := some ⟨a, List.replicate n none⟩ })
    (newBlock_post (fun hok => ?_) fun hno => h₁.refused hcall₂ hno) fun a s₂ h₂ => ?_
  case refine_2 => exact h₂
  have hasked := h₁.accepted hcall₂ hok
  have hrow : s₁.lastFetchedRow = none := h₁.row
  refine ⟨hasked.held.of_heap (h₁.held.owns.alloc.perm ?_) rfl rfl rfl, h₁.opened, h₁.columns,
    Option.some_ne_none a, _, _, rfl, List.length_replicate, ?_⟩
  · refine List.perm_iff_count.mpr fun b => ?_
    simp only [blocks, asked, hrow, rowBlocks, List.count_append, List.count_cons,
      List.reduceOption_replicate_none, List.count_nil]
    omega
  · intro i p hcell
    exact (List.mem_replicate.mp (List.mem_of_getElem? hcell)).2

/-! ## The cells -/

/-- One cell of the row changes. -/
def withCell (i : Nat) (p : Pointer) (s : ConnectionState) : ConnectionState :=
  { s with lastFetchedRow := s.lastFetchedRow.map fun row => { row with cells := row.cells.set i p } }

theorem setCell_apply (i : Nat) (p : Pointer) (s : ConnectionState) :
    setCell i p s = .ret () (withCell i p s) := rfl

theorem reduceOption_set {cells : List Pointer} (hlt : i < cells.length) (p : Pointer) :
    (cells.set i p).reduceOption.Perm (p.toList ++ (cells.set i none).reduceOption) := by
  rw [List.set_eq_take_append_cons_drop, if_pos hlt, List.set_eq_take_append_cons_drop, if_pos hlt]
  cases p with
  | none => exact List.Perm.refl _
  | some a =>
    simp only [List.reduceOption_append, List.reduceOption_cons_of_some,
      List.reduceOption_cons_of_none]
    exact List.perm_middle

/-- The blocks of a row with a cell that is not null. -/
theorem blocks_withCell {address : Nat} {cells : List Pointer}
    (hrow : s.lastFetchedRow = some ⟨address, cells⟩) (hlt : i < cells.length) (p : Pointer) :
    (blocks (withCell i p s) u).Perm (p.toList ++ blocks (withCell i none s) u) := by
  refine List.perm_iff_count.mpr fun b => ?_
  have hcount := (reduceOption_set hlt p).count_eq b
  rw [List.count_append] at hcount
  simp only [blocks, withCell, hrow, rowBlocks, Option.map_some, List.count_append, List.count_cons,
    hcount]
  omega

theorem withCell_self {address : Nat} {cells : List Pointer}
    (hrow : s.lastFetchedRow = some ⟨address, cells⟩) (hcell : cells[i]? = some p) :
    withCell i p s = s := by
  obtain ⟨hlt, rfl⟩ := List.getElem?_eq_some_iff.mp hcell
  obtain ⟨heap, clock, answers, conn, stmt, res, needStmtClose, useBinaryProtocol, row,
    lengths, columns⟩ := s
  obtain rfl : row = some ⟨address, cells⟩ := hrow
  simp [withCell]

theorem Filled.cell (h : Filled n P s) (hlt : i < n) :
    ∃ address cells p, s.lastFetchedRow = some ⟨address, cells⟩ ∧ cells.length = n ∧
      cells[i]? = some p ∧ P i p := by
  obtain ⟨address, cells, hrow, hlength, hcells⟩ := h.row
  have hcell := List.getElem?_eq_getElem (hlength.symm ▸ hlt : i < cells.length)
  exact ⟨address, cells, _, hrow, hlength, hcell, hcells i _ hcell⟩

theorem Filled.withCell (h : Filled n P s) (hother : ∀ j q, j ≠ i → P j q → P' j q)
    (hnew : P' i p) : Filled n P' (withCell i p s) := by
  obtain ⟨address, cells, hrow, hlength, hcells⟩ := h.row
  refine ⟨h.opened, h.columns, h.lengths, address, cells.set i p, ?_, ?_, ?_⟩
  · rw [ConnectionMemory.withCell, hrow]
    rfl
  · rw [List.length_set, hlength]
  · intro j q hcell
    by_cases heq : j = i
    · subst heq
      have hlt : j < (cells.set j p).length := (List.getElem?_eq_some_iff.mp hcell).1
      rw [List.length_set] at hlt
      rw [List.getElem?_set_self hlt] at hcell
      rwa [← Option.some.inj hcell]
    · rw [List.getElem?_set_ne (Ne.symm heq)] at hcell
      exact hother j q heq (hcells j q hcell)

theorem bindCell_post (h : Rowed u n P s) (hlt : i < n) (hnull : ∀ p, P i p → p = none)
    (hother : ∀ j q, j ≠ i → P j q → P' j q) (hnew : ∀ a, P' i (some a)) :
    (bindCell W i s).Post (fun _ s' => Rowed u n P' s') Thrown Refused := by
  have hasked : Rowed u n P (ConnectionMemory.asked W .newCell s) :=
    h.asked W _ trivial
  rw [bindCell]
  refine Outcome.Post.bind (Q := fun a s' => Rowed u n P' (withCell i (some a) s'))
    (newBlock_post (fun hok => ?_) fun hno => Or.inl hasked.healthy) fun a s₁ h₁ => ?_
  case refine_2 => exact h₁
  refine ⟨hasked.held.of_heap (h.held.owns.alloc.perm ?_) rfl rfl rfl,
    Filled.withCell ⟨h.filled.opened, h.filled.columns, h.filled.lengths, h.filled.row⟩ hother
      (hnew _)⟩
  obtain ⟨address, cells, p, hrow, hlength, hcell, hp⟩ := h.filled.cell hlt
  obtain rfl := hnull p hp
  have hperm := blocks_withCell (u := u) hrow (hlength ▸ hlt) (some s.heap.next)
  rw [withCell_self hrow hcell] at hperm
  exact hperm.symm

theorem deleteCell_rowed (h : Rowed u n P s) (hlt : i < n) :
    ∃ heap, deleteCell i s = .ret () { s with heap := heap } ∧
      Owns heap (blocks (withCell i none s) u) ∧
      ((∀ p, P i p → p ≠ none) → Torn { s with heap := heap }) := by
  obtain ⟨address, cells, p, hrow, hlength, hcell, hp⟩ := h.filled.cell hlt
  have hperm := blocks_withCell (u := u) hrow (hlength ▸ hlt) p
  rw [withCell_self hrow hcell] at hperm
  have howns := h.held.owns.perm hperm
  cases p with
  | none =>
    exact ⟨s.heap, by rw [deleteCell_eq hrow hcell, release_none], howns,
      fun hsome => absurd rfl (hsome none hp)⟩
  | some a =>
    refine ⟨s.heap.free a, by rw [deleteCell_eq hrow hcell, release_some howns.mem], howns.free,
      fun _ => Or.inr ⟨⟨address, cells⟩, a, hrow, ?_, List.mem_of_getElem? hcell, howns.dangling⟩⟩
    exact hlength.trans h.filled.columns.symm

theorem freeCell_post (h : Rowed u n P s) (hlt : i < n)
    (hother : ∀ j q, j ≠ i → P j q → P' j q) (hnew : P' i none)
    {X : ReadException → ConnectionState → Prop} :
    (freeCell i s).Post (fun _ s' => Rowed u n P' s') X F := by
  obtain ⟨heap, hdelete, howns, -⟩ := deleteCell_rowed h hlt
  rw [freeCell, Prog.bind_of_ret hdelete, setCell_apply]
  exact ⟨h.held.of_heap howns rfl rfl rfl,
    Filled.withCell ⟨h.filled.opened, h.filled.columns, h.filled.lengths, h.filled.row⟩ hother hnew⟩

/-- The cells below `i` hold buffers, the others are null. -/
def BoundBelow (i : Nat) (j : Nat) (p : Pointer) : Prop := (j < i → p ≠ none) ∧ (i ≤ j → p = none)

/-- The cells from `i` on hold the buffers that were bound. -/
def Bound (i : Nat) (j : Nat) (p : Pointer) : Prop := i ≤ j → p ≠ none

/-- The cells from `i` on are null. -/
def Unset (i : Nat) (j : Nat) (p : Pointer) : Prop := i ≤ j → p = none

theorem fetchCell_post {types : List FieldType} (h : Rowed u n (Bound i) s) (hlt : i < n) :
    (fetchCell W types i s).Post (fun _ s' => Rowed u n (Bound (i + 1)) s') Thrown Refused := by
  have hother : ∀ j q, j ≠ i → Bound i j q → Bound (i + 1) j q :=
    fun j q _ hq hle => hq (Nat.le_of_succ_le hle)
  have hnew : ∀ p, Bound (i + 1) i p := fun p hle => absurd hle (Nat.not_succ_le_self i)
  have hasked : Rowed u n (Bound i) (ConnectionMemory.asked W .isNull s) :=
    h.asked W _ trivial
  rw [fetchCell, ask_bind]
  generalize ConnectionMemory.asked W .isNull s = s₁ at hasked
  split
  · exact freeCell_post hasked hlt hother (hnew none)
  split
  · obtain ⟨heap, hdelete, howns, htorn⟩ := deleteCell_rowed hasked hlt
    rw [Prog.bind_of_ret hdelete]
    have hbroken : (W s₁.clock).ok = false →
        Broken (ConnectionMemory.asked W .newColumn { s₁ with heap := heap }) := by
      intro hno
      refine ⟨refused_asked.mpr (Or.inr ⟨hno, trivial⟩), ?_⟩
      exact (htorn fun p hp => hp (Nat.le_refl i)).of_heap rfl rfl fun _ hd => hd
    refine Outcome.Post.bind (Q := fun a s' => Rowed u n (Bound (i + 1)) (withCell i (some a) s'))
      (newBlock_post (fun hok => ?_) fun hno => Or.inr (hbroken hno)) fun a s₂ h₂ => ?_
    · have hheld : Held 0 u (ConnectionMemory.asked W .newColumn s₁) :=
        hasked.held.asked rfl (not_refusal_of_ok hok)
      obtain ⟨address, cells, p, hrow, hlength, -⟩ := hasked.filled.cell hlt
      refine ⟨hheld.of_heap (howns.alloc.perm ?_) rfl rfl rfl,
        Filled.withCell ⟨hasked.filled.opened, hasked.filled.columns, hasked.filled.lengths,
          hasked.filled.row⟩ hother (hnew _)⟩
      exact (blocks_withCell (u := u) hrow (hlength ▸ hlt) (some heap.next)).symm
    · rw [Prog.bind_of_ret (setCell_apply i (some a) s₂), ask_bind]
      have hfetched := h₂.asked W .fetchColumn trivial
      refine (orFree_post fun _ => Or.inl hfetched.healthy).mono ?_ (fun _ _ hX => hX) fun _ hF => hF
      rintro _ s₃ ⟨rfl, -⟩
      exact hfetched
  · exact hasked.imp fun j q _ hq hle => hq (Nat.le_of_succ_le hle)

theorem copyCell_post {types : List FieldType} (h : Rowed u n (Unset i) s) (hlt : i < n) :
    (copyCell W types i s).Post (fun _ s' => Rowed u n (Unset (i + 1)) s') Thrown Refused := by
  have hother : ∀ j q, j ≠ i → Unset i j q → Unset (i + 1) j q :=
    fun j q _ hq hle => hq (Nat.le_of_succ_le hle)
  have hnew : ∀ p, Unset (i + 1) i p := fun p hle => absurd hle (Nat.not_succ_le_self i)
  have hasked : Rowed u n (Unset i) (ConnectionMemory.asked W .isNull s) :=
    h.asked W _ trivial
  rw [copyCell, ask_bind]
  generalize ConnectionMemory.asked W .isNull s = s₁ at hasked
  split
  · -- the cell is null already
    obtain ⟨address, cells, p, hrow, hlength, hcell, hp⟩ := hasked.filled.cell hlt
    obtain rfl := hp (Nat.le_refl i)
    rw [setCell_apply, withCell_self hrow hcell]
    exact hasked.imp fun j q _ hq hle => hq (Nat.le_of_succ_le hle)
  split
  · exact bindCell_post hasked hlt (fun p hp => hp (Nat.le_refl i)) hother fun a => hnew _
  · exact hasked.imp fun j q _ hq hle => hq (Nat.le_of_succ_le hle)

/-! ## `Advance` -/

theorem Held.deref_stmt (h : Held 0 u s) (hstmt : s.stmt ≠ none) : deref s.stmt s = .ret () s := by
  cases hs : s.stmt with
  | none => exact absurd hs hstmt
  | some a =>
    refine if_pos ((h.owns.live a).mpr ?_)
    simp [blocks, hs]

theorem Held.deref_res (h : Held 0 u s) (hres : s.res ≠ none) : deref s.res s = .ret () s := by
  cases hr : s.res with
  | none => exact absurd hr hres
  | some a =>
    refine if_pos ((h.owns.live a).mpr ?_)
    simp [blocks, h.res a hr]

/-- After `FreeLastFetched`. -/
structure Freed (u : List Nat) (s s' : ConnectionState) : Prop where
  held : Held 0 u s'
  stmt : s'.stmt = s.stmt
  res : s'.res = s.res
  useBinaryProtocol : s'.useBinaryProtocol = s.useBinaryProtocol
  row : s'.lastFetchedRow = none
  lengths : s'.lastFetchedLengths = none
  columns : s'.lastColumnsNum = 0

theorem Healthy.freeLastFetched (h : Healthy s) :
    ∃ u s', ConnectionMemory.freeLastFetched s = .ret () s' ∧ Freed u s s' := by
  obtain ⟨u, hheld⟩ := h.held
  obtain ⟨heap, hfree, hcleared⟩ := freeLastFetched_of_fits hheld h.fits
  exact ⟨u, _, hfree, hcleared, rfl, rfl, rfl, rfl, rfl, rfl⟩

theorem Freed.healthy (h : Freed u s s') : Healthy s' := by
  refine Healthy.of_fits h.held ?_ fun hrow => absurd h.row hrow
  rw [Fits, h.row]
  exact h.columns

theorem Freed.opened (h : Freed u s s') (ho : Opened s) : Opened s' := by
  rw [Opened, h.useBinaryProtocol, h.stmt, h.res]
  exact ho

theorem Freed.count (h : Freed u s s') (ho : Opened s) {f : Reply → Method α}
    {Q : α → ConnectionState → Prop}
    (hf : ∀ s₁, Counted u (W s'.clock).count s₁ → s₁.lastFetchedLengths = none →
      (f (W s'.clock) s₁).Post Q Thrown Refused) :
    ((ask W .fieldCount >>= fun count =>
      Prog.modify (fun s => { s with lastColumnsNum := count.count }) >>= fun _ => f count) s').Post
        Q Thrown Refused := by
  have hasked := h.held.harmless W .fieldCount trivial
  exact hf _ ⟨hasked.of_heap h.held.owns rfl rfl rfl, h.opened ho, h.row, rfl⟩ h.lengths

theorem Counted.orFree (h : Counted u n s) {call : LibraryCall} (hcall : CountedCall n call)
    (e : S2ClientError) {f : Unit → Method α} {Q : α → ConnectionState → Prop}
    (hf : Counted u n (asked W call s) → (f () (asked W call s)).Post Q Thrown Refused) :
    ((ConnectionMemory.orFree (W s.clock).ok e >>= f) (asked W call s)).Post Q Thrown Refused := by
  refine (orFree_post fun hno => h.refused hcall hno).bind ?_
  rintro _ s' ⟨rfl, hok⟩
  exact hf (h.accepted hcall hok)

theorem Rowed.orFree (h : Rowed u n P s) (ok : Bool) (e : S2ClientError) {f : Unit → Method α}
    {Q : α → ConnectionState → Prop} (hf : (f () s).Post Q Thrown Refused) :
    ((ConnectionMemory.orFree ok e >>= f) s).Post Q Thrown Refused := by
  refine (orFree_post fun _ => Or.inl h.healthy).bind ?_
  rintro _ s' ⟨rfl, -⟩
  exact hf

theorem advanceBinary_post (h : Healthy s) (ho : Opened s) (hbinary : s.useBinaryProtocol = true) :
    (advanceBinary W s).Post (fun _ s' => Healthy s') Thrown Refused := by
  have hstmt : s.stmt ≠ none := by
    rw [Opened, if_pos hbinary] at ho
    exact ho
  obtain ⟨u, s₁, hfree, hfreed⟩ := h.freeLastFetched
  rw [advanceBinary, Prog.bind_of_ret hfree, get_bind,
    Prog.bind_of_ret (hfreed.held.deref_stmt (hfreed.stmt ▸ hstmt))]
  refine hfreed.count ho fun s₂ hcounted hlengths => ?_
  generalize (W s₁.clock).count = n at hcounted ⊢
  rw [ask_bind]
  refine hcounted.orFree (Or.inl rfl) _ fun hcounted => ?_
  rw [ask_bind]
  refine hcounted.orFree (Or.inr (Or.inl rfl)) _ fun hcounted => ?_
  refine (newArrays_post hcounted hlengths).bind fun _ s₃ hrowed => ?_
  rw [ask_bind]
  have hrowed := hrowed.asked W .newBind trivial
  split
  · refine (Outcome.Post.range (I := fun i s => Rowed u n (BoundBelow i) s)
      (hrowed.imp fun i p _ hp => ⟨fun hlt => absurd hlt i.not_lt_zero, fun _ => hp⟩)
      fun i s hlt h => bindCell_post h hlt (fun p hp => hp.2 (Nat.le_refl i)) (fun j q hne hq => ?_)
        fun a => ⟨fun _ => Option.some_ne_none a, fun hle => absurd hle (Nat.not_succ_le_self i)⟩).bind
      fun _ s₄ hbound => ?_
    · exact ⟨fun hle => hq.1 (by omega), fun hle => hq.2 (by omega)⟩
    rw [ask_bind]
    have hbound := hbound.asked W .bindResult trivial
    refine hbound.orFree _ _ ?_
    rw [ask_bind]
    have hbound := hbound.asked W .fetch trivial
    split
    · refine hbound.orFree _ _ ?_
      refine (Outcome.Post.range (I := fun i s => Rowed u n (Bound i) s)
        (hbound.imp fun i p hlt hp _ => hp.1 hlt) fun i s hlt h => fetchCell_post h hlt).bind
        fun _ s₅ hfetched => ?_
      exact hfetched.healthy
    · obtain ⟨heap, hclean, hheld⟩ := cleanupStatement_free hbound.held hbound.healthy.fits
      rw [Prog.bind_of_ret hclean]
      exact Healthy.of_fits hheld rfl fun hrow => absurd rfl hrow
  · exact Or.inl hrowed.healthy

theorem advanceText_post (h : Healthy s) (ho : Opened s) (htext : s.useBinaryProtocol = false) :
    (advanceText W s).Post (fun _ s' => Healthy s' ∧ Opened s') Thrown Refused := by
  have hres : s.res ≠ none := by
    rw [Opened, if_neg (by simp [htext])] at ho
    exact ho
  obtain ⟨u, s₁, hfree, hfreed⟩ := h.freeLastFetched
  rw [advanceText, Prog.bind_of_ret hfree, get_bind,
    Prog.bind_of_ret (hfreed.held.deref_res (hfreed.res ▸ hres))]
  refine hfreed.count ho fun s₂ hcounted hlengths => ?_
  generalize (W s₁.clock).count = n at hcounted ⊢
  rw [ask_bind]
  refine hcounted.orFree (Or.inr (Or.inl rfl)) _ fun hcounted => ?_
  refine (newArrays_post hcounted hlengths).bind fun _ s₃ hrowed => ?_
  rw [ask_bind]
  have hrowed := hrowed.asked W .fetch trivial
  split
  · refine (Outcome.Post.range (I := fun i s => Rowed u n (Unset i) s)
      (hrowed.imp fun i p _ hp _ => hp) fun i s hlt h => copyCell_post h hlt).bind
      fun _ s₅ hcopied => ?_
    exact ⟨hcopied.healthy, hcopied.filled.opened⟩
  split
  · obtain ⟨u, s₄, hfree, hfreed⟩ := hrowed.healthy.freeLastFetched
    rw [Prog.bind_of_ret hfree]
    exact ⟨hfreed.healthy, hfreed.opened hrowed.filled.opened⟩
  · exact Or.inl hrowed.healthy

/-- **A fetch keeps a connection healthy**, or something was refused. -/
theorem advance_post (h : Healthy s) (ho : Opened s) :
    (advance W s).Post (fun _ s' => Healthy s' ∧ (s.useBinaryProtocol = false → Opened s')) Thrown
      Refused := by
  rw [advance, get_bind]
  cases hprotocol : s.useBinaryProtocol with
  | true =>
    refine (advanceBinary_post h ho hprotocol).mono ?_ (fun _ _ hX => hX) fun _ hF => hF
    exact fun _ s' hs' => ⟨hs', fun hfalse => Bool.noConfusion hfalse⟩
  | false =>
    refine (advanceText_post h ho hprotocol).mono ?_ (fun _ _ hX => hX) fun _ hF => hF
    exact fun _ s' hs' => ⟨hs'.1, fun _ => hs'.2⟩

theorem Broken.advance (h : Broken s) {Q : Bool → ConnectionState → Prop}
    {X : ReadException → ConnectionState → Prop} :
    (ConnectionMemory.advance W s).Post Q X Refused := by
  rw [ConnectionMemory.advance, get_bind]
  split
  · exact h.freeLastFetched.bind (Q := fun _ _ => False) fun _ _ hfalse => hfalse.elim
  · exact h.freeLastFetched.bind (Q := fun _ _ => False) fun _ _ hfalse => hfalse.elim

end ConnectionMemory

end SasLibclient
