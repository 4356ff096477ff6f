import Mathlib.Data.List.ReduceOption
import SasLibclient.ConnectionMemory

/-!
# Who owns the memory of a connection

`Healthy` states own what is live: the connection, the statement, the arrays of
the row with its cells, and what is never freed: the text results, and the
single rows that could not be written. `Broken` states are those that the destructor does not survive: columns are counted but
there is no row array, or a cell points to a block that was deleted. Only the
refusals in `Refusal` lead there.
-/

namespace SasLibclient

open Ownership

namespace ConnectionMemory

/-! ## Refusals -/

/-- The answers that the methods do not survive. -/
def Refusal (answer : LibraryCall × Reply) : Prop :=
  answer.2.ok = false ∧
    match answer.1 with
    | .metadata n | .fields n | .newLengths n | .newRow n => 0 < n
    | .newColumn => True
    | _ => False

/-- The blocks that nothing frees because of an answer: the result that
`mysql_use_result` returns, the buffer of a single row that gets no chunk, and
the buffer and the chunk of one that the writer refuses by an exception. -/
def lost : LibraryCall × Reply → Nat
  | (.useResult, reply) => if reply.ok then 1 else 0
  | (.newChunk, reply) => if reply.ok then 0 else 1
  | (.writeSingleRow, reply) => if reply.ok then 0 else 2
  | _ => 0

def Refused (s : ConnectionState) : Prop := ∃ answer ∈ s.answers, Refusal answer

/-! ## Blocks -/

def rowBlocks : Option RowArray → List Nat
  | none => []
  | some row => row.address :: row.cells.reduceOption

/-- The blocks that the fields point to, and the others, `u`. -/
def blocks (s : ConnectionState) (u : List Nat) : List Nat :=
  s.conn.toList ++ s.stmt.toList ++ s.lastFetchedLengths.toList ++ rowBlocks s.lastFetchedRow ++ u

/-- What is live is owned, and nothing was refused. Of the blocks that no field
points to, `k` belong to a row that is being made; the others are lost. -/
structure Held (k : Nat) (u : List Nat) (s : ConnectionState) : Prop where
  owns : Owns s.heap (blocks s u)
  res : ∀ a, s.res = some a → a ∈ u
  count : u.length = (s.answers.map lost).sum + k
  accepted : ¬ Refused s

/-- The arrays have the columns that are counted. -/
def Fits (s : ConnectionState) : Prop :=
  match s.lastFetchedRow with
  | none => s.lastColumnsNum = 0
  | some row => row.cells.length = s.lastColumnsNum ∧ s.lastFetchedLengths ≠ none

/-- `Advance` has a statement or a result to fetch from. -/
def Opened (s : ConnectionState) : Prop :=
  if s.useBinaryProtocol then s.stmt ≠ none else s.res ≠ none

/-- The states between the calls. -/
structure Healthy (s : ConnectionState) : Prop where
  held : ∃ u, Held 0 u s
  fits : Fits s
  opened : s.lastFetchedRow ≠ none → Opened s

/-- `FreeLastFetched` faults. -/
def Torn (s : ConnectionState) : Prop :=
  s.lastFetchedRow = none ∧ 0 < s.lastColumnsNum ∨
    ∃ row a, s.lastFetchedRow = some row ∧ row.cells.length = s.lastColumnsNum ∧
      some a ∈ row.cells ∧ Dangling s.heap a

structure Broken (s : ConnectionState) : Prop where
  refused : Refused s
  torn : Torn s

/-- What a method leaves when it throws. -/
def Thrown (_ : ReadException) (s : ConnectionState) : Prop := Healthy s ∨ Broken s

variable {W : World} {s s' : ConnectionState} {k : Nat} {u l : List Nat} {α β : Type}

/-! ## Calls -/

/-- The state after an answer. -/
def asked (W : World) (call : LibraryCall) (s : ConnectionState) : ConnectionState :=
  { s with clock := s.clock + 1, answers := s.answers ++ [(call, W s.clock)] }

theorem ask_bind (call : LibraryCall) (f : Reply → Method α) (s : ConnectionState) :
    (ask W call >>= f) s = f (W s.clock) (asked W call s) := rfl

theorem get_bind (f : ConnectionState → Method α) (s : ConnectionState) :
    ((Prog.get : Method ConnectionState) >>= f) s = f s s := rfl

theorem modify_bind (g : ConnectionState → ConnectionState) (f : Unit → Method α)
    (s : ConnectionState) : ((Prog.modify g : Method Unit) >>= f) s = f () (g s) := rfl

theorem refused_asked {call : LibraryCall} :
    Refused (asked W call s) ↔ Refused s ∨ Refusal (call, W s.clock) := by
  simp [Refused, asked, or_and_right, exists_or]

theorem Refused.of_answers (h : Refused s) (heq : s'.answers = s.answers) : Refused s' := by
  unfold Refused
  rw [heq]
  exact h

theorem Refused.asked (h : Refused s) (call : LibraryCall) : Refused (asked W call s) :=
  refused_asked.mpr (Or.inl h)

/-- An answer that is no refusal and loses nothing. -/
theorem Held.asked (h : Held k u s) {call : LibraryCall} (hlost : lost (call, W s.clock) = 0)
    (hreply : ¬ Refusal (call, W s.clock)) : Held k u (asked W call s) where
  owns := h.owns
  res := h.res
  count := by simp [ConnectionMemory.asked, hlost, h.count]
  accepted := fun hrefused => (refused_asked.mp hrefused).elim h.accepted hreply

/-- An exception that loses blocks of the row that is being made. -/
theorem Held.lose {j : Nat} (h : Held (k + j) u s) {call : LibraryCall}
    (hlost : lost (call, W s.clock) = j) (hreply : ¬ Refusal (call, W s.clock)) :
    Held k u (ConnectionMemory.asked W call s) where
  owns := h.owns
  res := h.res
  count := by
    have hcount := h.count
    simp only [ConnectionMemory.asked, List.map_append, List.map_cons, List.map_nil,
      List.sum_append, List.sum_cons, List.sum_nil, hlost]
    omega
  accepted := fun hrefused => (refused_asked.mp hrefused).elim h.accepted hreply

/-- The calls whose refusal does no harm, and that return nothing to free. -/
def Harmless : LibraryCall → Prop
  | .useResult | .metadata _ | .fields _ | .newLengths _ | .newRow _ | .newColumn => False
  | .newChunk | .writeSingleRow => False
  | _ => True

theorem Held.harmless (h : Held k u s) (W : World) (call : LibraryCall) (hcall : Harmless call) :
    Held k u (ConnectionMemory.asked W call s) := by
  refine h.asked ?_ ?_
  · cases call <;> first | exact hcall.elim | rfl
  · cases call <;> first | exact hcall.elim | exact fun hr => hr.2

theorem not_refusal_of_ok {call : LibraryCall} {reply : Reply} (h : reply.ok = true) :
    ¬ Refusal (call, reply) := by
  intro hr
  rw [hr.1] at h
  cases h

/-- Only the heap and the arrays matter for `Torn`. -/
theorem Torn.of_heap (h : Torn s) (hrow : s'.lastFetchedRow = s.lastFetchedRow)
    (hcolumns : s'.lastColumnsNum = s.lastColumnsNum)
    (hheap : ∀ a, Dangling s.heap a → Dangling s'.heap a) : Torn s' := by
  unfold Torn
  rw [hrow, hcolumns]
  rcases h with hnull | ⟨row, a, h₁, h₂, h₃, h₄⟩
  · exact Or.inl hnull
  · exact Or.inr ⟨row, a, h₁, h₂, h₃, hheap a h₄⟩

/-! ## Blocks that are freed -/

theorem release_none (s : ConnectionState) : release none s = .ret () s := rfl

theorem release_some {a : Nat} (h : a ∈ s.heap.live) :
    release (some a) s = .ret () { s with heap := s.heap.free a } := if_pos h

theorem release_dead {a : Nat} (h : a ∉ s.heap.live) :
    release (some a) s = .fault .doubleFree s := if_neg h

theorem release_owned {p : Pointer} (h : Owns s.heap (p.toList ++ l)) :
    ∃ heap, release p s = .ret () { s with heap := heap } ∧ Owns heap l := by
  cases p with
  | none => exact ⟨s.heap, rfl, h⟩
  | some a => exact ⟨_, release_some h.mem, h.free⟩

theorem release_cases (p : Pointer) (s : ConnectionState) :
    (∃ heap, release p s = .ret () { s with heap := heap } ∧
      ∀ a, Dangling s.heap a → Dangling heap a) ∨ ∃ f, release p s = .fault f s := by
  cases p with
  | none => exact Or.inl ⟨s.heap, rfl, fun _ h => h⟩
  | some b =>
    by_cases hlive : b ∈ s.heap.live
    · exact Or.inl ⟨_, release_some hlive, fun _ h => h.free b⟩
    · exact Or.inr ⟨_, release_dead hlive⟩

theorem Held.alloc (h : Held k u s) :
    Held (k + 1) (s.heap.next :: u) { s with heap := s.heap.alloc } where
  owns := by
    refine h.owns.alloc.perm (List.perm_iff_count.mpr fun b => ?_)
    simp only [blocks, List.count_append, List.count_cons]
    omega
  res := fun a ha => List.mem_cons_of_mem _ (h.res a ha)
  count := by rw [List.length_cons, h.count, Nat.add_assoc]
  accepted := h.accepted

/-- The row has been handed over, and its new owner frees a block of it. -/
theorem Held.handOver {a : Nat} (h : Held (k + 1) (a :: u) s) (hres : ∀ b, s.res = some b → b ∈ u) :
    release (some a) s = .ret () { s with heap := s.heap.free a } ∧
      Held k u { s with heap := s.heap.free a } := by
  have howns : Owns s.heap (a :: blocks s u) := by
    refine h.owns.perm (List.perm_iff_count.mpr fun b => ?_)
    simp only [blocks, List.count_append, List.count_cons]
    omega
  refine ⟨release_some howns.mem, howns.free, hres, ?_, h.accepted⟩
  have hcount := h.count
  rw [List.length_cons, ← Nat.add_assoc] at hcount
  exact Nat.succ.inj hcount

/-! ### The cells -/

section Cells

variable {address i : Nat} {cells rest : List Pointer} {p q : Pointer}

theorem deleteCell_eq (hrow : s.lastFetchedRow = some ⟨address, cells⟩) (hcell : cells[i]? = some p) :
    deleteCell i s = release p s := by
  rw [deleteCell, get_bind, hrow]
  simp only [hcell]

theorem setCell_eq (hrow : s.lastFetchedRow = some ⟨address, cells⟩) :
    setCell i p s = .ret () { s with lastFetchedRow := some ⟨address, cells.set i p⟩ } := by
  rw [setCell, Prog.modify, hrow]
  rfl

/-- The loop of `FreeLastFetched`, where the cells are owned. -/
theorem freeCells (hrow : s.lastFetchedRow = some ⟨address, List.replicate i none ++ rest⟩)
    (h : Owns s.heap (rest.reduceOption ++ l)) :
    ∃ heap, Prog.each (List.range' i rest.length) freeCell s =
        .ret () { s with
          heap := heap
          lastFetchedRow := some ⟨address, List.replicate (i + rest.length) none⟩ } ∧
      Owns heap l := by
  induction rest generalizing i s with
  | nil =>
    refine ⟨s.heap, ?_, h⟩
    simp only [List.append_nil] at hrow
    simp [Prog.each, Prog.pure_apply, ← hrow]
  | cons p rest ih =>
    have hcell : (List.replicate i none ++ p :: rest)[i]? = some p := by simp
    have howned : Owns s.heap (p.toList ++ (rest.reduceOption ++ l)) := by
      cases p with
      | none => simpa using h
      | some a => simpa using h
    obtain ⟨heap, hrelease, howns⟩ := release_owned howned
    have hset : (List.replicate i none ++ p :: rest).set i none =
        List.replicate (i + 1) none ++ rest := by
      simp [List.replicate_succ']
    have hfirst : freeCell i s = .ret () { s with
        heap := heap
        lastFetchedRow := some ⟨address, List.replicate (i + 1) none ++ rest⟩ } := by
      rw [freeCell, Prog.bind_of_ret ((deleteCell_eq hrow hcell).trans hrelease)]
      rw [setCell_eq (s := { s with heap := heap }) hrow, hset]
    obtain ⟨heap', hloop, howns'⟩ := ih (s := { s with
      heap := heap
      lastFetchedRow := some ⟨address, List.replicate (i + 1) none ++ rest⟩ }) rfl howns
    refine ⟨heap', ?_, howns'⟩
    rw [List.length_cons, List.range'_succ, Prog.each, Prog.bind_of_ret hfirst, hloop]
    simp only [Nat.add_right_comm, Nat.add_assoc]

theorem freeCells_dangling {a : Nat}
    (hrow : s.lastFetchedRow = some ⟨address, List.replicate i none ++ rest⟩)
    (hmem : some a ∈ rest) (hdangling : Dangling s.heap a) :
    ∃ f s', Prog.each (List.range' i rest.length) freeCell s = .fault f s' ∧
      s'.answers = s.answers := by
  induction rest generalizing i s with
  | nil => simp at hmem
  | cons p rest ih =>
    have hcell : (List.replicate i none ++ p :: rest)[i]? = some p := by simp
    rw [List.length_cons, List.range'_succ, Prog.each]
    rcases release_cases p s with ⟨heap, hrelease, hkeep⟩ | ⟨f, hfault⟩
    · have hp : p ≠ some a := by
        rintro rfl
        rw [release_dead hdangling.dead] at hrelease
        cases hrelease
      have hset : (List.replicate i none ++ p :: rest).set i none =
          List.replicate (i + 1) none ++ rest := by
        simp [List.replicate_succ']
      have hfirst : freeCell i s = .ret () { s with
          heap := heap
          lastFetchedRow := some ⟨address, List.replicate (i + 1) none ++ rest⟩ } := by
        rw [freeCell, Prog.bind_of_ret ((deleteCell_eq hrow hcell).trans hrelease)]
        rw [setCell_eq (s := { s with heap := heap }) hrow, hset]
      obtain ⟨f, s', hloop, hanswers⟩ := ih (s := { s with
        heap := heap
        lastFetchedRow := some ⟨address, List.replicate (i + 1) none ++ rest⟩ }) rfl
        ((List.mem_cons.mp hmem).resolve_left (Ne.symm hp)) (hkeep a hdangling)
      exact ⟨f, s', by rw [Prog.bind_of_ret hfirst, hloop], hanswers⟩
    · refine ⟨f, s, ?_, rfl⟩
      have hfirst : freeCell i s = .fault f s := by
        rw [freeCell, Prog.bind_of_fault ((deleteCell_eq hrow hcell).trans hfault)]
      rw [Prog.bind_of_fault hfirst]

end Cells

/-! ## `FreeLastFetched` -/

/-- The fields after `FreeLastFetched`. -/
def cleared (s : ConnectionState) : ConnectionState :=
  { s with lastFetchedRow := none, lastFetchedLengths := none, lastColumnsNum := 0 }

/-- The blocks that `FreeLastFetched` leaves. -/
theorem blocks_cleared (s : ConnectionState) (u : List Nat) :
    (blocks s u).Perm
      (rowBlocks s.lastFetchedRow ++ (s.lastFetchedLengths.toList ++ blocks (cleared s) u)) := by
  refine List.perm_iff_count.mpr fun b => ?_
  simp only [blocks, cleared, rowBlocks, List.count_append, Option.toList_none, List.count_nil]
  omega

theorem Held.of_heap {heap : Heap} (h : Held k u s) (howns : Owns heap (blocks s' u))
    (hheap : s'.heap = heap) (hres : s'.res = s.res) (hanswers : s'.answers = s.answers) :
    Held k u s' where
  owns := hheap ▸ howns
  res := fun a ha => h.res a (hres ▸ ha)
  count := by rw [hanswers, h.count]
  accepted := fun hrefused => h.accepted (hrefused.of_answers hanswers.symm)

theorem freeLastFetched_of_fits (h : Held k u s) (hf : Fits s) :
    ∃ heap, freeLastFetched s = .ret () (cleared { s with heap := heap }) ∧
      Held k u (cleared { s with heap := heap }) := by
  have howns := h.owns.perm (blocks_cleared s u)
  rw [freeLastFetched, get_bind]
  unfold Fits at hf
  cases hrow : s.lastFetchedRow with
  | none =>
    rw [hrow] at hf howns
    obtain ⟨heap, hlengths, hleft⟩ := release_owned (p := s.lastFetchedLengths) howns
    refine ⟨heap, ?_, h.of_heap hleft rfl rfl rfl⟩
    have hloop : Prog.each (List.range s.lastColumnsNum) freeCell s = .ret () s := by
      rw [hf]
      rfl
    rw [Prog.bind_of_ret hloop, get_bind, hrow, Option.map_none]
    rw [Prog.bind_of_ret (release_none s), Prog.bind_of_ret hlengths]
    rfl
  | some row =>
    obtain ⟨address, cells⟩ := row
    rw [hrow] at hf howns
    have hcells : Owns s.heap (cells.reduceOption ++
        (address :: (s.lastFetchedLengths.toList ++ blocks (cleared s) u))) :=
      howns.perm List.perm_middle.symm
    obtain ⟨heap, hloop, hrest⟩ := freeCells (i := 0) hrow hcells
    rw [← List.range_eq_range', hf.1] at hloop
    have haddress := release_some (s := { s with
      heap := heap
      lastFetchedRow := some ⟨address, List.replicate (0 + s.lastColumnsNum) none⟩ }) hrest.mem
    obtain ⟨heap', hlengths, hleft⟩ := release_owned (s := { s with
      heap := heap.free address
      lastFetchedRow := some ⟨address, List.replicate (0 + s.lastColumnsNum) none⟩ }) hrest.free
    refine ⟨heap', ?_, h.of_heap hleft rfl rfl rfl⟩
    rw [Prog.bind_of_ret hloop, get_bind, Option.map_some]
    rw [Prog.bind_of_ret haddress, Prog.bind_of_ret hlengths]
    rfl

theorem freeLastFetched_of_torn (h : Torn s) :
    ∃ f s', freeLastFetched s = .fault f s' ∧ s'.answers = s.answers := by
  rw [freeLastFetched, get_bind]
  rcases h with ⟨hrow, hpos⟩ | ⟨⟨address, cells⟩, a, hrow, hlength, hmem, hdangling⟩
  · obtain ⟨n, hn⟩ := Nat.exists_eq_succ_of_ne_zero hpos.ne'
    refine ⟨.nullDereference, s, ?_, rfl⟩
    have hfirst : freeCell 0 s = .fault .nullDereference s := by
      rw [freeCell, Prog.bind_of_fault]
      rw [deleteCell, get_bind, hrow]
      rfl
    rw [Prog.bind_of_fault]
    rw [hn, List.range_eq_range', List.range'_succ, Prog.each, Prog.bind_of_fault hfirst]
  · obtain ⟨f, s', hloop, hanswers⟩ := freeCells_dangling (i := 0) hrow hmem hdangling
    rw [← List.range_eq_range', hlength] at hloop
    exact ⟨f, s', Prog.bind_of_fault hloop, hanswers⟩

/-- Nothing more happens to a `Broken` connection. -/
theorem Broken.freeLastFetched (h : Broken s) {Q : Unit → ConnectionState → Prop}
    {X : ReadException → ConnectionState → Prop} :
    (ConnectionMemory.freeLastFetched s).Post Q X Refused := by
  obtain ⟨f, s', hfault, hanswers⟩ := freeLastFetched_of_torn h.torn
  rw [hfault]
  exact h.refused.of_answers hanswers

/-! ## `CleanupStatement` -/

/-- The statement is closed, and nothing else changes. -/
theorem closeStmt (h : Held k u s) :
    ∃ heap, release s.stmt s = .ret () { s with heap := heap } ∧
      Held k u { s with heap := heap, stmt := none } := by
  have howns : Owns s.heap (s.stmt.toList ++ blocks { s with stmt := none } u) := by
    refine h.owns.perm (List.perm_iff_count.mpr fun b => ?_)
    simp only [blocks, List.count_append, Option.toList_none, List.count_nil]
    omega
  obtain ⟨heap, hrelease, hleft⟩ := release_owned howns
  exact ⟨heap, hrelease, h.of_heap hleft rfl rfl rfl⟩

theorem cleanupStatement_keep (h : Held k u s) :
    ∃ heap, cleanupStatement false s = .ret () { s with heap := heap, stmt := none } ∧
      Held k u { s with heap := heap, stmt := none } := by
  obtain ⟨heap, hrelease, hheld⟩ := closeStmt h
  refine ⟨heap, ?_, hheld⟩
  rw [cleanupStatement, get_bind, Prog.bind_of_ret hrelease, modify_bind]
  rfl

theorem cleanupStatement_free (h : Held k u s) (hf : Fits s) :
    ∃ heap, cleanupStatement true s = .ret () (cleared { s with heap := heap, stmt := none }) ∧
      Held k u (cleared { s with heap := heap, stmt := none }) := by
  obtain ⟨heap, hrelease, hheld⟩ := closeStmt h
  obtain ⟨heap', hfree, hheld'⟩ := freeLastFetched_of_fits hheld hf
  refine ⟨heap', ?_, hheld'⟩
  rw [cleanupStatement, get_bind, Prog.bind_of_ret hrelease, modify_bind]
  exact hfree

theorem Broken.cleanupStatement (h : Broken s) {Q : Unit → ConnectionState → Prop}
    {X : ReadException → ConnectionState → Prop} :
    (ConnectionMemory.cleanupStatement true s).Post Q X Refused := by
  rw [ConnectionMemory.cleanupStatement, get_bind]
  rcases release_cases s.stmt s with ⟨heap, hrelease, hkeep⟩ | ⟨f, hfault⟩
  · rw [Prog.bind_of_ret hrelease, modify_bind]
    have hbroken : Broken { s with heap := heap, stmt := none } :=
      ⟨h.refused, h.torn.of_heap rfl rfl hkeep⟩
    exact hbroken.freeLastFetched
  · rw [Prog.bind_of_fault hfault]
    exact h.refused

end ConnectionMemory

end SasLibclient
