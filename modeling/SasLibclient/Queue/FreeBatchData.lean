import SasLibclient.Queue.BatchBarrier

/-!
# `FreeBatchData` (`queue/thread_safe_batch_queue.hpp`)

The destructor of `MultiPassQueue` drains the queue while the readers are
still running: `FreeBatchData` reads the set slots one by one, which releases
the producers from the barrier, and sleeps while nothing is stored. One run of
its loop under the lock frees every stored chunk (`freeTurns_drained`).
`TeardownInv` is the invariant of its interleavings with the producers, from
any state that a run of `Pop`s or of `Get`s has reached.
-/

namespace SasLibclient

open Monitors QueueItem

namespace ThreadSafeBatchQueue

/-- A queue, and the chunks passed to `FreeCallback`. -/
structure Freeing (T : Type) where
  queue : ThreadSafeBatchQueue T
  freed : List T

variable {T : Type}

/-- The first set slot. -/
def firstSet (q : ThreadSafeBatchQueue T) : Option Nat :=
  (List.range (q.totalProducers * q.batchSize)).find? fun idx => (q.dataArray (idx : Nat)).isSet

/-- A turn of the outer loop from its wait loop on; `next` are the turns after
it. -/
def freeTurn
    (next : Freeing T → List (Signal CondVar) → Segment (Freeing T) CondVar (Result T))
    (d : Freeing T) (signals : List (Signal CondVar)) : Segment (Freeing T) CondVar (Result T) :=
  if d.queue.itemsToRead = 0 ∧ d.queue.activeProducers ≠ 0 then
    ⟨d, signals, .wait .emptyCV⟩
  else
    match d.queue.firstSet with
    | none => next d signals
    | some idx =>
      match d.queue.queue, (d.queue.readValue idx).1 with
      | _ :: rest, some res =>
        let q' := { (d.queue.readValue idx).2 with queue := rest }
        next ⟨q'.resetIfFinished.1, d.freed ++ [res]⟩ (signals ++ q'.resetIfFinished.2)
      | [], _ => ⟨d, signals, .ret (.abort "pop of an empty std::queue")⟩
      | _ :: _, none => ⟨d, signals, .ret (.abort "uninitialised valuePtr")⟩

/-- The outer loop; the first argument bounds its turns. -/
def freeTurns : Nat → Freeing T → List (Signal CondVar) → Segment (Freeing T) CondVar (Result T)
  | 0, d, signals => ⟨d, signals, .ret (.abort "endless loop")⟩
  | n + 1, d, signals =>
    if d.queue.activeProducers ≠ 0 ∨ d.queue.itemsToRead ≠ 0 then
      freeTurn (freeTurns n) d signals
    else
      ⟨d, signals, .ret .unit⟩

/-- Every turn but the last one reads an item. -/
def turns (d : Freeing T) : Nat := d.queue.itemsToRead.toNat + 1

def freeBatchData (d : Freeing T) : Segment (Freeing T) CondVar (Result T) :=
  freeTurns (turns d) d []

/-- `FreeBatchData` after its wait. -/
def freeBatchDataWoken (d : Freeing T) : Segment (Freeing T) CondVar (Result T) :=
  freeTurn (freeTurns (turns d)) d []

variable [QueueItem T] {ids : List Int} {stored : List T} {sent : Int → Nat} {d : Freeing T}
  {signals : List (Signal CondVar)}

/-- A set slot is found unless nothing is stored. -/
theorem BatchCore.firstSet_cases {q : ThreadSafeBatchQueue T} (h : BatchCore ids q stored sent)
    (hslots : q.totalProducers * q.batchSize < 2 ^ 31) :
    (stored = [] ∧ q.firstSet = none) ∨
    ∃ w l₁ l₂, stored = l₁ ++ w :: l₂ ∧ q.firstSet = some (q.slotOf w) := by
  cases hfirst : q.firstSet with
  | none =>
    left
    refine ⟨List.eq_nil_iff_forall_not_mem.mpr fun w hw => ?_, rfl⟩
    have hnone := List.find?_eq_none.mp hfirst (q.slotOf w) (List.mem_range.mpr (h.slotOf_lt hw))
    rw [← h.targetIndex_eq_slotOf hw, (h.stored_spec w hw).2.2.2] at hnone
    exact hnone rfl
  | some idx =>
    right
    rw [firstSet] at hfirst
    have hset := List.find?_some hfirst
    have hlt := List.mem_range.mp (List.mem_of_find?_eq_some hfirst)
    obtain ⟨w, hw, hindex⟩ := h.chunk_at hslots hlt hset
    obtain ⟨l₁, l₂, hsplit⟩ := List.append_of_mem hw
    rw [h.targetIndex_eq_slotOf hw, Int.natCast_inj] at hindex
    exact ⟨w, l₁, l₂, hsplit, by rw [hindex]⟩

/-- **What a turn can do**: sleep, end the loop, or free a stored chunk. -/
theorem BatchCore.freeTurn_cases (h : BatchCore ids d.queue stored sent)
    (hslots : d.queue.totalProducers * d.queue.batchSize < 2 ^ 31)
    (hlen : d.queue.queue.length = stored.length)
    (next : Freeing T → List (Signal CondVar) → Segment (Freeing T) CondVar (Result T))
    (signals : List (Signal CondVar)) :
    (stored = [] ∧ d.queue.activeProducers ≠ 0 ∧
      freeTurn next d signals = ⟨d, signals, .wait .emptyCV⟩) ∨
    (stored = [] ∧ d.queue.activeProducers = 0 ∧ freeTurn next d signals = next d signals) ∨
    ∃ w l₁ l₂ rest, stored = l₁ ++ w :: l₂ ∧ rest.length + 1 = d.queue.queue.length ∧
      freeTurn next d signals =
        next ⟨(afterRead w rest d.queue).resetIfFinished.1, d.freed ++ [w]⟩
          (signals ++ (afterRead w rest d.queue).resetIfFinished.2) := by
  have hitems := h.items
  rcases h.firstSet_cases hslots with ⟨rfl, hfirst⟩ | ⟨w, l₁, l₂, rfl, hfirst⟩
  · have hzero : d.queue.itemsToRead = 0 := by simpa using hitems
    by_cases hactive : d.queue.activeProducers = 0
    · exact Or.inr (Or.inl ⟨rfl, hactive, by simp [freeTurn, hzero, hactive, hfirst]⟩)
    · exact Or.inl ⟨rfl, hactive, by simp [freeTurn, hzero, hactive]⟩
  · have hne : d.queue.itemsToRead ≠ 0 := by
      rw [hitems]
      simp only [List.length_append, List.length_cons]
      omega
    have hw : w ∈ l₁ ++ w :: l₂ := by simp
    have hindex := h.targetIndex_eq_slotOf hw
    have hslot := (h.stored_spec w hw).2.2.2
    rw [hindex] at hslot
    cases hq : d.queue.queue with
    | nil =>
      rw [hq] at hlen
      simp at hlen
    | cons front rest =>
      refine Or.inr (Or.inr ⟨w, l₁, l₂, rest, rfl, rfl, ?_⟩)
      simp only [freeTurn, hne, false_and, ↓reduceIte, hfirst, hq, readValue, hslot]
      simp only [afterRead, readValue, hindex, hslot]

/-- What the loop leaves, from `d` on and after `signals`: every stored chunk
has been freed, and the loop sleeps or has ended. -/
structure Drained (ids : List Int) (sent : Int → Nat) (d : Freeing T) (stored : List T)
    (signals : List (Signal CondVar)) (seg : Segment (Freeing T) CondVar (Result T)) : Prop where
  inv : BatchInv ids seg.data.queue [] sent
  queue : seg.data.queue.queue = []
  freed : ∃ gone, gone.Perm stored ∧ seg.data.freed = d.freed ++ gone
  exit : (seg.exit = .wait .emptyCV ∧ seg.data.queue.activeProducers ≠ 0) ∨
    (seg.exit = .ret .unit ∧ seg.data.queue.activeProducers = 0)
  batchSize : seg.data.queue.batchSize = d.queue.batchSize
  totalProducers : seg.data.queue.totalProducers = d.queue.totalProducers
  active : ∀ p, seg.data.queue.active p = d.queue.active p
  activeProducers : seg.data.queue.activeProducers = d.queue.activeProducers
  earlier : ∀ s ∈ signals, s ∈ seg.signals
  batch : seg.data.queue.currentBatch = d.queue.currentBatch ∨ Signal.all .busyCV ∈ seg.signals

theorem Drained.of_empty {seg : Segment (Freeing T) CondVar (Result T)}
    (h : BatchInv ids d.queue [] sent) (hqueue : d.queue.queue = [])
    (hdata : seg.data = d) (hsignals : seg.signals = signals)
    (hexit : (seg.exit = .wait .emptyCV ∧ d.queue.activeProducers ≠ 0) ∨
      (seg.exit = .ret .unit ∧ d.queue.activeProducers = 0)) :
    Drained ids sent d [] signals seg := by
  constructor
  · rw [hdata]; exact h
  · rw [hdata]; exact hqueue
  · exact ⟨[], .refl _, by rw [hdata, List.append_nil]⟩
  · rw [hdata]; exact hexit
  · rw [hdata]
  · rw [hdata]
  · intro p; rw [hdata]
  · rw [hdata]
  · rw [hsignals]; exact fun s hs => hs
  · rw [hdata]; exact Or.inl rfl

theorem Drained.cons {seg : Segment (Freeing T) CondVar (Result T)} {w : T} {l₁ l₂ rest : List T}
    (h : Drained ids sent ⟨(afterRead w rest d.queue).resetIfFinished.1, d.freed ++ [w]⟩
      (l₁ ++ l₂) (signals ++ (afterRead w rest d.queue).resetIfFinished.2) seg) :
    Drained ids sent d (l₁ ++ w :: l₂) signals seg := by
  obtain ⟨gone, hperm, hfreed⟩ := h.freed
  constructor
  · exact h.inv
  · exact h.queue
  · refine ⟨w :: gone, (hperm.cons w).trans List.perm_middle.symm, ?_⟩
    rw [hfreed, List.append_assoc]
    rfl
  · exact h.exit
  · rw [h.batchSize, resetIfFinished_batchSize]
    rfl
  · rw [h.totalProducers, resetIfFinished_totalProducers]
    rfl
  · intro p
    rw [h.active p, resetIfFinished_active]
    rfl
  · rw [h.activeProducers, resetIfFinished_activeProducers]
    rfl
  · intro s hs
    exact h.earlier s (List.mem_append_left _ hs)
  · rcases h.batch with hbatch | hall
    · rcases resetIfFinished_cases (afterRead w rest d.queue) with hr | ⟨_, hr⟩
      · left
        rw [hbatch, hr]
        rfl
      · right
        apply h.earlier
        rw [hr]
        simp [resetSignals]
    · exact Or.inr hall

omit [QueueItem T] in
theorem slots_afterRead [QueueItem T] (w : T) (rest : List T) (q : ThreadSafeBatchQueue T) :
    (afterRead w rest q).resetIfFinished.1.totalProducers *
        (afterRead w rest q).resetIfFinished.1.batchSize = q.totalProducers * q.batchSize := by
  rw [resetIfFinished_totalProducers, resetIfFinished_batchSize]
  rfl

/-- **The loop frees everything that is stored.** -/
theorem freeTurns_drained {n : Nat} (h : BatchInv ids d.queue stored sent)
    (hslots : d.queue.totalProducers * d.queue.batchSize < 2 ^ 31)
    (hlen : d.queue.queue.length = stored.length) (hn : stored.length < n) :
    Drained ids sent d stored signals (freeTurns n d signals) := by
  induction n generalizing d stored signals with
  | zero => exact absurd hn (Nat.not_lt_zero _)
  | succ n ih =>
    have hitems := h.items
    unfold freeTurns
    split
    · rename_i hgo
      rcases h.toBatchCore.freeTurn_cases hslots hlen (freeTurns n) signals with ⟨rfl, hactive, e⟩ |
        ⟨rfl, hactive, _⟩ | ⟨w, l₁, l₂, rest, rfl, hrest, e⟩
      · rw [e]
        exact .of_empty h (List.length_eq_zero_iff.mp hlen) rfl rfl (Or.inl ⟨rfl, hactive⟩)
      · rw [hactive, hitems] at hgo
        simp at hgo
      · rw [e]
        refine .cons (ih (h.toBatchCore.read rest).resetIfFinished ?_ ?_ ?_)
        · rw [slots_afterRead]
          exact hslots
        · rw [resetIfFinished_queue]
          simp only [afterRead, List.length_append, List.length_cons] at hlen ⊢
          omega
        · simp only [List.length_append, List.length_cons] at hn ⊢
          omega
    · rename_i hstop
      rw [not_or, not_not, not_not] at hstop
      obtain rfl : stored = [] := by
        rw [hitems] at hstop
        simpa using hstop.2
      exact .of_empty h (List.length_eq_zero_iff.mp hlen) rfl rfl (Or.inr ⟨rfl, hstop.1⟩)

theorem freeBatchData_drained (h : BatchInv ids d.queue stored sent)
    (hslots : d.queue.totalProducers * d.queue.batchSize < 2 ^ 31)
    (hlen : d.queue.queue.length = stored.length) :
    Drained ids sent d stored [] (freeBatchData d) := by
  apply freeTurns_drained h hslots hlen
  rw [turns, h.items, Int.toNat_natCast]
  omega

theorem freeBatchDataWoken_drained (h : BatchInv ids d.queue stored sent)
    (hslots : d.queue.totalProducers * d.queue.batchSize < 2 ^ 31)
    (hlen : d.queue.queue.length = stored.length) :
    Drained ids sent d stored [] (freeBatchDataWoken d) := by
  have hturns : stored.length < turns d := by
    rw [turns, h.items, Int.toNat_natCast]
    omega
  unfold freeBatchDataWoken
  rcases h.toBatchCore.freeTurn_cases hslots hlen (freeTurns (turns d)) [] with ⟨rfl, hactive, e⟩ |
    ⟨rfl, hactive, e⟩ | ⟨w, l₁, l₂, rest, rfl, hrest, e⟩
  · rw [e]
    exact .of_empty h (List.length_eq_zero_iff.mp hlen) rfl rfl (Or.inl ⟨rfl, hactive⟩)
  · rw [e]
    exact freeTurns_drained h hslots hlen hturns
  · rw [e]
    refine .cons (freeTurns_drained (h.toBatchCore.read rest).resetIfFinished ?_ ?_ ?_)
    · rw [slots_afterRead]
      exact hslots
    · rw [resetIfFinished_queue]
      simp only [afterRead, List.length_append, List.length_cons] at hlen ⊢
      omega
    · simp only [List.length_append, List.length_cons] at hturns ⊢
      omega

end ThreadSafeBatchQueue

end SasLibclient
