import Mathlib.Algebra.Group.Nat.Defs
import Mathlib.Algebra.Group.Int.Defs
import SasLibclient.Queue.GetRuns

/-!
# What the batch queue indexes and divides by

The methods of `ThreadSafeBatchQueue` index the vectors of the class and divide
by `m_batchSize` without a check. `pushAccesses`, `popAccesses`, `getAccesses`
and `deleteProducerAccesses` list what a segment of a method does of that.
`PushOk`, `PopOk` and `GetLoopOk` are conditions on the data before a segment.
`Tracked` holds along the runs whose segments meet them; there every access is
fine, and `Get` returns the chunk it was asked for.
-/

namespace SasLibclient

open Monitors QueueItem

/-- What is indexed without a check. -/
inductive IndexedVector where
  | consumerQueues
  | partitionConsumer
  | consumers
  | dataArray
  | producerActiveArray
  | readInBatch
  | dataNotReadyCV
  | queue
  deriving DecidableEq, Repr

/-- An element of a vector, a divisor of `/` or `%`, and a field of a chunk,
which is alive until `MoveChunk` has deleted it. -/
inductive VectorAccess where
  | index (vector : IndexedVector) (i size : Int)
  | divisor (d : Int)
  | chunk (alive : Bool)
  deriving DecidableEq, Repr

def VectorAccess.Fine : VectorAccess → Prop
  | .index _ i size => 0 ≤ i ∧ i < size
  | .divisor d => d ≠ 0
  | .chunk alive => alive = true

namespace ThreadSafeBatchQueue

variable {T : Type}

/-! ## The accesses

`batchSize` is the `m_batchSize` of the source, which may be negative. -/

/-- `m_dataArray[idx]` -/
def dataArrayAt (batchSize : Int) (q : ThreadSafeBatchQueue T) (idx : Int) : VectorAccess :=
  .index .dataArray idx (q.totalProducers * batchSize.toNat)

/-- An element of a vector that has one for each producer. -/
def producerAt (vector : IndexedVector) (q : ThreadSafeBatchQueue T) (i : Int) : VectorAccess :=
  .index vector i q.totalProducers

def readValueAccesses (batchSize : Int) (q : ThreadSafeBatchQueue T) (idx : Int) : List VectorAccess :=
  [q.dataArrayAt batchSize idx, .divisor batchSize,
    q.producerAt .readInBatch (idx.tdiv batchSize)]

/-- The loops of `isBatchFinished` and `resetBatch`. -/
def resetIfFinishedAccesses (q : ThreadSafeBatchQueue T) : List VectorAccess :=
  (List.range q.totalProducers).flatMap fun i : Nat =>
    [q.producerAt .producerActiveArray i, q.producerAt .readInBatch i,
      q.producerAt .dataNotReadyCV i]

def deleteProducerAccesses (producerId : Int) (q : ThreadSafeBatchQueue T) : List VectorAccess :=
  q.producerAt .producerActiveArray (q.partitionIdToNumber producerId) ::
    q.resetIfFinishedAccesses

/-- The wait loop of `Get` and what follows. -/
def getLoopAccesses (batchSize producerId valueId : Int) (q : ThreadSafeBatchQueue T) :
    List VectorAccess :=
  let idx := slotIndex batchSize (q.partitionIdToNumber producerId) valueId
  [q.dataArrayAt batchSize idx, .divisor batchSize,
    q.producerAt .producerActiveArray (q.partitionIdToNumber producerId),
    q.producerAt .dataNotReadyCV (q.partitionIdToNumber producerId)] ++
  if q.getMustWait producerId valueId then
    []
  else if (q.dataArray (q.targetIndex producerId valueId)).isSet then
    q.readValueAccesses batchSize idx ++ [.index .queue 0 q.queue.length] ++
      q.resetIfFinishedAccesses
  else
    []

def getAccesses (batchSize producerId valueId : Int) (q : ThreadSafeBatchQueue T) : List VectorAccess :=
  if q.itemsToRead = 0 ∧ q.activeProducers = 0 then
    []
  else
    .divisor batchSize :: q.getLoopAccesses batchSize producerId valueId

variable [QueueItem T]

/-- `targetIndex(val->partition_id, val->id)` -/
def itemSlot (batchSize : Int) (q : ThreadSafeBatchQueue T) (val : T) : Int :=
  slotIndex batchSize (q.partitionIdToNumber (partitionId val)) (int32 (itemId val))

def pushAccesses (batchSize : Int) (val : T) (q : ThreadSafeBatchQueue T) : List VectorAccess :=
  [.divisor batchSize, .divisor batchSize, q.dataArrayAt batchSize (q.itemSlot batchSize val),
    q.producerAt .dataNotReadyCV (q.partitionIdToNumber (partitionId val))]

/-- The slot of the chunk has a chunk with its partition and its number: it has
not been handed out. -/
def holds (val : T) (q : ThreadSafeBatchQueue T) : Bool :=
  match q.dataArray (q.itemIndex val) with
  | ⟨some stored, true⟩ => partitionId stored == partitionId val && itemId stored == itemId val
  | _ => false

def popAccesses (batchSize : Int) (q : ThreadSafeBatchQueue T) : List VectorAccess :=
  if q.itemsToRead = 0 then
    []
  else
    .index .queue 0 q.queue.length ::
    match q.queue with
    | [] => []
    | res :: _ =>
      [.chunk (q.holds res), .divisor batchSize] ++
        q.readValueAccesses batchSize (q.itemSlot batchSize res) ++ q.resetIfFinishedAccesses

/-! ## The conditions -/

/-- A chunk is pushed into a queue with slots. -/
def PushOk (val : T) (q : ThreadSafeBatchQueue T) : Prop := 0 < q.batchSize ∧ q.Fits val

/-- The chunk that is next has not been handed out by `Get`. -/
def PopOk (q : ThreadSafeBatchQueue T) : Prop :=
  q.itemsToRead ≠ 0 → ∀ val, q.queue.head? = some val → q.holds val = true

omit [QueueItem T] in
/-- The index of a request is in the range of `int`, and not negative. -/
def IndexOk (producerId valueId : Int) (q : ThreadSafeBatchQueue T) : Prop :=
  0 ≤ q.partitionIdToNumber producerId * q.batchSize + valueId.tmod q.batchSize ∧
    q.partitionIdToNumber producerId * q.batchSize + valueId.tmod q.batchSize < 2 ^ 31

omit [QueueItem T] in
/-- `Get` asks for a slot of the queue, and what is in it is waited for, is not
there, or is of the current batch. -/
def GetLoopOk (producerId valueId : Int) (q : ThreadSafeBatchQueue T) : Prop :=
  0 < q.batchSize ∧ q.IndexOk producerId valueId ∧
    (q.getMustWait producerId valueId = true ∨
      (q.dataArray (q.targetIndex producerId valueId)).isSet = false ∨
      0 ≤ valueId ∧ valueId.tdiv q.batchSize = q.currentBatch)

/-! ## Fine accesses -/

section Fine

variable {q : ThreadSafeBatchQueue T} {ids : List Int} {batchSize p v : Int} {val : T}

omit [QueueItem T] in
theorem fine_producerAt {vector : IndexedVector} {i : Nat} (hi : i < q.totalProducers) :
    (q.producerAt vector i).Fine := by
  constructor
  · exact Int.natCast_nonneg i
  · exact Int.ofNat_lt.mpr hi

omit [QueueItem T] in
theorem fine_resetIfFinished (q : ThreadSafeBatchQueue T) :
    ∀ a ∈ q.resetIfFinishedAccesses, a.Fine := by
  intro a ha
  obtain ⟨i, hi, ha⟩ := List.mem_flatMap.mp ha
  have hfine : ∀ vector, (q.producerAt vector i).Fine :=
    fun _ => fine_producerAt (List.mem_range.mp hi)
  simp only [List.mem_cons, List.not_mem_nil, or_false] at ha
  rcases ha with rfl | rfl | rfl <;> exact hfine _

omit [QueueItem T] in
/-- The slot of a producer in the range of `int` is one of `m_dataArray`. -/
theorem IndexOk.targetIndex (h : q.IndexOk p v) (hnum : Numbered ids q) (hp : p ∈ ids)
    (hB : 0 < q.batchSize) :
    0 ≤ q.targetIndex p v ∧ q.targetIndex p v < q.totalProducers * q.batchSize := by
  obtain ⟨h0, hmax⟩ := h
  rw [ThreadSafeBatchQueue.targetIndex, slotIndex, int32_eq (by omega) hmax]
  refine ⟨h0, ?_⟩
  have hlt : v.tmod q.batchSize < q.batchSize := Int.tmod_lt_of_pos v (by omega)
  have hnumber : ((q.partitionIdToNumber p + 1 : Nat) : Int) * q.batchSize ≤
      q.totalProducers * q.batchSize :=
    Int.mul_le_mul_of_nonneg_right (Int.ofNat_le.mpr (hnum.lt p hp)) (by omega)
  push_cast [Int.add_mul] at hnumber
  omega

omit [QueueItem T] in
theorem IndexOk.inRange {n : Nat} (h : q.IndexOk p n) : q.InRange p n := by
  have hmax := h.2
  rw [← Int.ofNat_tmod] at hmax
  exact_mod_cast hmax

omit [QueueItem T] in
theorem fine_dataArrayAt {idx : Int} (h0 : 0 ≤ idx) (hidx : idx < q.totalProducers * batchSize)
    (hpos : 0 < batchSize) : (q.dataArrayAt batchSize idx).Fine := by
  refine ⟨h0, ?_⟩
  rw [Int.toNat_of_nonneg hpos.le]
  exact hidx

omit [QueueItem T] in
theorem fine_readValue {idx : Int} (h0 : 0 ≤ idx) (hidx : idx < q.totalProducers * batchSize)
    (hpos : 0 < batchSize) : ∀ a ∈ q.readValueAccesses batchSize idx, a.Fine := by
  intro a ha
  simp only [readValueAccesses, List.mem_cons, List.not_mem_nil, or_false] at ha
  rcases ha with rfl | rfl | rfl
  · exact fine_dataArrayAt h0 hidx hpos
  · exact hpos.ne'
  · constructor
    · exact Int.tdiv_nonneg h0 hpos.le
    · rw [Int.tdiv_eq_ediv_of_nonneg h0]
      exact Int.ediv_lt_of_lt_mul hpos hidx

theorem itemSlot_eq (hsize : batchSize = q.batchSize) : q.itemSlot batchSize val = q.itemIndex val := by
  rw [hsize]
  rfl

theorem itemIndex_range (hnum : Numbered ids q) (hp : partitionId val ∈ ids) (hB : 0 < q.batchSize)
    (hfits : q.Fits val) :
    0 ≤ q.itemIndex val ∧ q.itemIndex val < q.totalProducers * q.batchSize := by
  have hlt := slot_lt hB (hnum.lt _ hp) (itemId val)
  rw [itemIndex_eq hfits.1, hfits.2.targetIndex_eq]
  exact ⟨Int.natCast_nonneg _, by exact_mod_cast hlt⟩

theorem fine_push (hnum : Numbered ids q) (hp : partitionId val ∈ ids)
    (hsize : 0 < q.batchSize → batchSize = q.batchSize) (hok : q.PushOk val) :
    ∀ a ∈ q.pushAccesses batchSize val, a.Fine := by
  obtain ⟨hB, hfits⟩ := hok
  have hpos : 0 < batchSize := by
    rw [hsize hB]
    omega
  obtain ⟨h0, hlt⟩ := itemIndex_range hnum hp hB hfits
  rw [← hsize hB] at hlt
  intro a ha
  rw [pushAccesses, itemSlot_eq (hsize hB)] at ha
  simp only [ List.mem_cons, List.not_mem_nil, or_false] at ha
  rcases ha with rfl | rfl | rfl | rfl
  · exact hpos.ne'
  · exact hpos.ne'
  · exact fine_dataArrayAt h0 hlt hpos
  · exact fine_producerAt (hnum.lt _ hp)

omit [QueueItem T] in
theorem fine_deleteProducer (hnum : Numbered ids q) (hp : p ∈ ids) :
    ∀ a ∈ q.deleteProducerAccesses p, a.Fine := by
  intro a ha
  rcases List.mem_cons.mp ha with rfl | ha
  · exact fine_producerAt (hnum.lt p hp)
  · exact fine_resetIfFinished q a ha

omit [QueueItem T] in
theorem fine_getLoop (hnum : Numbered ids q) (hp : p ∈ ids)
    (hsize : 0 < q.batchSize → batchSize = q.batchSize) (hok : q.GetLoopOk p v)
    (hqueue : q.getMustWait p v = false → (q.dataArray (q.targetIndex p v)).isSet = true →
      q.queue ≠ []) :
    ∀ a ∈ q.getLoopAccesses batchSize p v, a.Fine := by
  obtain ⟨hB, hindex, -⟩ := hok
  have hpos : 0 < batchSize := by
    rw [hsize hB]
    omega
  obtain ⟨h0, hlt⟩ := hindex.targetIndex hnum hp hB
  rw [← hsize hB] at hlt
  have heq : slotIndex batchSize (q.partitionIdToNumber p) v = q.targetIndex p v := by
    rw [hsize hB]
    rfl
  intro a ha
  unfold getLoopAccesses at ha
  dsimp only at ha
  rw [heq] at ha
  rcases List.mem_append.mp ha with ha | ha
  · simp only [List.mem_cons, List.not_mem_nil, or_false] at ha
    rcases ha with rfl | rfl | rfl | rfl
    · exact fine_dataArrayAt h0 hlt hpos
    · exact hpos.ne'
    · exact fine_producerAt (hnum.lt p hp)
    · exact fine_producerAt (hnum.lt p hp)
  · cases hmust : q.getMustWait p v with
    | true => simp [hmust] at ha
    | false =>
      cases hset : (q.dataArray (q.targetIndex p v)).isSet with
      | false => simp [hmust, hset] at ha
      | true =>
        rw [hmust, if_neg (by decide), hset, if_pos rfl] at ha
        simp only [List.mem_append, List.mem_singleton] at ha
        rcases ha with (ha | rfl) | ha
        · exact fine_readValue h0 hlt hpos a ha
        · have hlength := List.length_pos_iff.mpr (hqueue hmust hset)
          exact ⟨Int.le_refl 0, by omega⟩
        · exact fine_resetIfFinished q a ha

theorem fine_pop (hnum : Numbered ids q) (hsize : 0 < q.batchSize → batchSize = q.batchSize)
    (hok : q.PopOk)
    (hfront : q.itemsToRead ≠ 0 → ∃ val rest, q.queue = val :: rest ∧ partitionId val ∈ ids ∧
      0 < q.batchSize ∧ q.Fits val) :
    ∀ a ∈ q.popAccesses batchSize, a.Fine := by
  intro a ha
  unfold popAccesses at ha
  by_cases hitems : q.itemsToRead = 0
  · rw [if_pos hitems] at ha
    cases ha
  · obtain ⟨val, rest, hq, hp, hB, hfits⟩ := hfront hitems
    have hpos : 0 < batchSize := by
      rw [hsize hB]
      omega
    obtain ⟨h0, hlt⟩ := itemIndex_range hnum hp hB hfits
    rw [← hsize hB] at hlt
    rw [if_neg hitems, hq] at ha
    dsimp only at ha
    rw [itemSlot_eq (hsize hB)] at ha
    simp only [List.mem_cons, List.mem_append, List.not_mem_nil, or_false] at ha
    rcases ha with rfl | ((rfl | rfl) | ha) | ha
    · exact ⟨Int.le_refl 0, by rw [List.length_cons]; omega⟩
    · exact hok hitems val (by rw [hq]; rfl)
    · exact hpos.ne'
    · exact fine_readValue h0 hlt hpos a ha
    · exact fine_resetIfFinished q a ha

end Fine

/-! ## The runs that meet the conditions -/

section Tracked

variable {B : Nat} {ids : List Int} {Known : T → Prop} {place place' : Int → Nat → Bool → Prop}
  {q : ThreadSafeBatchQueue T} {stored : List T} {sent : Int → Nat} {p v : Int} {val : T}

/-- A queue with slots, all of whose chunks are `Known`. `place p k active` says
how many chunks the producer `p` has pushed, and whether it is active. -/
structure Stocked (ids : List Int) (Known : T → Prop) (place : Int → Nat → Bool → Prop)
    (q : ThreadSafeBatchQueue T) (stored : List T) (sent : Int → Nat) : Prop
    extends BatchInv ids q stored sent where
  length : q.queue.length = stored.length
  queued : ∀ val ∈ q.queue, partitionId val ∈ ids ∧ Known val ∧ q.Fits val
  known : ∀ val ∈ stored, Known val
  producers : ∀ p ∈ ids, place p (sent p) (q.active p)

/-- A queue of a run that meets the conditions; without slots it stays empty. -/
structure Tracked (B : Nat) (ids : List Int) (Known : T → Prop) (place : Int → Nat → Bool → Prop)
    (q : ThreadSafeBatchQueue T) : Prop where
  batchSize : q.batchSize = B
  numbered : Numbered ids q
  contents : (q.batchSize = 0 ∧ q.queue = [] ∧ q.itemsToRead = 0) ∨
    ∃ stored sent, Stocked ids Known place q stored sent

theorem Stocked.tracked (h : Stocked ids Known place q stored sent) (hB : q.batchSize = B) :
    Tracked B ids Known place q where
  batchSize := hB
  numbered := h.numbered
  contents := Or.inr ⟨stored, sent, h⟩

theorem Tracked.create (batch_size : Nat) (hids : ids.Nodup) (hplace : ∀ p ∈ ids, place p 0 true) :
    Tracked batch_size ids Known place (ThreadSafeBatchQueue.create batch_size ids) where
  batchSize := rfl
  numbered := numbered_create batch_size ids hids
  contents := by
    rcases Nat.eq_zero_or_pos batch_size with rfl | hB
    · exact Or.inl ⟨rfl, rfl, rfl⟩
    · refine Or.inr ⟨[], fun _ => 0, BatchInv.create batch_size hB ids hids, rfl, ?_, ?_, ?_⟩
      · simp [ThreadSafeBatchQueue.create]
      · simp
      · intro p hp
        have hlt := (numbered_create (T := T) batch_size ids hids).lt p hp
        have hactive : (ThreadSafeBatchQueue.create (T := T) batch_size ids).active p = true := by
          simpa [active, ThreadSafeBatchQueue.create] using hlt
        rw [hactive]
        exact hplace p hp

theorem Tracked.imp (h : Tracked B ids Known place q)
    (hplace : ∀ p ∈ ids, ∀ k active, place p k active → place' p k active) :
    Tracked B ids Known place' q where
  batchSize := h.batchSize
  numbered := h.numbered
  contents := by
    rcases h.contents with hempty | ⟨stored, sent, hs⟩
    · exact Or.inl hempty
    · exact Or.inr ⟨stored, sent, hs.toBatchInv, hs.length, hs.queued, hs.known,
        fun p hp => hplace p hp _ _ (hs.producers p hp)⟩

/-! ### `Push` -/

theorem Stocked.push (h : Stocked ids Known place q stored sent) (hp : partitionId val ∈ ids)
    (hknown : Known val) (hfits : q.Fits val) (hact : q.active (partitionId val) = true)
    (hid : itemId val = sent (partitionId val)) (hw : q.pushMustWait val = false)
    (hothers : ∀ p ∈ ids, p ≠ partitionId val → ∀ k active, place p k active → place' p k active)
    (hplace : place' (partitionId val) (itemId val + 1) true) :
    Stocked ids Known place' (afterPush val q) (stored ++ [val])
      (Function.update sent (partitionId val) (itemId val + 1)) where
  toBatchInv := h.toBatchInv.push hp hact hid hfits hw
  length := by
    show (q.queue ++ [val]).length = _
    rw [List.length_append, List.length_append, h.length]
  queued := by
    intro w hw
    rcases List.mem_append.mp hw with hold | hnew
    · exact h.queued w hold
    · rw [List.mem_singleton.mp hnew]
      exact ⟨hp, hknown, hfits⟩
  known := by
    intro w hw
    rcases List.mem_append.mp hw with hold | hnew
    · exact h.known w hold
    · rw [List.mem_singleton.mp hnew]
      exact hknown
  producers := by
    intro p hpm
    by_cases e : p = partitionId val
    · subst e
      rw [Function.update_self]
      have hactive : (afterPush val q).active (partitionId val) = true := hact
      rw [hactive]
      exact hplace
    · rw [Function.update_of_ne e]
      exact hothers p hpm e _ _ (h.producers p hpm)

/-- `Push` of the next chunk of a producer waits, or stores the chunk. -/
theorem Tracked.push_cases (h : Tracked B ids Known place q) (hok : q.PushOk val)
    (hp : partitionId val ∈ ids) (hknown : Known val)
    (hnext : ∀ k active, place (partitionId val) k active → active = true ∧ itemId val = k) :
    ThreadSafeBatchQueue.push val q = ⟨q, [], .wait .busyCV⟩ ∨
      ∃ q' signals, ThreadSafeBatchQueue.push val q = ⟨q', signals, .ret .unit⟩ ∧
        ∀ place' : Int → Nat → Bool → Prop,
          (∀ p ∈ ids, p ≠ partitionId val → ∀ k active, place p k active → place' p k active) →
          place' (partitionId val) (itemId val + 1) true → Tracked B ids Known place' q' := by
  obtain ⟨hB, hfits⟩ := hok
  rcases h.contents with ⟨hzero, -, -⟩ | ⟨stored, sent, hs⟩
  · omega
  · cases hw : q.pushMustWait val with
    | true => exact Or.inl (push_wait hw)
    | false =>
      obtain ⟨hact, hid⟩ := hnext _ _ (hs.producers _ hp)
      refine Or.inr ⟨_, _, hs.toBatchInv.push_ret hp hact hid hfits hw, ?_⟩
      intro place' hothers hplace
      exact (hs.push hp hknown hfits hact hid hw hothers hplace).tracked h.batchSize

/-! ### `DeleteProducer` -/

/-- `DeleteProducer` of a producer that is active. -/
theorem Tracked.deleteProducer (h : Tracked B ids Known place q) (hp : p ∈ ids)
    (hactive : ∀ k active, place p k active → active = true)
    (hothers : ∀ p' ∈ ids, p' ≠ p → ∀ k active, place p' k active → place' p' k active)
    (hplace : ∀ k active, place p k active → place' p k false) :
    Tracked B ids Known place' (ThreadSafeBatchQueue.deleteProducer p q).data := by
  have hqueue : (ThreadSafeBatchQueue.deleteProducer p q).data.queue = q.queue := by
    simp [ThreadSafeBatchQueue.deleteProducer, deactivate]
  have hindex : ∀ p' i, (ThreadSafeBatchQueue.deleteProducer p q).data.InRange p' i ↔
      q.InRange p' i := by
    intro p' i
    simp [ThreadSafeBatchQueue.deleteProducer, deactivate, InRange]
  have hbatchSize : (ThreadSafeBatchQueue.deleteProducer p q).data.batchSize = q.batchSize := by
    simp [ThreadSafeBatchQueue.deleteProducer, deactivate]
  rcases h.contents with ⟨hzero, hnil, hitems⟩ | ⟨stored, sent, hs⟩
  · constructor
    · exact hbatchSize.trans h.batchSize
    · constructor
      · simpa [ThreadSafeBatchQueue.deleteProducer, deactivate] using h.numbered.lt
      · simpa [ThreadSafeBatchQueue.deleteProducer, deactivate] using h.numbered.inj
      · simpa [ThreadSafeBatchQueue.deleteProducer, deactivate] using h.numbered.onto
    · left
      simp [ThreadSafeBatchQueue.deleteProducer, deactivate, hzero, hnil, hitems]
  · suffices hkept : Stocked ids Known place' (ThreadSafeBatchQueue.deleteProducer p q).data stored
        sent from hkept.tracked (hbatchSize.trans h.batchSize)
    constructor
    · exact hs.toBatchInv.deleteProducer hp (hactive _ _ (hs.producers p hp))
    · rw [hqueue]
      exact hs.length
    · rw [hqueue]
      intro val hval
      obtain ⟨hids, hknown, hfits⟩ := hs.queued val hval
      refine ⟨hids, hknown, hfits.1, ?_⟩
      rw [hindex]
      exact hfits.2
    · exact hs.known
    · intro p' hp'
      rw [ThreadSafeBatchQueue.deleteProducer, resetIfFinished_active, deactivate_active]
      by_cases e : p' = p
      · subst e
        rw [if_pos rfl]
        exact hplace _ _ (hs.producers p' hp')
      · rw [if_neg fun hn => e (hs.numbered.inj _ hp' _ hp hn)]
        exact hothers p' hp' e _ _ (hs.producers p' hp')

/-! ### Delivery -/

theorem Stocked.read (h : Stocked ids Known place q stored sent) (hB : q.batchSize = B)
    (hval : val ∈ stored) {rest : List T} (hlen : rest.length + 1 = q.queue.length)
    (hrest : ∀ w ∈ rest, w ∈ q.queue) :
    Tracked B ids Known place (afterRead val rest q).resetIfFinished.1 := by
  obtain ⟨l₁, l₂, rfl⟩ := List.append_of_mem hval
  have hqueue : (afterRead val rest q).resetIfFinished.1.queue = rest := by simp [afterRead]
  have hindex : ∀ p i, (afterRead val rest q).resetIfFinished.1.InRange p i ↔ q.InRange p i := by
    intro p i
    rw [resetIfFinished_inRange]
    rfl
  suffices hkept : Stocked ids Known place (afterRead val rest q).resetIfFinished.1 (l₁ ++ l₂) sent
    from hkept.tracked ((resetIfFinished_batchSize _).trans hB)
  constructor
  · exact (h.toBatchCore.read rest).resetIfFinished
  · have hlength := h.length
    rw [hqueue]
    simp only [List.length_append, List.length_cons] at hlength ⊢
    omega
  · rw [hqueue]
    intro w hw
    obtain ⟨hids, hknown, hfits⟩ := h.queued w (hrest w hw)
    refine ⟨hids, hknown, hfits.1, ?_⟩
    rw [hindex]
    exact hfits.2
  · intro w hw
    apply h.known
    rcases List.mem_append.mp hw with hw | hw
    · exact List.mem_append_left _ hw
    · exact List.mem_append_right _ (List.mem_cons_of_mem _ hw)
  · intro p hp
    rw [resetIfFinished_active]
    exact h.producers p hp

omit [QueueItem T] in
theorem mem_queue_of_getLoop {w : T} (hw : w ∈ (getLoop p v q).data.queue) : w ∈ q.queue := by
  unfold getLoop at hw
  dsimp only at hw
  split at hw
  · exact hw
  · split at hw
    · exact hw
    · split at hw
      · rename_i hqueue
        rw [resetIfFinished_queue] at hw
        rw [hqueue]
        exact List.mem_cons_of_mem _ hw
      · exact hw
      · exact hw

/-- **`Get` from its wait loop on**: it waits, throws, or returns the chunk it
was asked for. -/
theorem Tracked.getLoop_cases (h : Tracked B ids Known place q) (hp : p ∈ ids)
    (hok : q.GetLoopOk p v) :
    (∃ cv, getLoop p v q = ⟨q, [], .wait cv⟩) ∨
    (∃ what, getLoop p v q = ⟨q, [], .ret (.outOfRange what)⟩) ∨
    ∃ w q' signals, getLoop p v q = ⟨q', signals, .ret (.value w)⟩ ∧ partitionId w = p ∧
      (itemId w : Int) = v ∧ Known w ∧ Tracked B ids Known place q' := by
  obtain ⟨hB, hindex, hcases⟩ := hok
  cases hmust : q.getMustWait p v with
  | true =>
    left
    refine ⟨.dataNotReadyCV (q.partitionIdToNumber p), ?_⟩
    simp [getLoop, hmust]
  | false =>
    right
    cases hset : (q.dataArray (q.targetIndex p v)).isSet with
    | false =>
      left
      refine ⟨"Asking for non-existsent chunk", ?_⟩
      simp [getLoop, hmust, hset]
    | true =>
      right
      simp only [hmust, hset, Bool.false_eq_true, reduceCtorEq, false_or] at hcases
      obtain ⟨hv, hbatch⟩ := hcases
      obtain ⟨n, rfl⟩ := Int.eq_ofNat_of_zero_le hv
      rcases h.contents with ⟨hzero, -, -⟩ | ⟨stored, sent, hs⟩
      · omega
      · rcases hs.toBatchCore.getLoop_cases hs.length hp hindex.inRange with ⟨hact, e⟩ | ⟨hfree, e⟩ |
          ⟨w, rest, hw, hpw, hmod, -, -, hlen, e⟩
        · -- it does not wait
          have hexit := congrArg Segment.exit e
          unfold getLoop at hexit
          dsimp only at hexit
          rw [if_neg (by rw [hmust]; decide), if_neg (by rw [hset]; decide)] at hexit
          split at hexit <;> cases hexit
        · rw [hset] at hfree
          cases hfree
        · have hn : n / q.batchSize = q.currentBatch := by
            rw [← Int.ofNat_tdiv] at hbatch
            exact Int.ofNat.inj hbatch
          have hrest : ∀ x ∈ rest, x ∈ q.queue := by
            intro x hx
            apply mem_queue_of_getLoop (p := p) (v := n)
            rw [e]
            simpa [afterRead] using hx
          refine ⟨w, _, _, e, hpw, ?_, hs.known w hw, hs.read h.batchSize hw hlen hrest⟩
          rw [(hs.toBatchCore.itemId_eq_iff hw hmod).mpr hn]

theorem Tracked.get_cases (h : Tracked B ids Known place q) (hp : p ∈ ids)
    (hok : (q.itemsToRead = 0 ∧ q.activeProducers = 0) ∨ q.GetLoopOk p v) :
    (∃ cv, get p v q = ⟨q, [], .wait cv⟩) ∨
    (∃ what, get p v q = ⟨q, [], .ret (.outOfRange what)⟩) ∨
    ∃ w q' signals, get p v q = ⟨q', signals, .ret (.value w)⟩ ∧ partitionId w = p ∧
      (itemId w : Int) = v ∧ Known w ∧ Tracked B ids Known place q' := by
  unfold get
  by_cases hempty : q.itemsToRead = 0 ∧ q.activeProducers = 0
  · rw [if_pos hempty]
    exact Or.inr (Or.inl ⟨_, rfl⟩)
  · rw [if_neg hempty]
    exact h.getLoop_cases hp (hok.resolve_left hempty)

/-- The chunk that `Pop` reads is stored. -/
theorem Stocked.mem_of_holds (h : Stocked ids Known place q stored sent)
    (hp : partitionId val ∈ ids) (hfits : q.Fits val) (hholds : q.holds val = true) :
    ∃ w ∈ stored, partitionId w = partitionId val ∧ itemId w = itemId val := by
  unfold holds at hholds
  split at hholds
  · rename_i w hslot
    rw [Bool.and_eq_true, beq_iff_eq, beq_iff_eq] at hholds
    rw [itemIndex_eq hfits.1] at hslot
    obtain ⟨w', hw', hpw, hmod⟩ := h.slots _ hp (itemId val) hfits.2 (by rw [hslot])
    obtain ⟨-, -, -, hslot'⟩ := h.stored_spec w' hw'
    rw [hpw, targetIndex_congr q _ hmod, hslot] at hslot'
    obtain rfl := Option.some.inj (DataContainer.mk.inj hslot').1
    exact ⟨w, hw', hholds⟩
  · cases hholds

theorem Tracked.stocked_of_items (h : Tracked B ids Known place q) (hitems : q.itemsToRead ≠ 0) :
    ∃ stored sent val rest, Stocked ids Known place q stored sent ∧ q.queue = val :: rest := by
  rcases h.contents with ⟨-, -, hzero⟩ | ⟨stored, sent, hs⟩
  · exact absurd hzero hitems
  · cases hq : q.queue with
    | nil =>
      have hlength := hs.length
      have hcount := hs.items
      rw [hq, List.length_nil] at hlength
      rw [← hlength] at hcount
      exact absurd hcount hitems
    | cons val rest => exact ⟨stored, sent, val, rest, hs, rfl⟩

/-- **`Pop`** waits, throws, or returns a chunk of a producer. -/
theorem Tracked.pop_cases (h : Tracked B ids Known place q) (hok : q.PopOk) :
    (∃ cv, pop q = ⟨q, [], .wait cv⟩) ∨
    (∃ what, pop q = ⟨q, [], .ret (.outOfRange what)⟩) ∨
    ∃ w q' signals, pop q = ⟨q', signals, .ret (.value w)⟩ ∧ partitionId w ∈ ids ∧ Known w ∧
      Tracked B ids Known place q' := by
  by_cases hitems : q.itemsToRead = 0
  · by_cases hactive : q.activeProducers = 0
    · exact Or.inr (Or.inl ⟨"Queue is empty", by simp [pop, hitems, hactive]⟩)
    · exact Or.inl ⟨.emptyCV, by simp [pop, hitems, hactive]⟩
  · right; right
    obtain ⟨stored, sent, val, rest, hs, hq⟩ := h.stocked_of_items hitems
    obtain ⟨hp, hknown, hfits⟩ := hs.queued val (by rw [hq]; exact List.mem_cons_self)
    obtain ⟨w, hw, hpw, hiw⟩ := hs.mem_of_holds hp hfits (hok hitems val (by rw [hq]; rfl))
    have hsame : afterRead val rest q = afterRead w rest q := by
      unfold afterRead
      rw [hpw, hiw]
    have hpop : pop q = ⟨(afterRead val rest q).resetIfFinished.1,
        (afterRead val rest q).resetIfFinished.2, .ret (.value val)⟩ := by
      simp only [pop, hitems, hq, itemIndex_eq hfits.1, false_and, ↓reduceIte]
      rfl
    refine ⟨val, _, _, hpop, hp, hknown, ?_⟩
    rw [hsame]
    apply hs.read h.batchSize hw
    · rw [hq]
      rfl
    · intro x hx
      rw [hq]
      exact List.mem_cons_of_mem _ hx

/-! ### The accesses of a tracked queue -/

section Accesses

variable {batchSize : Int}

theorem Tracked.fine_pop (h : Tracked B ids Known place q)
    (hsize : 0 < q.batchSize → batchSize = q.batchSize) (hok : q.PopOk) :
    ∀ a ∈ q.popAccesses batchSize, a.Fine := by
  apply ThreadSafeBatchQueue.fine_pop h.numbered hsize hok
  intro hitems
  obtain ⟨stored, sent, val, rest, hs, hq⟩ := h.stocked_of_items hitems
  obtain ⟨hp, -, hfits⟩ := hs.queued val (by rw [hq]; exact List.mem_cons_self)
  exact ⟨val, rest, hq, hp, hs.pos, hfits⟩

theorem Tracked.fine_getLoop (h : Tracked B ids Known place q) (hp : p ∈ ids)
    (hsize : 0 < q.batchSize → batchSize = q.batchSize) (hok : q.GetLoopOk p v) :
    ∀ a ∈ q.getLoopAccesses batchSize p v, a.Fine := by
  apply ThreadSafeBatchQueue.fine_getLoop h.numbered hp hsize hok
  intro hmust hset hnil
  obtain ⟨hB, hindex, hcases⟩ := hok
  simp only [hmust, hset, Bool.false_eq_true, reduceCtorEq, false_or] at hcases
  obtain ⟨n, rfl⟩ := Int.eq_ofNat_of_zero_le hcases.1
  rcases h.contents with ⟨hzero, -, -⟩ | ⟨stored, sent, hs⟩
  · omega
  · obtain ⟨w, hw, -⟩ := hs.slots p hp n hindex.inRange hset
    have hlength := hs.length
    have hpos := List.length_pos_of_mem hw
    rw [hnil, List.length_nil] at hlength
    omega

theorem Tracked.fine_get (h : Tracked B ids Known place q) (hp : p ∈ ids)
    (hsize : 0 < q.batchSize → batchSize = q.batchSize)
    (hok : (q.itemsToRead = 0 ∧ q.activeProducers = 0) ∨ q.GetLoopOk p v) :
    ∀ a ∈ q.getAccesses batchSize p v, a.Fine := by
  intro a ha
  unfold getAccesses at ha
  by_cases hempty : q.itemsToRead = 0 ∧ q.activeProducers = 0
  · rw [if_pos hempty] at ha
    cases ha
  · have hloop := hok.resolve_left hempty
    rw [if_neg hempty] at ha
    rcases List.mem_cons.mp ha with rfl | ha
    · show batchSize ≠ 0
      rw [hsize hloop.1]
      have hB := hloop.1
      omega
    · exact h.fine_getLoop hp hsize hloop a ha

end Accesses

end Tracked

end ThreadSafeBatchQueue

end SasLibclient
