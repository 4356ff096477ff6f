import SasLibclient.Queue.ThreadSafeQueue

/-!
# `ThreadSafeBatchQueue` (`queue/thread_safe_batch_queue.hpp`)

The data of the class and its methods, each as the segment it runs under
`m_mutex`. Vectors are functions of the index; counters that the code
decrements are integers. Chunk ids are `uint64_t`, batch numbers and indices
are `int`: they are converted as the code converts them. `Push` and `Pop` test
their wait condition first, so their segment from the entry and from the wait
are the same; `Get` has a check before its loop that a woken thread does not
repeat.
-/

namespace SasLibclient

open Monitors

/-- A slot of `m_dataArray`; `valuePtr` is `none` until the first push. -/
structure DataContainer (T : Type) where
  valuePtr : Option T
  isSet : Bool

structure ThreadSafeBatchQueue (T : Type) where
  queue : List T
  batchSize : Nat
  totalProducers : Nat
  activeProducers : Int
  producerActiveArray : Nat → Bool
  producerIds : List Int
  partitionIdToNumber : Int → Nat
  dataArray : Int → DataContainer T
  currentBatch : Nat
  readInBatch : Nat → Nat
  itemsToRead : Int

/-- `m_partitionIdToNumber[m_producerIds[i]] = i` for `i = first, first + 1, …`. -/
def numberFrom (first : Nat) (m : Int → Nat) : List Int → (Int → Nat)
  | [] => m
  | p :: ps => numberFrom (first + 1) (Function.update m p first) ps

namespace ThreadSafeBatchQueue

variable {T : Type}

/-- The constructor. A key missing from the `unordered_map` reads as 0. -/
def create (batch_size : Nat) (producers : List Int) : ThreadSafeBatchQueue T where
  queue := []
  batchSize := batch_size
  totalProducers := producers.length
  activeProducers := producers.length
  producerActiveArray := fun i => decide (i < producers.length)
  producerIds := producers
  partitionIdToNumber := numberFrom 0 (fun _ => 0) producers
  dataArray := fun _ => ⟨none, false⟩
  currentBatch := 0
  readInBatch := fun _ => 0
  itemsToRead := 0

def isBatchFinished (q : ThreadSafeBatchQueue T) : Bool :=
  (List.range q.totalProducers).all
    (fun i => !(q.producerActiveArray i && q.readInBatch i != q.batchSize)) &&
  q.itemsToRead == 0

/-- The arithmetic of `targetIndex`. -/
def slotIndex (batchSize number valueId : Int) : Int :=
  int32 (number * batchSize + valueId.tmod batchSize)

def targetIndex (q : ThreadSafeBatchQueue T) (producerId valueId : Int) : Int :=
  slotIndex q.batchSize (q.partitionIdToNumber producerId) valueId

/-- The data part of `resetBatch`. `m_currentBatch` is converted where it is
read. -/
def resetBatch (q : ThreadSafeBatchQueue T) : ThreadSafeBatchQueue T :=
  { q with
    readInBatch := fun i => if i < q.totalProducers then 0 else q.readInBatch i
    currentBatch := q.currentBatch + 1 }

/-- The notifications of `resetBatch`. -/
def resetSignals (q : ThreadSafeBatchQueue T) : List (Signal CondVar) :=
  .all .busyCV :: (List.range q.totalProducers).map fun i => .all (.dataNotReadyCV i)

/-- `if (isBatchFinished()) resetBatch();` -/
def resetIfFinished (q : ThreadSafeBatchQueue T) :
    ThreadSafeBatchQueue T × List (Signal CondVar) :=
  if q.isBatchFinished then (q.resetBatch, q.resetSignals) else (q, [])

def readValue (q : ThreadSafeBatchQueue T) (idx : Int) : Option T × ThreadSafeBatchQueue T :=
  ((q.dataArray idx).valuePtr,
    { q with
      itemsToRead := q.itemsToRead - 1
      dataArray := Function.update q.dataArray idx { q.dataArray idx with isSet := false }
      readInBatch := Function.update q.readInBatch (idx.tdiv q.batchSize).toNat
        (q.readInBatch (idx.tdiv q.batchSize).toNat + 1) })

variable [QueueItem T]

/-- `targetIndex(val->partition_id, val->id)` -/
def itemIndex (q : ThreadSafeBatchQueue T) (val : T) : Int :=
  q.targetIndex (QueueItem.partitionId val) (int32 (QueueItem.itemId val))

/-- `batchNum > m_currentBatch`, the condition of the wait loop of `Push`. -/
def pushMustWait (q : ThreadSafeBatchQueue T) (val : T) : Bool :=
  int32 (QueueItem.itemId val / q.batchSize : Nat) > int32 q.currentBatch

def push (val : T) (q : ThreadSafeBatchQueue T) :
    Segment (ThreadSafeBatchQueue T) CondVar (Result T) :=
  let valueIndex := q.itemIndex val
  if q.pushMustWait val then
    ⟨q, [], .wait .busyCV⟩
  else if (q.dataArray valueIndex).isSet then
    ⟨q, [], .ret (.abort "pushing to non-empty place")⟩
  else
    ⟨{ q with
        dataArray := Function.update q.dataArray valueIndex ⟨some val, true⟩
        queue := q.queue ++ [val]
        itemsToRead := q.itemsToRead + 1 },
      [.one .emptyCV,
        .all (.dataNotReadyCV (q.partitionIdToNumber (QueueItem.partitionId val)))],
      .ret .unit⟩

def pop (q : ThreadSafeBatchQueue T) : Segment (ThreadSafeBatchQueue T) CondVar (Result T) :=
  if q.itemsToRead = 0 ∧ q.activeProducers ≠ 0 then
    ⟨q, [], .wait .emptyCV⟩
  else if q.itemsToRead = 0 ∧ q.activeProducers = 0 then
    ⟨q, [], .ret (.outOfRange "Queue is empty")⟩
  else
    match q.queue with
    | [] => ⟨q, [], .ret (.abort "front of an empty std::queue")⟩
    | res :: rest =>
      let q' := { (q.readValue (q.itemIndex res)).2 with queue := rest }
      ⟨q'.resetIfFinished.1, q'.resetIfFinished.2, .ret (.value res)⟩

/-- The condition of the wait loop of `Get`. -/
def getMustWait (q : ThreadSafeBatchQueue T) (producerId valueId : Int) : Bool :=
  (!(q.dataArray (q.targetIndex producerId valueId)).isSet ||
    valueId.tdiv q.batchSize != int32 q.currentBatch) &&
  q.producerActiveArray (q.partitionIdToNumber producerId)

/-- `Get` from its wait loop on. -/
def getLoop (producerId valueId : Int) (q : ThreadSafeBatchQueue T) :
    Segment (ThreadSafeBatchQueue T) CondVar (Result T) :=
  let valueIndex := q.targetIndex producerId valueId
  if q.getMustWait producerId valueId then
    ⟨q, [], .wait (.dataNotReadyCV (q.partitionIdToNumber producerId))⟩
  else if !(q.dataArray valueIndex).isSet then
    ⟨q, [], .ret (.outOfRange "Asking for non-existsent chunk")⟩
  else
    match (q.readValue valueIndex).1, q.queue with
    | some res, _ :: rest =>
      let q' := { (q.readValue valueIndex).2 with queue := rest }
      ⟨q'.resetIfFinished.1, q'.resetIfFinished.2, .ret (.value res)⟩
    | none, _ => ⟨q, [], .ret (.abort "uninitialised valuePtr")⟩
    | some _, [] => ⟨q, [], .ret (.abort "pop of an empty std::queue")⟩

def get (producerId valueId : Int) (q : ThreadSafeBatchQueue T) :
    Segment (ThreadSafeBatchQueue T) CondVar (Result T) :=
  if q.itemsToRead = 0 ∧ q.activeProducers = 0 then
    ⟨q, [], .ret (.outOfRange "Queue is empty")⟩
  else
    getLoop producerId valueId q

/-- The data of `DeleteProducer` before the batch is checked. -/
def deactivate (producerId : Int) (q : ThreadSafeBatchQueue T) : ThreadSafeBatchQueue T :=
  { q with
    producerActiveArray :=
      Function.update q.producerActiveArray (q.partitionIdToNumber producerId) false
    activeProducers := q.activeProducers - 1 }

def deleteProducer (producerId : Int) (q : ThreadSafeBatchQueue T) :
    Segment (ThreadSafeBatchQueue T) CondVar (Result T) :=
  let q' := q.deactivate producerId
  ⟨q'.resetIfFinished.1,
    q'.resetIfFinished.2 ++ (if q'.activeProducers = 0 then [.all .emptyCV] else []),
    .ret .unit⟩

/-- The monitor of the class. -/
def monitor : Monitor (ThreadSafeBatchQueue T) CondVar (Call T) (Result T) where
  enter
    | .push val => push val
    | .pop => pop
    | .get p v => get p v
    | .deleteProducer p => deleteProducer p
  resume
    | .push val => push val
    | .pop => pop
    | .get p v => getLoop p v
    | .deleteProducer p => deleteProducer p

section Segment

variable {s : Status CondVar} {q : ThreadSafeBatchQueue T}
  {seg : Segment (ThreadSafeBatchQueue T) CondVar (Result T)}

/-! All calls but `Get` run the same code after a wake-up. -/

theorem segment_push {v : T} (h : monitor.segment s (.push v) q = some seg) : seg = push v q := by
  rcases Monitor.segment_eq_some h with e | e <;> exact e

theorem segment_pop (h : monitor.segment s .pop q = some seg) : seg = pop q := by
  rcases Monitor.segment_eq_some h with e | e <;> exact e

theorem segment_deleteProducer {p : Int} (h : monitor.segment s (.deleteProducer p) q = some seg) :
    seg = deleteProducer p q := by
  rcases Monitor.segment_eq_some h with e | e <;> exact e

end Segment

end ThreadSafeBatchQueue

end SasLibclient
