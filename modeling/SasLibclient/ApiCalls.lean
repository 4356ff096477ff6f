import SasLibclient.CreateChunkQueue
import SasLibclient.RowRequests

/-!
# The calls of the API (`parallel_read.cpp`, `queue/multi_pass_queue.cpp`)

`GetNextChunk` and `GetChunkMulti` take a chunk from the queue of a consumer,
`GetChunkRow` and `GetChunkMultipleRows` query the partition over a connection
that belongs to the calling thread. All of them copy the header of the chunk
into the one of the caller. The threads are the readers of the chunk queue and
callers with lists of requests.
-/

namespace SasLibclient

open Monitors QueueItem Bytes Loops

/-- A chunk queue with what its calls read of it. -/
structure ApiQueue extends ChunkQueue where
  rowSchema : RowSchema
  resultTable : String
  partitionConsumer : List Int
  /-- `m_consumer_threads_num` -/
  consumerThreadsNum : Int
  /-- the length of `m_consumers` -/
  consumers : Nat
  fresh : ∀ q ∈ queues, ∃ ids, q = ConsumerQueue.create kind capacity ids
  readers_rowSchema : ∀ p, (reader p).rowSchema = some rowSchema

theorem createConsumerQueues_fresh {Q : Type} {newQueue : List Int → Q} {nConsumers : Int}
    {partitions ids v v' : List Int} {queues queues' : List Q}
    (h : createConsumerQueues newQueue nConsumers partitions ids (queues, v) = .ok (queues', v'))
    (hfresh : ∀ q ∈ queues, ∃ ps, q = newQueue ps) : ∀ q ∈ queues', ∃ ps, q = newQueue ps := by
  induction ids generalizing queues v with
  | nil =>
    obtain ⟨rfl, _⟩ := Prod.mk.inj (Except.ok.inj h)
    exact hfresh
  | cons consumerId ids ih =>
    rw [createConsumerQueues] at h
    cases hps : consumerPartitions nConsumers consumerId partitions with
    | error e =>
      rw [hps] at h
      cases h
    | ok ps =>
      rw [hps] at h
      apply ih h
      intro q hq
      rcases List.mem_append.mp hq with hold | hnew
      · exact hfresh q hold
      · exact ⟨ps, List.mem_singleton.mp hnew⟩

theorem createQueues_cases {kind : QueueKind} {client : S2Client} {capacity : Nat}
    {nConsumers : Int} {queues : List (ConsumerQueue ReadChunk)} {v : List Int}
    (h : createQueues kind client capacity nConsumers = .ok (queues, v)) :
    ∃ (Q : Type) (newQueue : List Int → Q) (wrap : Q → ConsumerQueue ReadChunk)
      (created : List Q) (partitions : List Int), queues = created.map wrap ∧
      (∀ ids, wrap (newQueue ids) = ConsumerQueue.create kind capacity ids) ∧
      createConsumerQueues newQueue nConsumers partitions (strided 0 1 nConsumers)
        ([], List.replicate client.numPartitions (-1)) = .ok (created, v) := by
  unfold createQueues at h
  split at h
  · cases hrun : MultiPassQueue.createQueues ReadChunk client capacity nConsumers with
    | error e =>
      rw [hrun] at h
      cases h
    | ok result =>
      rw [hrun] at h
      obtain ⟨rfl, rfl⟩ := Prod.mk.inj (Except.ok.inj h)
      unfold MultiPassQueue.createQueues at hrun
      cases hpart : workerPartitions client.numWorkers client.workerId client.numPartitions with
      | error e =>
        rw [hpart] at hrun
        cases hrun
      | ok partitions =>
        rw [hpart] at hrun
        exact ⟨_, _, .batch, _, partitions, rfl, fun _ => rfl, hrun⟩
  · cases hrun : StreamingQueue.createQueues ReadChunk client capacity nConsumers true with
    | error e =>
      rw [hrun] at h
      cases h
    | ok result =>
      rw [hrun] at h
      obtain ⟨rfl, rfl⟩ := Prod.mk.inj (Except.ok.inj h)
      unfold StreamingQueue.createQueues at hrun
      cases hpart : workerPartitions client.numWorkers client.workerId client.numPartitions with
      | error e =>
        rw [if_pos rfl, hpart] at hrun
        cases hrun
      | ok partitions =>
        rw [if_pos rfl, hpart] at hrun
        exact ⟨_, _, .simple, _, partitions, rfl, fun _ => rfl, hrun⟩

theorem createQueues_fresh {kind : QueueKind} {client : S2Client} {capacity : Nat}
    {nConsumers : Int} {queues : List (ConsumerQueue ReadChunk)} {v : List Int}
    (h : createQueues kind client capacity nConsumers = .ok (queues, v)) :
    ∀ q ∈ queues, ∃ ids, q = ConsumerQueue.create kind capacity ids := by
  obtain ⟨Q, newQueue, wrap, created, partitions, rfl, hwrap, hrun⟩ := createQueues_cases h
  intro q hq
  obtain ⟨q', hq', rfl⟩ := List.mem_map.mp hq
  obtain ⟨ids, rfl⟩ := createConsumerQueues_fresh hrun (by simp) q' hq'
  exact ⟨ids, hwrap ids⟩

/-- There is a queue for each consumer and an entry for each partition. -/
theorem createQueues_length {kind : QueueKind} {client : S2Client} {capacity : Nat}
    {nConsumers : Int} {queues : List (ConsumerQueue ReadChunk)} {v : List Int}
    (h : createQueues kind client capacity nConsumers = .ok (queues, v)) :
    queues.length = (strided 0 1 nConsumers).length ∧ v.length = client.numPartitions := by
  obtain ⟨Q, newQueue, wrap, created, partitions, rfl, -, hrun⟩ := createQueues_cases h
  obtain ⟨hcreated, hv⟩ := createConsumerQueues_length hrun
  rw [List.length_map, hcreated, hv, List.length_replicate]
  exact ⟨Nat.zero_add _, rfl⟩

/-- The capacity as the queues of the kind take it: an `uint32_t`, which the
batch queue makes an `int` again. A negative `m_batchSize` gives no slots, like
0. -/
def capacityOf (kind : QueueKind) (queueCapacity : Int) : Nat :=
  match kind with
  | .multiPass => queueCapacity.toNat
  | .streaming => (queueCapacity % 2 ^ 32).toNat

/-- The chunk queue that `CreateChunkQueue` makes. Without readers the
multi-pass mode returns early; then `m_consumer_threads_num` has no value yet. -/
def ApiQueue.make (kind : QueueKind) (client : S2Client) (resultTableName : String)
    (queueCapacity : Int) (chunkSize : UInt64) (nConsumers : Int) (rowSchema : RowSchema)
    (response : Int → Response) (malloc : Int → Nat → Option Mem) (uninitialized : Int)
    (partitions : List Int) (queues : List (ConsumerQueue ReadChunk)) (partitionConsumer : List Int)
    (hqueues : createQueues kind client (capacityOf kind queueCapacity) nConsumers =
      .ok (queues, partitionConsumer)) : ApiQueue where
  kind := kind
  capacity := capacityOf kind queueCapacity
  queues := queues
  partitions := partitions
  queueOf := fun p => (partitionConsumer.getD p.toNat (-1)).toNat
  reader := fun p => ResultTableReader.createReader (response p) (some rowSchema) (UInt32.ofInt p)
    chunkSize (malloc p)
  rowSchema := rowSchema
  resultTable := resultTableName
  partitionConsumer := partitionConsumer
  consumerThreadsNum := if partitions.isEmpty then uninitialized else nConsumers
  consumers := if partitions.isEmpty then 0 else nConsumers.toNat
  fresh := createQueues_fresh hqueues
  readers_rowSchema := fun _ => rfl

/-- `CreateChunkQueue` of both modes, as long as the client library does not
fail. -/
def ApiQueue.createChunkQueue (kind : QueueKind) (client : S2Client) (resultTableName : String)
    (queueCapacity : Int) (chunkSize : UInt64) (nConsumers : Int) (rowSchema : RowSchema)
    (response : Int → Response) (malloc : Int → Nat → Option Mem) (uninitialized : Int) :
    Except S2ClientError ApiQueue :=
  match workerPartitions client.numWorkers client.workerId client.numPartitions with
  | .error e => .error e
  | .ok partitions =>
    match hqueues : createQueues kind client (capacityOf kind queueCapacity) nConsumers with
    | .error e => .error e
    | .ok (queues, partitionConsumer) =>
      .ok (ApiQueue.make kind client resultTableName queueCapacity chunkSize nConsumers rowSchema
        response malloc uninitialized partitions queues partitionConsumer hqueues)

/-- `ParallelReadGetQueue` -/
def parallelReadGetQueue (client : S2Client) (resultTableName : String) (chunkSize : UInt64)
    (queueCapacity nReaderThreads : Int) (isMultiPass : Bool) (rowSchema : RowSchema)
    (response : Int → Response) (malloc : Int → Nat → Option Mem) (uninitialized : Int) :
    Except S2ClientError ApiQueue :=
  if isMultiPass then
    ApiQueue.createChunkQueue .multiPass client resultTableName queueCapacity chunkSize
      nReaderThreads rowSchema response malloc uninitialized
  else
    ApiQueue.createChunkQueue .streaming client resultTableName queueCapacity chunkSize
      nReaderThreads rowSchema response malloc uninitialized

theorem createChunkQueue_eq {kind : QueueKind} {client : S2Client} {name : String}
    {queueCapacity : Int} {chunkSize : UInt64} {n : Int} {rowSchema : RowSchema}
    {response : Int → Response} {malloc : Int → Nat → Option Mem} {uninitialized : Int}
    {partitions v : List Int} {queues : List (ConsumerQueue ReadChunk)}
    (hpart : workerPartitions client.numWorkers client.workerId client.numPartitions =
      .ok partitions)
    (hqueues : createQueues kind client (capacityOf kind queueCapacity) n = .ok (queues, v)) :
    ApiQueue.createChunkQueue kind client name queueCapacity chunkSize n rowSchema response malloc
      uninitialized = .ok (ApiQueue.make kind client name queueCapacity chunkSize n rowSchema
        response malloc uninitialized partitions queues v hqueues) := by
  unfold ApiQueue.createChunkQueue
  split
  · rename_i h
    rw [hpart] at h
    cases h
  · rename_i h
    rw [hpart] at h
    obtain rfl := Except.ok.inj h
    split
    · rename_i h
      rw [hqueues] at h
      cases h
    · rename_i h
      rw [hqueues] at h
      obtain ⟨rfl, rfl⟩ := Prod.mk.inj (Except.ok.inj h)
      rfl

theorem make_of_createChunkQueue {kind : QueueKind} {client : S2Client} {name : String}
    {queueCapacity : Int} {chunkSize : UInt64} {n : Int} {rowSchema : RowSchema}
    {response : Int → Response} {malloc : Int → Nat → Option Mem} {uninitialized : Int}
    {Q : ApiQueue} (h : ApiQueue.createChunkQueue kind client name queueCapacity chunkSize n
      rowSchema response malloc uninitialized = .ok Q) :
    ∃ partitions queues v,
      workerPartitions client.numWorkers client.workerId client.numPartitions = .ok partitions ∧
      ∃ hqueues : createQueues kind client (capacityOf kind queueCapacity) n = .ok (queues, v),
        Q = ApiQueue.make kind client name queueCapacity chunkSize n rowSchema response malloc
          uninitialized partitions queues v hqueues := by
  cases hpart : workerPartitions client.numWorkers client.workerId client.numPartitions with
  | error e =>
    unfold ApiQueue.createChunkQueue at h
    rw [hpart] at h
    cases h
  | ok partitions =>
    unfold ApiQueue.createChunkQueue at h
    rw [hpart] at h
    dsimp only at h
    split at h
    · cases h
    · rename_i queues v hqueues
      exact ⟨partitions, queues, v, rfl, hqueues, (Except.ok.inj h).symm⟩

/-! ## Requests for rows -/

/-- What a request for rows depends on. -/
structure RowWorld where
  /-- what `ConnectWithRetryMA` stores; it has a code when there is no
  connection -/
  connectError : S2ClientError
  /-- the answer to the query of the request -/
  response : Response
  malloc : UInt64 → Option Mem

/-- `GetSingleRow` and `GetMultipleRows` of the queue. -/
inductive RowCall where
  | getSingleRow (partitionId : UInt32) (rowId : Int) (threadId : Nat) (world : RowWorld)
  | getMultipleRows (chunkSize : UInt64) (partitionId : UInt32) (rowIdsNum : Int) (threadId : Nat)
      (world : RowWorld)

def RowCall.threadId : RowCall → Nat
  | .getSingleRow _ _ threadId _ => threadId
  | .getMultipleRows _ _ _ threadId _ => threadId

def RowCall.world : RowCall → RowWorld
  | .getSingleRow _ _ _ world => world
  | .getMultipleRows _ _ _ _ world => world

/-- How a request for rows ends without an answer: with an exception that leaves
the queue, or with an index that `m_consumers` does not have. -/
inductive RowFailure where
  | exception (e : ReadException)
  | outOfRange

abbrev Conns := Nat → Option S2Connection

/-- The connection of the thread, made by its first request. -/
def connectConsumer (threadId : Nat) (world : RowWorld) (conns : Conns) :
    Except S2ClientError S2Connection :=
  match conns threadId with
  | some conn => .ok { conn with response := world.response }
  | none =>
    if world.connectError.errorCode ≠ 0 then
      .error world.connectError
    else
      .ok (S2Connection.connect world.response)

namespace ApiQueue

/-- What the two functions have in common: the check of `threadId`,
`m_consumers[threadId]`, the connection and the handler. `Prepare` begins with
`CleanupStatement`, so that it does not matter what an exception leaves of the
connection. -/
def withConsumer (Q : ApiQueue) (threadId : Nat) (world : RowWorld) (conns : Conns)
    (body : S2Connection → Except ReadException (Chunk × S2Connection)) :
    Except RowFailure (Option Chunk × S2ClientError) × Conns :=
  if (threadId : Int) ≥ Q.consumerThreadsNum then
    (.ok (none, ⟨s2cErrorInvArg, "threadId " ++ toString threadId ++ " is too large"⟩), conns)
  else if threadId ≥ Q.consumers then
    (.error .outOfRange, conns)
  else
    match connectConsumer threadId world conns with
    | .error e => (.ok (none, e), conns)
    | .ok conn =>
      match body conn with
      | .ok (chunk, conn) => (.ok (some chunk, .none), Function.update conns threadId (some conn))
      | .error (.s2 e) => (.ok (none, e), Function.update conns threadId (some conn))
      | .error e => (.error (.exception e), Function.update conns threadId (some conn))

def getSingleRow (Q : ApiQueue) (partitionId : UInt32) (rowId : Int) (threadId : Nat)
    (world : RowWorld) (conns : Conns) :
    Except RowFailure (Option Chunk × S2ClientError) × Conns :=
  Q.withConsumer threadId world conns fun conn =>
    conn.getSingleRow Q.rowSchema Q.resultTable partitionId rowId world.malloc

def getMultipleRows (Q : ApiQueue) (chunkSize : UInt64) (partitionId : UInt32) (rowIdsNum : Int)
    (threadId : Nat) (world : RowWorld) (conns : Conns) :
    Except RowFailure (Option Chunk × S2ClientError) × Conns :=
  Q.withConsumer threadId world conns fun conn =>
    match world.malloc chunkSize with
    | none =>
      .error (.s2 ⟨s2cErrorMemoryAllocation,
        "GetMultipleRows cannot allocate chunk size: " ++ toString chunkSize⟩)
    | some ptr =>
      match conn.getMultipleRows (newChunk ptr chunkSize 0 partitionId) Q.rowSchema Q.resultTable
        rowIdsNum with
      | .ok (_, chunk, conn) => .ok (chunk, conn)
      | .error e => .error e

def serveRows (Q : ApiQueue) : RowCall → Conns →
    Except RowFailure (Option Chunk × S2ClientError) × Conns
  | .getSingleRow partitionId rowId threadId world, conns =>
    Q.getSingleRow partitionId rowId threadId world conns
  | .getMultipleRows chunkSize partitionId rowIdsNum threadId world, conns =>
    Q.getMultipleRows chunkSize partitionId rowIdsNum threadId world conns

end ApiQueue

/-! ## What the caller gets -/

/-- `utils::MoveChunk`; `variable_offset` is not copied. `delete in` has no
counterpart: a chunk that `Get` leaves in `m_queue` stays a value, while the
code would pop a pointer to a deleted one. -/
def moveChunk (out inn : Chunk) : Chunk :=
  { out with
    ptr := inn.ptr
    size := inn.size
    rowCount := inn.rowCount
    id := inn.id
    partitionId := inn.partitionId
    consumedSize := inn.consumedSize }

/-- The value returned, the caller's chunk after the call, the error that the
callback gets, and what is stored in `*partitionId`. -/
structure Received where
  returned : Bool
  chunk : Chunk
  callback : Option S2ClientError
  partitionId : Option UInt32

/-- The end of all four functions, after the call of the queue. -/
def receiveChunk (res : Option Chunk) (err : S2ClientError) (chunk : Chunk) : Received where
  returned := res.isSome
  chunk := (res.map (moveChunk chunk)).getD chunk
  callback := if err.errorCode ≠ 0 then some err else none
  partitionId := none

def getNextChunk (res : Option Chunk) (err : S2ClientError) (chunk : Chunk) : Received :=
  { receiveChunk res err chunk with partitionId := res.map Chunk.partitionId }

def getChunkMulti (res : Option Chunk) (err : S2ClientError) (chunk : Chunk) : Received :=
  receiveChunk res err chunk

def getChunkRow (res : Option Chunk) (err : S2ClientError) (chunk : Chunk) : Received :=
  receiveChunk res err chunk

def getChunkMultipleRows (res : Option Chunk) (err : S2ClientError) (chunk : Chunk) : Received :=
  receiveChunk res err chunk

/-! ## The threads -/

/-- A call of the API, with its arguments. -/
inductive ApiRequest where
  | getNextChunk (consumerId : Nat)
  | getChunkMulti (partitionId chunkId : UInt32)
  | getChunkRow (partitionId : UInt32) (rowId : Int) (threadId : Nat) (world : RowWorld)
  | getChunkMultipleRows (partitionId : UInt32) (rowIdsNum : Int) (threadId : Nat)
      (chunkSize : UInt64) (world : RowWorld)

def ApiRequest.receive : ApiRequest → Option Chunk → S2ClientError → Chunk → Received
  | .getNextChunk _ => SasLibclient.getNextChunk
  | .getChunkMulti _ _ => SasLibclient.getChunkMulti
  | .getChunkRow _ _ _ _ => SasLibclient.getChunkRow
  | .getChunkMultipleRows _ _ _ _ _ => SasLibclient.getChunkMultipleRows

structure ApiState where
  shared : SharedState ReadChunk
  conns : Conns

/-- A request for rows is one call: nothing else uses the connection. -/
inductive ApiCall where
  | shared (call : SharedCall ReadChunk)
  | rows (call : RowCall)

inductive ApiResult where
  | shared (r : SharedResult ReadChunk)
  | rows (r : Except RowFailure (Option Chunk × S2ClientError))

abbrev ApiSegment := Segment ApiState (Nat × CondVar) ApiResult

def tagApiExit : Exit (Nat × CondVar) (SharedResult ReadChunk) → Exit (Nat × CondVar) ApiResult
  | .wait cv => .wait cv
  | .ret r => .ret (.shared r)

def onShared (d : ApiState) (seg : SharedSegment ReadChunk) : ApiSegment where
  data := { d with shared := seg.data }
  signals := seg.signals
  exit := tagApiExit seg.exit

def onRows (Q : ApiQueue) (call : RowCall) (d : ApiState) : ApiSegment where
  data := { d with conns := (Q.serveRows call d.conns).2 }
  signals := []
  exit := .ret (.rows (Q.serveRows call d.conns).1)

def apiMonitor (Q : ApiQueue) : Monitor ApiState (Nat × CondVar) ApiCall ApiResult where
  enter
    | .shared call, d => onShared d (sharedMonitor.enter call d.shared)
    | .rows call, d => onRows Q call d
  resume
    | .shared call, d => onShared d (sharedMonitor.resume call d.shared)
    | .rows call, d => onRows Q call d

/-- A request with the caller's chunk, and what came of it. -/
structure ApiAnswer where
  request : ApiRequest
  chunk : Chunk
  res : Option Chunk
  err : S2ClientError

def ApiAnswer.received (a : ApiAnswer) : Received := a.request.receive a.res a.err a.chunk

/-- A reader with the calls that it still makes, or a caller with its requests,
the answers to the earlier ones, and the place in the current one. An exception
that leaves the API ends the thread. -/
inductive ApiThread where
  | reader (p : Int) (todo : List (ReaderAction ReadChunk))
  | caller (requests : List (ApiRequest × Chunk)) (answers : List ApiAnswer) (state : GetState)

namespace ApiQueue

/-- The call of the queue that a request makes. -/
def requestCall (Q : ApiQueue) : ApiRequest → ApiCall
  | .getNextChunk consumerId => .shared (.queue consumerId .pop)
  | .getChunkMulti partitionId chunkId =>
    match Q.kind with
    | .multiPass => .shared (.queue (Q.queueOf (toInt32 partitionId))
        (.get (toInt32 partitionId) (toInt32 chunkId)))
    | .streaming => .shared (.setError
        ⟨s2cErrorInvArg, "Cannot use streaming queue in multi-pass mode"⟩)
  | .getChunkRow partitionId rowId threadId world =>
    match Q.kind with
    | .multiPass => .rows (.getSingleRow partitionId rowId threadId world)
    | .streaming => .shared (.setError
        ⟨s2cErrorInvArg, "Cannot use streaming queue in random read mode"⟩)
  | .getChunkMultipleRows partitionId rowIdsNum threadId chunkSize world =>
    match Q.kind with
    | .multiPass => .rows (.getMultipleRows chunkSize partitionId rowIdsNum threadId world)
    | .streaming => .shared (.setError
        ⟨s2cErrorInvArg, "Cannot use streaming queue in random read mode"⟩)

def answer (requests : List (ApiRequest × Chunk)) (answers : List ApiAnswer) (res : Option Chunk)
    (err : S2ClientError) : ApiThread :=
  match requests with
  | [] => .caller [] answers .popping
  | (request, chunk) :: requests =>
    .caller requests (answers ++ [⟨request, chunk, res, err⟩]) .popping

/-- `Get` and `GetById` after their loop over the readers. -/
def afterErrors (requests : List (ApiRequest × Chunk)) (answers : List ApiAnswer) :
    List Int → S2ClientError → ApiThread
  | p :: ps, err => .caller requests answers (.collecting (p :: ps) err)
  | [], err =>
    if err.errorCode ≠ 0 then
      .caller requests answers (.reporting (finalError err))
    else
      answer requests answers none err

def afterCall (Q : ApiQueue) (requests : List (ApiRequest × Chunk)) (answers : List ApiAnswer) :
    ApiResult → ApiThread
  | .shared (.queue (.value v)) => answer requests answers (some v.chunk) .none
  | .shared (.queue (.outOfRange _)) => afterErrors requests answers Q.partitions .none
  | .shared .unit => answer requests answers none .none
  | .rows (.ok (res, err)) => answer requests answers res err
  | .rows (.error _) => .caller [] answers .popping
  | _ => .caller requests answers .popping

def threads (Q : ApiQueue) : Program ApiThread ApiCall ApiResult where
  call
    | .reader _ [] => none
    | .reader p (.push v :: _) => some (.shared (.queue (Q.queueOf p) (.push v)))
    | .reader p (.setError e :: _) => some (.shared (.setReaderError p e))
    | .reader p (.deleteProducer :: _) => some (.shared (.queue (Q.queueOf p) (.deleteProducer p)))
    | .caller [] _ _ => none
    | .caller ((request, _) :: _) _ .popping => some (Q.requestCall request)
    | .caller _ _ (.collecting [] _) => none
    | .caller _ _ (.collecting (p :: _) _) => some (.shared (.getReaderError p))
    | .caller _ _ (.reporting err) => some (.shared (.setError err))
  after
    | .reader p todo, _ => .reader p todo.tail
    | .caller requests answers .popping, r => Q.afterCall requests answers r
    | .caller requests answers (.collecting readers err), .shared (.error curError) =>
      afterErrors requests answers readers.tail (collectError err curError)
    | .caller requests answers (.collecting readers err), _ =>
      .caller requests answers (.collecting readers err)
    | .caller requests answers (.reporting err), _ => answer requests answers none err

/-- The state after `StartReading`; a queue is used only when it exists. -/
def start {ς : Type} (Q : ApiQueue) (requests : ς → List (ApiRequest × Chunk)) :
    Config ApiState (Nat × CondVar) ApiCall ApiResult ApiThread (Int ⊕ ς) where
  data :=
    { shared :=
        { queues := fun i => Q.queues.getD i (ConsumerQueue.create Q.kind Q.capacity [])
          readerError := fun p => (Q.reader p).error
          error := .none }
      conns := fun _ => none }
  thread
    | .inl p => .reader p (if p ∈ Q.partitions then (Q.reader p).read else [])
    | .inr s => .caller (requests s) [] .popping
  status := fun _ => .ready
  history := []

end ApiQueue

/-- The calls of a thread, by its local state. -/
inductive ApiCallOf (Q : ApiQueue) : ApiThread → ApiCall → Prop
  | push (p : Int) (v : ReadChunk) (todo : List (ReaderAction ReadChunk)) :
      ApiCallOf Q (.reader p (.push v :: todo)) (.shared (.queue (Q.queueOf p) (.push v)))
  | setError (p : Int) (e : S2ClientError) (todo : List (ReaderAction ReadChunk)) :
      ApiCallOf Q (.reader p (.setError e :: todo)) (.shared (.setReaderError p e))
  | deleteProducer (p : Int) (todo : List (ReaderAction ReadChunk)) :
      ApiCallOf Q (.reader p (.deleteProducer :: todo))
        (.shared (.queue (Q.queueOf p) (.deleteProducer p)))
  | request (request : ApiRequest) (chunk : Chunk) (requests : List (ApiRequest × Chunk))
      (answers : List ApiAnswer) :
      ApiCallOf Q (.caller ((request, chunk) :: requests) answers .popping) (Q.requestCall request)
  | collect (requests : List (ApiRequest × Chunk)) (answers : List ApiAnswer) (p : Int)
      (readers : List Int) (err : S2ClientError) :
      ApiCallOf Q (.caller requests answers (.collecting (p :: readers) err))
        (.shared (.getReaderError p))
  | report (requests : List (ApiRequest × Chunk)) (answers : List ApiAnswer)
      (err : S2ClientError) :
      ApiCallOf Q (.caller requests answers (.reporting err)) (.shared (.setError err))

theorem ApiQueue.call_cases {Q : ApiQueue} {l : ApiThread} {call : ApiCall}
    (h : Q.threads.call l = some call) : ApiCallOf Q l call := by
  cases l with
  | reader p todo =>
    cases todo with
    | nil => cases h
    | cons action todo =>
      cases action with
      | push v =>
        obtain rfl := Option.some.inj h
        exact .push p v todo
      | setError e =>
        obtain rfl := Option.some.inj h
        exact .setError p e todo
      | deleteProducer =>
        obtain rfl := Option.some.inj h
        exact .deleteProducer p todo
  | caller requests answers state =>
    cases requests with
    | nil => cases h
    | cons r requests =>
      cases state with
      | popping =>
        obtain rfl := Option.some.inj h
        exact .request r.1 r.2 requests answers
      | collecting readers err =>
        cases readers with
        | nil => cases h
        | cons p readers =>
          obtain rfl := Option.some.inj h
          exact .collect _ answers p readers err
      | reporting err =>
        obtain rfl := Option.some.inj h
        exact .report _ answers err

theorem ApiQueue.requestCall_cases (Q : ApiQueue) (request : ApiRequest) :
    (∃ i, Q.requestCall request = .shared (.queue i .pop)) ∨
    (∃ i p v, Q.requestCall request = .shared (.queue i (.get p v))) ∨
    (∃ e, Q.requestCall request = .shared (.setError e)) ∨
    ∃ call, Q.requestCall request = .rows call := by
  unfold ApiQueue.requestCall
  cases request with
  | getNextChunk consumerId => exact Or.inl ⟨consumerId, rfl⟩
  | getChunkMulti partitionId chunkId =>
    cases Q.kind with
    | multiPass => exact Or.inr (Or.inl ⟨_, _, _, rfl⟩)
    | streaming => exact Or.inr (Or.inr (Or.inl ⟨_, rfl⟩))
  | getChunkRow partitionId rowId threadId world =>
    cases Q.kind with
    | multiPass => exact Or.inr (Or.inr (Or.inr ⟨_, rfl⟩))
    | streaming => exact Or.inr (Or.inr (Or.inl ⟨_, rfl⟩))
  | getChunkMultipleRows partitionId rowIdsNum threadId chunkSize world =>
    cases Q.kind with
    | multiPass => exact Or.inr (Or.inr (Or.inr ⟨_, rfl⟩))
    | streaming => exact Or.inr (Or.inr (Or.inl ⟨_, rfl⟩))

theorem apiMonitor_segment {Q : ApiQueue} {s : Status (Nat × CondVar)} {call : ApiCall}
    {d : ApiState} {seg : ApiSegment} (h : (apiMonitor Q).segment s call d = some seg) :
    (∃ shared seg', call = .shared shared ∧ sharedMonitor.segment s shared d.shared = some seg' ∧
      seg = onShared d seg') ∨
    ∃ rows, call = .rows rows ∧ seg = onRows Q rows d := by
  cases call with
  | shared shared =>
    left
    cases s with
    | ready => exact ⟨shared, _, rfl, rfl, (Option.some.inj h).symm⟩
    | woken => exact ⟨shared, _, rfl, rfl, (Option.some.inj h).symm⟩
    | asleep cv => cases h
  | rows rows =>
    right
    cases s with
    | ready => exact ⟨rows, rfl, (Option.some.inj h).symm⟩
    | woken => exact ⟨rows, rfl, (Option.some.inj h).symm⟩
    | asleep cv => cases h

end SasLibclient
