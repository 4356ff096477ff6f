import SasLibclient.ParallelRead
import SasLibclient.ReceivedChunks
import SasLibclient.RowExceptions
import SasLibclient.Queue.BatchAccesses

/-!
# What the calls of the API index and divide by

`CreateChunkQueue`, `Get`, `GetById`, `GetSingleRow` and `GetMultipleRows` of the
multi-pass mode index `m_consumer_queues`, `m_partition_consumer` and
`m_consumers` without a check, and so do the methods of the queues. `StepOk` is a
condition on the state before a step. `AccessRuns` is about the runs whose steps
all meet it.
-/

namespace SasLibclient

open Monitors QueueItem Bytes Loops ThreadSafeBatchQueue

abbrev ApiConfig (ς : Type) := Config ApiState (Nat × CondVar) ApiCall ApiResult ApiThread (Int ⊕ ς)

/-! ## The accesses -/

/-- A method of the queue, from its entry or from its wait. The simple queue
has no vectors. -/
def ConsumerQueue.accesses (batchSize : Int) (fromEntry : Bool) (call : Call ReadChunk) :
    ConsumerQueue ReadChunk → List VectorAccess
  | .batch q =>
    match call with
    | .push val => q.pushAccesses batchSize val
    | .pop => q.popAccesses batchSize
    | .get producerId valueId =>
      if fromEntry then
        q.getAccesses batchSize producerId valueId
      else
        q.getLoopAccesses batchSize producerId valueId
    | .deleteProducer producerId => q.deleteProducerAccesses producerId
  | .simple _ => []

namespace ApiQueue

/-- `m_consumer_queues[m_partition_consumer[partitionId]]` -/
def partitionAccesses (Q : ApiQueue) (partitionId : Int) : List VectorAccess :=
  [.index .partitionConsumer partitionId Q.partitionConsumer.length,
    .index .consumerQueues (Q.partitionConsumer.getD partitionId.toNat (-1)) Q.queues.length]

/-- `CreateChunkQueue`, for every partition of the worker. -/
def createAccesses (Q : ApiQueue) : List VectorAccess := Q.partitions.flatMap Q.partitionAccesses

/-- `m_consumers[threadId]`, behind the check of `threadId`. -/
def consumerAccesses (Q : ApiQueue) (threadId : Nat) : List VectorAccess :=
  if (threadId : Int) ≥ Q.consumerThreadsNum then [] else [.index .consumers threadId Q.consumers]

/-- A request in the multi-pass mode, before the method of the queue. -/
def requestAccesses (Q : ApiQueue) : ApiRequest → List VectorAccess
  | .getNextChunk consumerId => [.index .consumerQueues consumerId Q.queues.length]
  | .getChunkMulti partitionId _ => Q.partitionAccesses (toInt32 partitionId)
  | .getChunkRow _ _ threadId _ => Q.consumerAccesses threadId
  | .getChunkMultipleRows _ _ threadId _ _ => Q.consumerAccesses threadId

def entryAccesses (Q : ApiQueue) : ApiThread → List VectorAccess
  | .caller ((request, _) :: _) _ .popping => Q.requestAccesses request
  | _ => []

def callAccesses (batchSize : Int) (fromEntry : Bool) (d : ApiState) : Option ApiCall → List VectorAccess
  | some (.shared (.queue i call)) => (d.shared.queues i).accesses batchSize fromEntry call
  | _ => []

def stepAccesses {ς : Type} (Q : ApiQueue) (batchSize : Int) (c : ApiConfig ς) (t : Int ⊕ ς) :
    List VectorAccess :=
  match c.status t with
  | .ready =>
    Q.entryAccesses (c.thread t) ++
      callAccesses batchSize true c.data (Q.threads.call (c.thread t))
  | .woken => callAccesses batchSize false c.data (Q.threads.call (c.thread t))
  | .asleep _ => []

end ApiQueue

/-! ## The condition on a step -/

def ConsumerQueue.CallOk (fromEntry : Bool) (call : Call ReadChunk) :
    ConsumerQueue ReadChunk → Prop
  | .batch q =>
    match call with
    | .push val => q.PushOk val
    | .pop => q.PopOk
    | .get producerId valueId =>
      (fromEntry = true ∧ q.itemsToRead = 0 ∧ q.activeProducers = 0) ∨
        q.GetLoopOk producerId valueId
    | .deleteProducer _ => True
  | .simple _ => True

def RowCall.NoMemory : RowCall → Prop
  | .getSingleRow _ _ _ _ => False
  | .getMultipleRows chunkSize _ _ _ world => world.malloc chunkSize = none

def RowCall.EndsEarly (consumerThreadsNum : Int) (conns : Conns) (call : RowCall) : Prop :=
  consumerThreadsNum ≤ call.threadId ∨
    (conns call.threadId = none ∧ call.world.connectError.errorCode ≠ 0) ∨
    call.NoMemory ∨ ¬ call.world.response.Starts

/-- What the request throws is caught, from its first fetch on. -/
def RowCall.Fits (schema : RowSchema) : RowCall → Prop
  | .getSingleRow _ _ _ world => FirstCaught (world.response.fetches true)
  | .getMultipleRows chunkSize partitionId _ _ world =>
    ∀ ptr, world.malloc chunkSize = some ptr →
      S2Connection.ManyCaught schema ptr chunkSize partitionId world.response

namespace ApiQueue

/-- The condition on a call: the partition of a `Get` is one of the worker, and
without partitions no thread number passes the check of a request for rows. -/
def CallOk (Q : ApiQueue) (fromEntry : Bool) (d : ApiState) : ApiCall → Prop
  | .shared (.queue i call) =>
    (d.shared.queues i).CallOk fromEntry call ∧ ∀ p v, call = .get p v → p ∈ Q.partitions
  | .shared _ => True
  | .rows call =>
    (Q.partitions = [] → Q.consumerThreadsNum ≤ call.threadId) ∧
      (¬ call.EndsEarly Q.consumerThreadsNum d.conns → call.Fits Q.rowSchema)

def StepOk {ς : Type} (Q : ApiQueue) (c : ApiConfig ς) (t : Int ⊕ ς) : Prop :=
  ∀ call, Q.threads.call (c.thread t) = some call → (∀ cv, c.status t ≠ .asleep cv) →
    Q.CallOk (c.status t == .ready) c.data call

end ApiQueue

/-- The thread numbers and the partitions that a caller passes. -/
def ApiRequest.InRange (nReaderThreads : Int) (numPartitions : Nat) : ApiRequest → Prop
  | .getNextChunk consumerId => (consumerId : Int) < nReaderThreads
  | .getChunkMulti partitionId _ => partitionId.toNat < numPartitions
  | .getChunkRow partitionId _ threadId _ =>
    partitionId.toNat < numPartitions ∧ (threadId : Int) < nReaderThreads
  | .getChunkMultipleRows partitionId _ threadId _ _ =>
    partitionId.toNat < numPartitions ∧ (threadId : Int) < nReaderThreads

/-! ## What the callers get -/

namespace ApiQueue

/-- The chunk serves the request: it is of a partition of the consumer, it is
the one that was asked for, or it holds the first rows that the connection of the
thread fetched. -/
def Serves (Q : ApiQueue) : ApiRequest → Chunk → Prop
  | .getNextChunk consumerId, chunk =>
    ∃ p ∈ Q.partitions, Q.queueOf p = consumerId ∧ (chunk.partitionId.toNat : Int) = p
  | .getChunkMulti partitionId chunkId, chunk =>
    chunk.partitionId = partitionId ∧ chunk.id = chunkId.toUInt64
  | .getChunkRow partitionId _ threadId world, chunk =>
    threadId < Q.consumers ∧ ∃ row, S2Connection.RowsOf Q.rowSchema partitionId
      (world.response.fetches true) [row] chunk
  | .getChunkMultipleRows partitionId _ threadId _ world, chunk =>
    threadId < Q.consumers ∧ ∃ rows, S2Connection.RowsOf Q.rowSchema partitionId
      (world.response.fetches true) rows chunk

/-- The requests are answered one after the other, with `true` only when they
are served. -/
structure Answers (Q : ApiQueue) (requests todo : List (ApiRequest × Chunk))
    (answers : List ApiAnswer) : Prop where
  order : answers.map ApiAnswer.request ++ todo.map Prod.fst = requests.map Prod.fst
  served : ∀ a ∈ answers, a.received.returned = true →
    ∃ chunk, a.res = some chunk ∧ Q.Serves a.request chunk

end ApiQueue

/-! ## The readers and their queues -/

def ReadChunk.Labelled (v : ReadChunk) : Prop := v.chunk.id = UInt64.ofNat (itemId v)

/-- What the readers of a chunk queue do, and the queues made for them. -/
structure ApiQueue.Reads (Q : ApiQueue) (S : ReadSetup ReadChunk) : Prop where
  kind : Q.kind = .multiPass
  partitions : S.partitions = Q.partitions
  queueOf : S.queueOf = Q.queueOf
  actions : ∀ p ∈ Q.partitions, (Q.reader p).read = S.actions p
  labelled : ∀ p ∈ Q.partitions, ∀ v ∈ S.chunks p, v.Labelled
  queues : ∀ i, Q.queues.getD i (ConsumerQueue.create Q.kind Q.capacity []) =
    .batch (ThreadSafeBatchQueue.create Q.capacity (S.ids i))

section Create

variable {client : S2Client} {name : String} {chunkSize : UInt64} {queueCapacity n : Int}
  {rowSchema : RowSchema} {response : Int → Response} {malloc : Int → Nat → Option Mem}
  {uninitialized : Int} {Q : ApiQueue} {ids : Nat → List Int}

theorem exists_reads (hkind : Q.kind = .multiPass) (hassigned : Q.toChunkQueue.Assigned ids)
    (hreader : ∀ p, Q.reader p = ResultTableReader.createReader (response p) (some rowSchema)
      (UInt32.ofInt p) chunkSize (malloc p)) : ∃ S, Q.Reads S := by
  have hshape := fun p => ResultTableReader.read_shape (response p) rowSchema (UInt32.ofInt p)
    chunkSize (malloc p)
  choose chunks error hread hchunks using hshape
  refine ⟨{
    partitions := Q.partitions
    queueOf := Q.queueOf
    ids := ids
    mem_ids := hassigned.mem_ids
    nodup := hassigned.nodup
    chunks := chunks
    error := error
    actions := fun p => (Q.reader p).read
    numbers := ?_
    shape := ?_ }, hkind, rfl, rfl, fun _ _ => rfl, ?_, ?_⟩
  · intro p hp i v hv
    obtain ⟨hid, hheader⟩ := hchunks p i v hv
    simp only [Chunk.header, Prod.mk.injEq] at hheader
    refine ⟨?_, congrArg chunkIdOf hid⟩
    have hpartition := hassigned.partition p hp
    rw [hreader p] at hpartition
    show (v.chunk.partitionId.toNat : Int) = p
    rw [hheader.2.2]
    exact hpartition
  · intro p _
    rw [hreader p]
    exact hread p
  · intro p _ v hv
    obtain ⟨i, hi⟩ := List.getElem?_of_mem hv
    obtain ⟨hid, hheader⟩ := hchunks p i v hi
    simp only [Chunk.header, Prod.mk.injEq] at hheader
    show v.chunk.id = UInt64.ofNat (chunkIdOf v.turn)
    rw [hid, hheader.2.1]
  · intro i
    rw [hassigned.queue i, hkind]
    rfl

structure ApiQueue.WellMade (Q : ApiQueue) (queueCapacity n : Int) : Prop where
  capacity : Q.capacity = queueCapacity.toNat
  queues : Q.queues.length = n.toNat
  partition : ∀ p ∈ Q.partitions, ∀ a ∈ Q.partitionAccesses p, a.Fine
  consumers : Q.partitions ≠ [] → Q.consumerThreadsNum = Q.consumers

theorem ApiQueue.partitionAccesses_fine {Q : ApiQueue} {p i : Int} (hp : 0 ≤ p)
    (hlt : p < Q.partitionConsumer.length) (hentry : Q.partitionConsumer.getD p.toNat (-1) = i)
    (hi : 0 ≤ i) (hqueue : i < Q.queues.length) : ∀ a ∈ Q.partitionAccesses p, a.Fine := by
  intro a ha
  simp only [ApiQueue.partitionAccesses, hentry, List.mem_cons, List.not_mem_nil, or_false] at ha
  rcases ha with rfl | rfl
  · exact ⟨hp, hlt⟩
  · exact ⟨hi, hqueue⟩

theorem ApiQueue.WellMade.create (h : Q.WellMade queueCapacity n) :
    ∀ a ∈ Q.createAccesses, a.Fine := by
  intro a ha
  obtain ⟨p, hp, hap⟩ := List.mem_flatMap.mp ha
  exact h.partition p hp a hap

/-- **The chunk queue of the multi-pass mode**, when a worker with partitions
has a reader thread. -/
theorem reads_of_parallelReadGetQueue
    (hrange : (client.numWorkers : Int) + client.numPartitions ≤ intMax) (hmax : n ≤ intMax)
    (hQ : parallelReadGetQueue client name chunkSize queueCapacity n true rowSchema response malloc
      uninitialized = .ok Q)
    (hthreads : Q.partitions = [] ∨ 1 ≤ n) :
    (∃ S, Q.Reads S) ∧ Q.WellMade queueCapacity n := by
  obtain ⟨partitions, queues, v, hpart, hqueues, rfl⟩ := make_of_createChunkQueue hQ
  obtain ⟨hlength, hv⟩ := createQueues_length hqueues
  have hworkers : 0 < (client.numWorkers : Int) := by
    by_contra hnot
    rw [workerPartitions, if_pos (by omega)] at hpart
    cases hpart
  rw [workerPartitions_ok hworkers, Except.ok.injEq] at hpart
  subst hpart
  rcases Int.lt_or_le 0 n with hpos | hnonpos
  · obtain ⟨m, rfl⟩ := Int.eq_ofNat_of_zero_le hpos.le
    obtain ⟨Q', hcreate, -, -, -, -, hassigned⟩ :=
      createParallel_spec (w := client.workerId) .multiPass (capacityOf .multiPass queueCapacity)
        chunkSize (some rowSchema) response malloc (by omega) hrange (by omega) hmax
    have hsame : Q' = (ApiQueue.make .multiPass client name queueCapacity chunkSize m rowSchema
        response malloc uninitialized (strided client.workerId client.numWorkers
          client.numPartitions) queues v hqueues).toChunkQueue := by
      apply Except.ok.inj
      rw [← hcreate, ChunkQueue.createParallel]
      dsimp only
      rw [workerPartitions_ok hworkers, hqueues]
      rfl
    rw [hsame] at hassigned
    obtain ⟨v', hqueues', hconsumer⟩ := createQueues_spec (w := client.workerId)
      (T := client.numPartitions) .multiPass (capacityOf .multiPass queueCapacity)
      (by omega : 1 ≤ client.numWorkers) (by omega) hmax
    obtain ⟨-, rfl⟩ := Prod.mk.inj (Except.ok.inj (hqueues.symm.trans hqueues'))
    rw [strided_zero_one, List.length_map, List.length_range] at hlength
    refine ⟨exists_reads rfl hassigned fun _ => rfl, rfl, hlength, ?_, ?_⟩
    · intro p hp
      obtain ⟨hle, hlt, -⟩ := (mem_strided hworkers).mp hp
      obtain ⟨i, hi0, hin, hpick⟩ := exists_pick hpos hp
      obtain ⟨j, rfl⟩ := Int.eq_ofNat_of_zero_le hi0
      have hentry := hconsumer j (by omega) p hpick
      refine ApiQueue.partitionAccesses_fine (by omega) ?_ hentry hi0 ?_
      · show p < v.length
        rw [hv]
        exact hlt
      · show (j : Int) < queues.length
        rw [hlength]
        exact hin
    · intro hne
      have hsome : ¬ (strided client.workerId client.numWorkers client.numPartitions).isEmpty :=
        fun hempty => hne (List.isEmpty_iff.mp hempty)
      show (if (strided _ _ _).isEmpty then uninitialized else (m : Int)) =
        ((if (strided _ _ _).isEmpty then 0 else (m : Int).toNat : Nat) : Int)
      rw [if_neg hsome, if_neg hsome, Int.toNat_natCast]
  · -- there are no queues, and no partition needs one
    rw [strided_of_le hnonpos, List.length_nil] at hlength
    have hnone := hthreads.resolve_right (by omega)
    have hassigned : (ApiQueue.make .multiPass client name queueCapacity chunkSize n rowSchema
        response malloc uninitialized (strided client.workerId client.numWorkers
          client.numPartitions) queues v hqueues).toChunkQueue.Assigned fun _ => [] :=
      .of_empty hnone (List.length_eq_zero_iff.mp hlength) fun _ => rfl
    refine ⟨exists_reads rfl hassigned fun _ => rfl, rfl, ?_, ?_, fun hne => absurd hnone hne⟩
    · show queues.length = n.toNat
      omega
    · intro p hp
      rw [hnone] at hp
      cases hp

end Create

/-! ## The answers -/

section Answers

variable {Q : ApiQueue} {requests todo : List (ApiRequest × Chunk)} {answers : List ApiAnswer}
  {res : Option Chunk} {err : S2ClientError}

def ApiQueue.Answering (Q : ApiQueue) (requests : List (ApiRequest × Chunk)) (l : ApiThread) :
    Prop :=
  ∃ todo answers state, l = .caller todo answers state ∧ Q.Answers requests todo answers

theorem answering_answer (h : Q.Answers requests todo answers)
    (hres : ∀ request out rest chunk, todo = (request, out) :: rest → res = some chunk →
      Q.Serves request chunk) :
    Q.Answering requests (ApiQueue.answer todo answers res err) := by
  cases todo with
  | nil => exact ⟨[], answers, .popping, rfl, h⟩
  | cons r rest =>
    refine ⟨rest, _, .popping, rfl, ?_, ?_⟩
    · rw [← h.order, List.map_append, List.append_assoc]
      rfl
    · intro a ha hreturned
      rcases List.mem_append.mp ha with hold | hnew
      · exact h.served a hold hreturned
      · rw [List.mem_singleton.mp hnew] at hreturned ⊢
        rw [received_returned] at hreturned
        obtain ⟨chunk, hchunk⟩ := Option.isSome_iff_exists.mp hreturned
        exact ⟨chunk, hchunk, hres r.1 r.2 rest chunk rfl hchunk⟩

theorem answering_afterErrors (h : Q.Answers requests todo answers) (readers : List Int) :
    Q.Answering requests (ApiQueue.afterErrors todo answers readers err) := by
  cases readers with
  | nil =>
    unfold ApiQueue.afterErrors
    by_cases hcode : err.errorCode = 0
    · simp only [hcode, ne_eq, not_true, if_false]
      exact answering_answer h (by simp)
    · simp only [ne_eq, hcode, not_false_iff, if_true]
      exact ⟨todo, answers, _, rfl, h⟩
  | cons p readers => exact ⟨todo, answers, _, rfl, h⟩

/-- An exception of a request for rows is caught, and the thread has a place in
`m_consumers`. -/
theorem withConsumer_ok {threadId : Nat} {world : RowWorld} {conns : Conns}
    {body : S2Connection → Except ReadException (Chunk × S2Connection)}
    (hindex : Q.consumerThreadsNum ≤ threadId ∨ threadId < Q.consumers)
    (hbody : ∀ conn e, (threadId : Int) < Q.consumerThreadsNum →
      (conns threadId = none → world.connectError.errorCode = 0) →
      conn.response = world.response → body conn = .error e → e.Caught) :
    ∃ r, (Q.withConsumer threadId world conns body).1 = .ok r := by
  unfold ApiQueue.withConsumer
  split
  · exact ⟨_, rfl⟩
  · rename_i hthread
    rw [if_neg (by omega)]
    cases hconn : connectConsumer threadId world conns with
    | error e => exact ⟨_, rfl⟩
    | ok conn =>
      have hconnect : conns threadId = none → world.connectError.errorCode = 0 := by
        intro hnone
        by_contra hcode
        simp [connectConsumer, hnone, hcode] at hconn
      dsimp only
      cases hrun : body conn with
      | ok result => exact ⟨_, rfl⟩
      | error e =>
        have hcaught := hbody conn e (by omega) hconnect (connectConsumer_response hconn) hrun
        cases e with
        | s2 e => exact ⟨_, rfl⟩
        | invalidArgument what => cases hcaught
        | badAlloc => cases hcaught

theorem serveRows_ok {call : RowCall} {conns : Conns}
    (hindex : Q.consumerThreadsNum ≤ call.threadId ∨ call.threadId < Q.consumers)
    (hfits : ¬ call.EndsEarly Q.consumerThreadsNum conns → call.Fits Q.rowSchema) :
    ∃ r, (Q.serveRows call conns).1 = .ok r := by
  -- a request that comes to its first fetch
  have hreached : (call.threadId : Int) < Q.consumerThreadsNum →
      (conns call.threadId = none → call.world.connectError.errorCode = 0) → ¬ call.NoMemory →
      call.world.response.Starts → call.Fits Q.rowSchema := by
    intro hthread hconnect hmemory hstarts
    apply hfits
    rintro (h | ⟨hnone, hcode⟩ | h | h)
    · omega
    · exact hcode (hconnect hnone)
    · exact hmemory h
    · exact h hstarts
  cases call with
  | getSingleRow partitionId rowId threadId world =>
    apply withConsumer_ok hindex
    intro conn e hthread hconnect hresponse hrun
    refine S2Connection.getSingleRow_caught ?_ hrun
    rw [hresponse]
    exact hreached hthread hconnect id
  | getMultipleRows chunkSize partitionId rowIdsNum threadId world =>
    apply withConsumer_ok hindex
    intro conn e hthread hconnect hresponse hrun
    split at hrun
    · obtain rfl := Except.error.inj hrun
      trivial
    · rename_i ptr hptr
      split at hrun
      · cases hrun
      · rename_i hmultiple
        obtain rfl := Except.error.inj hrun
        refine S2Connection.getMultipleRows_caught ?_ hmultiple
        rw [hresponse]
        intro hstarts
        have hmemory : ¬ world.malloc chunkSize = none := by
          rw [hptr]
          exact Option.some_ne_none ptr
        exact hreached hthread hconnect hmemory hstarts ptr hptr

/-- The request of the API that calls `GetSingleRow` or `GetMultipleRows`. -/
def RowCall.request : RowCall → ApiRequest
  | .getSingleRow partitionId rowId threadId world => .getChunkRow partitionId rowId threadId world
  | .getMultipleRows chunkSize partitionId rowIdsNum threadId world =>
    .getChunkMultipleRows partitionId rowIdsNum threadId chunkSize world

theorem serveRows_serves {call : RowCall} {conns : Conns} {chunk : Chunk}
    (h : (Q.serveRows call conns).1 = .ok (some chunk, err)) : Q.Serves call.request chunk := by
  cases call with
  | getSingleRow partitionId rowId threadId world =>
    obtain ⟨hthread, conn, conn', hresponse, hbody⟩ := withConsumer_chunk h
    obtain ⟨row, hrow⟩ := S2Connection.rowsOf_getSingleRow hbody
    rw [hresponse] at hrow
    exact ⟨hthread, row, hrow⟩
  | getMultipleRows chunkSize partitionId rowIdsNum threadId world =>
    obtain ⟨hthread, conn, conn', hresponse, hbody⟩ := withConsumer_chunk h
    split at hbody
    · cases hbody
    · split at hbody
      · rename_i rows chunk' conn'' hmultiple
        obtain ⟨rfl, rfl⟩ := Prod.mk.inj (Except.ok.inj hbody)
        have hrows := S2Connection.rowsOf_getMultipleRows hmultiple
        rw [hresponse] at hrows
        exact ⟨hthread, rows, hrows⟩
      · cases hbody

end Answers

end SasLibclient
