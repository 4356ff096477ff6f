import SasLibclient.ErrorFree
import SasLibclient.Partitions

/-!
# `CreateChunkQueue`

`MultiPassQueue::CreateChunkQueue` and `StreamingQueue::CreateChunkQueue` make
the queues of the consumers and the readers, and start the readers. What the
readers do is known then, so the threads run as in `Delivery`: a consumer that
is told that there are no more chunks, and no error, has the whole result of
every reader of its queue.
-/

namespace SasLibclient

open Monitors QueueItem Bytes Loops

/-- A chunk queue: the queues of the consumers and a reader for each partition,
which pushes into the queue number `queueOf p`. -/
structure ChunkQueue where
  kind : QueueKind
  capacity : Nat
  queues : List (ConsumerQueue ReadChunk)
  partitions : List Int
  queueOf : Int → Nat
  reader : Int → ResultTableReader

def createQueues (kind : QueueKind) (client : S2Client) (capacity : Nat) (nConsumers : Int) :
    Except S2ClientError (List (ConsumerQueue ReadChunk) × List Int) :=
  match kind with
  | .multiPass => do
    let (queues, partitionConsumer) ←
      MultiPassQueue.createQueues ReadChunk client capacity nConsumers
    .ok (queues.map .batch, partitionConsumer)
  | .streaming => do
    let (queues, partitionConsumer) ←
      StreamingQueue.createQueues ReadChunk client capacity nConsumers true
    .ok (queues.map .simple, partitionConsumer)

namespace ChunkQueue

/-- `CreateChunkQueue` of a parallel read. The reader of partition `p` gets the
answer `response p` to its query. -/
def createParallel (kind : QueueKind) (client : S2Client) (capacity : Nat) (chunkSize : UInt64)
    (nConsumers : Int) (rowSchema : Option RowSchema) (response : Int → Response)
    (malloc : Int → Nat → Option Mem) : Except S2ClientError ChunkQueue := do
  let partitions ← workerPartitions client.numWorkers client.workerId client.numPartitions
  let (queues, partitionConsumer) ← createQueues kind client capacity nConsumers
  .ok {
    kind := kind
    capacity := capacity
    queues := queues
    partitions := partitions
    queueOf := fun p => (partitionConsumer.getD p.toNat (-1)).toNat
    reader := fun p => ResultTableReader.createReader (response p) rowSchema (UInt32.ofInt p)
      chunkSize (malloc p) }

/-- `StreamingQueue::CreateChunkQueue` of a read that is not parallel. -/
def createNonParallel (client : S2Client) (capacity : Nat) (chunkSize : UInt64)
    (nConsumers : Int) (usePreparedProtocol : Bool) (response : Response)
    (malloc : Nat → Option Mem) : Except ReadException ChunkQueue := do
  let (queues, _) ← (StreamingQueue.createQueues ReadChunk client capacity nConsumers
    false).mapError ReadException.s2
  let reader := ResultTableReader.createReaderNonParallel response none chunkSize
    usePreparedProtocol malloc
  let (reader, _) ← reader.prepareRead false
  if reader.error.errorCode ≠ 0 then
    .error (.s2 reader.error)
  else
    let reader ← reader.updateRowSchema
    let reader ← reader.prefetch
    .ok {
      kind := .streaming
      capacity := capacity
      queues := queues.map .simple
      partitions := [0]
      queueOf := fun _ => 0
      reader := fun _ => reader }

/-- `QueryGetQueue` -/
def queryGetQueue (client : S2Client) (chunkSize : UInt64) (queueCapacity : Int)
    (usePreparedProtocol : Bool) (response : Response) (malloc : Nat → Option Mem) :
    Except ReadException ChunkQueue :=
  if queueCapacity < 1 then
    .error (.s2 ⟨s2cErrorInvArg, "Queue capacity must be positive"⟩)
  else
    createNonParallel client queueCapacity.toNat chunkSize 1 usePreparedProtocol response malloc

abbrev threads (Q : ChunkQueue) :
    Program (ReadThread ReadChunk) (SharedCall ReadChunk) (SharedResult ReadChunk) :=
  chunkQueueThreads Q.partitions Q.queueOf

/-- The state after `StartReading`; `consumerOf` is the argument that a consumer
passes to `Get`, and there is no queue behind the last one. -/
def start {ς : Type} (Q : ChunkQueue) (consumerOf : ς → Nat) : ReadConfig ReadChunk ς where
  data :=
    { queues := fun i => Q.queues.getD i (ConsumerQueue.create Q.kind Q.capacity [])
      readerError := fun p => (Q.reader p).error
      error := .none }
  thread
    | .inl p => .reader p (if p ∈ Q.partitions then (Q.reader p).read else [])
    | .inr s => .consumer (consumerOf s) [] .popping
  status := fun _ => .ready
  history := []

/-- The queue `i` is made for the partitions `ids i`, whose readers use it. -/
structure Assigned (Q : ChunkQueue) (ids : Nat → List Int) : Prop where
  queue : ∀ i, Q.queues.getD i (ConsumerQueue.create Q.kind Q.capacity []) =
    ConsumerQueue.create Q.kind Q.capacity (ids i)
  mem_ids : ∀ i p, p ∈ ids i ↔ p ∈ Q.partitions ∧ Q.queueOf p = i
  nodup : ∀ i, (ids i).Nodup
  partition : ∀ p ∈ Q.partitions, ((Q.reader p).partition.toNat : Int) = p
  error : ∀ p, (Q.reader p).error = .none

theorem Assigned.of_empty {Q : ChunkQueue} (hpartitions : Q.partitions = []) (hqueues : Q.queues = [])
    (herror : ∀ p, (Q.reader p).error = .none) : Q.Assigned fun _ => [] where
  queue := fun i => by
    rw [hqueues]
    rfl
  mem_ids := fun i p => by
    rw [hpartitions]
    exact iff_of_false List.not_mem_nil fun h => List.not_mem_nil h.1
  nodup := fun _ => List.nodup_nil
  partition := fun p hp => by
    rw [hpartitions] at hp
    cases hp
  error := herror

/-- The readers and the slots of a multi-pass queue count in the range of `int`. -/
def Narrow (Q : ChunkQueue) (ids : Nat → List Int) : Prop :=
  Q.kind = .multiPass → (∀ p ∈ Q.partitions, pushCount (Q.reader p).read < 2 ^ 31) ∧
    Q.capacity < 2 ^ 31 ∧ ∀ i, (ids i).length * Q.capacity < 2 ^ 31

/-- The chunks of `l` hold the rows of a result, in order, and are numbered as
`Read` counts. -/
structure WholeResult (r : ResultTableReader) (rows : List (List Cell)) (l : List ReadChunk) :
    Prop where
  rows : l.flatMap ReadChunk.rows = rows
  count : l.length = pushCount r.read
  turns : l.map ReadChunk.turn = List.range l.length
  ids : l.map (fun v => v.chunk.id) = (List.range l.length).map fun i => UInt64.ofNat (chunkIdOf i)
  chunks : ∀ i v, l[i]? = some v → ∃ rowSchema, r.rowSchema = some rowSchema ∧
    r.ChunkOf rowSchema i v

end ChunkQueue

theorem ReadsRows.choose {r : ResultTableReader} {rows : List (List Cell)}
    {actions : List (ReaderAction ReadChunk)} (h : ReadsRows r rows actions) :
    ∃ chunks error, (actions = [] ∨ actions = readerActions chunks error) ∧
      chunks.length = pushCount actions ∧
      (∀ i v, chunks[i]? = some v → ∃ rowSchema, r.rowSchema = some rowSchema ∧
        r.ChunkOf rowSchema i v) ∧
      (actions = readerActions chunks error → (error.getD .none).errorCode = 0 →
        chunks.flatMap ReadChunk.rows = rows) := by
  rcases h with rfl | ⟨chunks, error, rfl, hchunks, herror, hall⟩
  · refine ⟨[], none, Or.inl rfl, rfl, by simp, ?_⟩
    intro hactions
    simp [readerActions] at hactions
  · refine ⟨chunks, error, Or.inr rfl, (pushCount_readerActions chunks error).symm, hchunks, ?_⟩
    intro _ hcode
    cases error with
    | none => exact hall rfl
    | some e => exact absurd hcode (herror e rfl)

section Delivery

variable {ς : Type} [DecidableEq ς] {Q : ChunkQueue} {ids : Nat → List Int}
  {rows : Int → List (List Cell)} {consumerOf : ς → Nat} {c : ReadConfig ReadChunk ς} {s : ς}
  {i : Nat} {results : List (Option ReadChunk × S2ClientError)} {state : GetState}
  {e : S2ClientError} {p : Int}

omit [DecidableEq ς] in
theorem ChunkQueue.Assigned.exists_setup (hQ : Q.Assigned ids)
    (hreads : ∀ p ∈ Q.partitions, ReadsRows (Q.reader p) (rows p) (Q.reader p).read) :
    ∃ S : ReadSetup ReadChunk, S.partitions = Q.partitions ∧ S.queueOf = Q.queueOf ∧ S.ids = ids ∧
      (S.actions = fun p => (Q.reader p).read) ∧
      (∀ consumerOf : ς → Nat, Q.start consumerOf = readStart S Q.kind Q.capacity consumerOf) ∧
      ∀ p ∈ Q.partitions, S.lengthOf p = pushCount (Q.reader p).read ∧
        (∀ i v, (S.chunks p)[i]? = some v → ∃ rowSchema, (Q.reader p).rowSchema = some rowSchema ∧
          (Q.reader p).ChunkOf rowSchema i v) ∧
        (S.actions p = readerActions (S.chunks p) (S.error p) →
          ((S.error p).getD .none).errorCode = 0 →
          (S.chunks p).flatMap ReadChunk.rows = rows p) := by
  have hchoose : ∀ p, ∃ chunks error, p ∈ Q.partitions →
      ((Q.reader p).read = [] ∨ (Q.reader p).read = readerActions chunks error) ∧
      chunks.length = pushCount (Q.reader p).read ∧
      (∀ i v, chunks[i]? = some v → ∃ rowSchema, (Q.reader p).rowSchema = some rowSchema ∧
        (Q.reader p).ChunkOf rowSchema i v) ∧
      ((Q.reader p).read = readerActions chunks error → (error.getD .none).errorCode = 0 →
        chunks.flatMap ReadChunk.rows = rows p) := by
    intro p
    by_cases hp : p ∈ Q.partitions
    · obtain ⟨chunks, error, hread⟩ := (hreads p hp).choose
      exact ⟨chunks, error, fun _ => hread⟩
    · exact ⟨[], none, fun hp' => absurd hp' hp⟩
  choose chunks error hread using hchoose
  refine ⟨{
    partitions := Q.partitions
    queueOf := Q.queueOf
    ids := ids
    mem_ids := hQ.mem_ids
    nodup := hQ.nodup
    chunks := chunks
    error := error
    actions := fun p => (Q.reader p).read
    numbers := ?_
    shape := fun p hp => (hread p hp).1 }, rfl, rfl, rfl, rfl, ?_, fun p hp => (hread p hp).2⟩
  · intro p hp i v hv
    obtain ⟨rowSchema, -, hchunk⟩ := (hread p hp).2.2.1 i v hv
    have hheader := hchunk.header
    simp only [Chunk.header, Prod.mk.injEq] at hheader
    refine ⟨?_, congrArg chunkIdOf hchunk.turn⟩
    show (v.chunk.partitionId.toNat : Int) = p
    rw [hheader.2.2]
    exact hQ.partition p hp
  · intro consumerOf
    have hqueues : (fun i => Q.queues.getD i (ConsumerQueue.create Q.kind Q.capacity [])) =
        fun i => ConsumerQueue.create Q.kind Q.capacity (ids i) := funext hQ.queue
    have herrors : (fun p => (Q.reader p).error) = fun _ => S2ClientError.none := funext hQ.error
    unfold ChunkQueue.start
    rw [hqueues, herrors]
    rfl

theorem ChunkQueue.Narrow.setup (h : Q.Narrow ids) (hQ : Q.Assigned ids) {S : ReadSetup ReadChunk}
    (hids : S.ids = ids) (hlength : ∀ p ∈ Q.partitions, S.lengthOf p = pushCount (Q.reader p).read) :
    S.Narrow Q.kind Q.capacity := by
  intro hkind
  obtain ⟨hchunks, hcapacity, hslots⟩ := h hkind
  refine ⟨hcapacity, fun i => ⟨?_, ?_⟩⟩
  · intro p hp
    have hpart := ((hQ.mem_ids i p).mp (hids ▸ hp)).1
    rw [hlength p hpart]
    exact hchunks p hpart
  · rw [hids]
    exact hslots i

/-- **The consumer has everything.** When `Get` returned no chunk and no error,
the chunks popped from the queue of a reader hold its whole result. -/
theorem ChunkQueue.Assigned.delivered (hQ : Q.Assigned ids) (hnarrow : Q.Narrow ids)
    (hpos : 0 < Q.capacity)
    (rows : Int → List (List Cell))
    (hreads : ∀ p ∈ Q.partitions, ReadsRows (Q.reader p) (rows p) (Q.reader p).read)
    (hreach : Reachable sharedMonitor Q.threads (Q.start consumerOf) c)
    (hthread : c.thread (.inr s) = .consumer i results state)
    (hget : (none, e) ∈ results) (hcode : e.errorCode = 0) (hp : p ∈ ids (consumerOf s)) :
    ChunkQueue.WholeResult (Q.reader p) (rows p)
      (chunksOf p (logOf (consumerOf s) c.history).popped) := by
  obtain ⟨S, hpart, hqueue, rfl, -, hstart, hchunks⟩ := hQ.exists_setup (ς := ς) hreads
  rw [hstart] at hreach
  have hthreads : Q.threads = S.threads := by
    rw [ChunkQueue.threads, ReadSetup.threads, hpart, hqueue]
  rw [hthreads] at hreach
  have hsetup := hnarrow.setup hQ rfl fun p hp => (hchunks p hp).1
  obtain ⟨hactions, herror, hpopped⟩ := drained_of_get hpos hsetup hreach hthread hget hcode hp
  obtain ⟨-, hchunk, hall⟩ := hchunks p ((hQ.mem_ids _ _).mp hp).1
  rw [hpopped]
  have hnumber : ∀ i v, (S.chunks p)[i]? = some v →
      v.turn = i ∧ v.chunk.id = UInt64.ofNat (chunkIdOf i) := by
    intro i v hv
    obtain ⟨rowSchema, -, hchunk⟩ := hchunk i v hv
    have hheader := hchunk.header
    simp only [Chunk.header, Prod.mk.injEq] at hheader
    exact ⟨hchunk.turn, hheader.2.1⟩
  constructor
  · exact hall hactions herror
  · exact (hchunks p ((hQ.mem_ids _ _).mp hp).1).1
  · apply List.ext_getElem?
    intro i
    cases hv : (S.chunks p)[i]? with
    | none => simp [List.getElem?_eq_none_iff.mp hv]
    | some v =>
      have hlt := (List.getElem?_eq_some_iff.mp hv).1
      rw [List.getElem?_map, hv, Option.map_some, (hnumber i v hv).1, List.getElem?_range hlt]
  · apply List.ext_getElem?
    intro i
    cases hv : (S.chunks p)[i]? with
    | none => simp [List.getElem?_eq_none_iff.mp hv]
    | some v =>
      have hlt := (List.getElem?_eq_some_iff.mp hv).1
      rw [List.getElem?_map, hv, Option.map_some, (hnumber i v hv).2, List.getElem?_map,
        List.getElem?_range hlt, Option.map_some]
  · exact hchunk

/-- **No error is reported** when no reader stores one; and the queue of a
single reader has its chunks only. -/
theorem ChunkQueue.Assigned.quiet (hQ : Q.Assigned ids) (hnarrow : Q.Narrow ids)
    (hpos : 0 < Q.capacity)
    (rows : Int → List (List Cell))
    (hreads : ∀ p ∈ Q.partitions, ReadsRows (Q.reader p) (rows p) (Q.reader p).read)
    (hfree : ∀ p ∈ Q.partitions, ∀ e, .setError e ∉ (Q.reader p).read)
    (hreach : Reachable sharedMonitor Q.threads (Q.start consumerOf) c) :
    (∀ s i results state, c.thread (.inr s) = .consumer i results state →
      ∀ r ∈ results, r.2.errorCode = 0) ∧
    ∀ i p, ids i = [p] → chunksOf p (logOf i c.history).popped = (logOf i c.history).popped := by
  obtain ⟨S, hpart, hqueue, rfl, hactions, hstart, hchunks⟩ := hQ.exists_setup (ς := ς) hreads
  have hthreads : Q.threads = S.threads := by
    rw [ChunkQueue.threads, ReadSetup.threads, hpart, hqueue]
  rw [hthreads, hstart] at hreach
  have hsetup := hnarrow.setup hQ rfl fun p hp => (hchunks p hp).1
  refine quiet_of_errorFree ?_ hpos hsetup hreach
  intro p hp e
  rw [hactions]
  rw [hpart] at hp
  exact hfree p hp e

theorem ChunkQueue.Assigned.complete (hQ : Q.Assigned ids) (hpos : 0 < Q.capacity)
    (rows : Int → List (List Cell))
    (hkind : Q.kind = .streaming) (hpart : Q.partitions = [p]) (hids : ids 0 = [p])
    (hreads : ∀ p ∈ Q.partitions, ReadsRows (Q.reader p) (rows p) (Q.reader p).read)
    {chunks : List ReadChunk} (hread : (Q.reader p).read = readerActions chunks none) :
    ∃ c results, Reachable sharedMonitor Q.threads (Q.start fun _ : Unit => 0) c ∧
      c.thread (.inr ()) = .consumer 0 results .popping ∧ (none, .none) ∈ results := by
  obtain ⟨S, hpart', hqueue, rfl, hactions, hstart, -⟩ := hQ.exists_setup (ς := Unit) hreads
  have hthreads : Q.threads = S.threads := by
    rw [ChunkQueue.threads, ReadSetup.threads, hpart', hqueue]
  rw [hthreads, hstart, hkind]
  apply exists_complete_run hpos (hpart'.trans hpart) hids
  rw [hactions]
  exact hread

end Delivery

def numbers (n : Nat) : Response where
  startError := none
  fields := [⟨"id", .longLong, 20⟩]
  rows := List.replicate n [some ⟨[5, 0, 0, 0, 0, 0, 0, 0], [53]⟩]
  failAfter := none
  sscanf := fun _ _ => [5, 0, 0, 0, 0, 0, 0, 0]
  uninitialized := 0
  fields_lt := by decide
  noFields := nofun

end SasLibclient
