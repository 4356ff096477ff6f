import Mathlib.Algebra.BigOperators.Group.List.Basic
import SasLibclient.NonParallelRead

/-!
# Parallel reads

The chunk queue that `CreateChunkQueue` makes for a parallel read gives every
partition of the worker to one consumer. So a consumer that is told that there
are no more chunks and no error has the whole result of each of its partitions,
in every interleaving of the readers and the consumers.
-/

namespace SasLibclient

open Monitors QueueItem Bytes Loops

section Create

variable {kind : QueueKind} {W w T n capacity : Nat}

/-- The lists of the consumers; there are `n` of them. -/
def consumerLists (n : Nat) (partitions : List Int) (i : Nat) : List Int :=
  if i < n then pick n i partitions else []

theorem createQueues_spec (kind : QueueKind) (capacity : Nat) (hW : 1 ≤ W) (hn : 1 ≤ n)
    (hmax : (n : Int) ≤ intMax) :
    ∃ v, createQueues kind ⟨T, w, W⟩ capacity n =
        .ok ((List.range n).map fun i : Nat =>
          ConsumerQueue.create kind capacity (pick n i (strided w W T)), v) ∧
      ∀ i < n, ∀ p ∈ pick n i (strided w W T), v.getD p.toNat (-1) = i := by
  have hstep : (0 : Int) < W := by omega
  have hpos : (0 : Int) < n := by omega
  have hps := strided_nodup w W T
  have hnonneg : ∀ p ∈ strided w W T, 0 ≤ p := by
    intro p hp
    have := le_of_mem_strided hp
    omega
  have hids : ∀ c : Int, c ∈ strided 0 1 n ↔ 0 ≤ c ∧ c < n := by
    intro c
    rw [mem_strided (by decide)]
    simp
  have hrun : ∀ {Q : Type} (newQueue : List Int → Q), ∃ v,
      createConsumerQueues newQueue n (strided w W T) (strided 0 1 n)
        ([], List.replicate T (-1)) =
        .ok ((List.range n).map fun i : Nat => newQueue (pick n i (strided w W T)), v) ∧
      ∀ i < n, ∀ p ∈ pick n i (strided w W T), v.getD p.toNat (-1) = i := by
    intro Q newQueue
    obtain ⟨v, hrun, -, hv⟩ := createConsumerQueues_spec newQueue hpos hmax hps hnonneg
      (strided 0 1 n) (fun c hc => (hids c).mp hc) (strided_nodup _ _ _) [] (List.replicate T (-1))
    refine ⟨v, ?_, ?_⟩
    · rw [hrun, strided_zero_one, List.nil_append, List.map_map]
      rfl
    · intro i hi p hp
      have hmem := pick_subset hpos (by omega) (by omega) hp
      obtain ⟨j, rfl⟩ := Int.eq_ofNat_of_zero_le (hnonneg p hmem)
      have hlt := ((mem_strided hstep).mp hmem).2.1
      obtain ⟨hmine, -⟩ := hv j (by rw [List.length_replicate]; omega)
      rw [Int.toNat_natCast, List.getD_eq_getElem?_getD,
        hmine i ((hids i).mpr ⟨by omega, by omega⟩) hp]
      rfl
  cases kind with
  | multiPass =>
    obtain ⟨v, hqueues, hv⟩ := hrun (ThreadSafeBatchQueue.create (T := ReadChunk) capacity)
    refine ⟨v, ?_, hv⟩
    simp only [createQueues, MultiPassQueue.createQueues]
    rw [workerPartitions_ok hstep]
    simp only [bind, Except.bind, hqueues, List.map_map]
    rfl
  | streaming =>
    obtain ⟨v, hqueues, hv⟩ := hrun fun ps =>
      ThreadSafeSimpleQueue.create (T := ReadChunk) capacity ps.length
    refine ⟨v, ?_, hv⟩
    simp only [createQueues, StreamingQueue.createQueues, if_true]
    rw [workerPartitions_ok hstep]
    simp only [bind, Except.bind, hqueues, List.map_map]
    rfl

/-- **The chunk queue of a parallel read** gives every partition to one
consumer. -/
theorem createParallel_spec (kind : QueueKind) (capacity : Nat) (chunkSize : UInt64)
    (rowSchema : Option RowSchema) (response : Int → Response) (malloc : Int → Nat → Option Mem)
    (hW : 1 ≤ W) (hrange : (W : Int) + T ≤ intMax) (hn : 1 ≤ n) (hmax : (n : Int) ≤ intMax) :
    ∃ Q, ChunkQueue.createParallel kind ⟨T, w, W⟩ capacity chunkSize n rowSchema response malloc =
        .ok Q ∧ Q.kind = kind ∧ Q.capacity = capacity ∧ Q.partitions = strided w W T ∧
      (∀ p, Q.reader p = ResultTableReader.createReader (response p) rowSchema (UInt32.ofInt p)
        chunkSize (malloc p)) ∧
      Q.Assigned (consumerLists n (strided w W T)) := by
  have hstep : (0 : Int) < W := by omega
  have hpos : (0 : Int) < n := by omega
  have hps := strided_nodup w W T
  obtain ⟨v, hqueues, hv⟩ := createQueues_spec (w := w) (T := T) kind capacity hW hn hmax
  refine ⟨{
    kind := kind
    capacity := capacity
    queues := (List.range n).map fun i : Nat =>
      ConsumerQueue.create kind capacity (pick n i (strided w W T))
    partitions := strided w W T
    queueOf := fun p => (v.getD p.toNat (-1)).toNat
    reader := fun p => ResultTableReader.createReader (response p) rowSchema (UInt32.ofInt p)
      chunkSize (malloc p) }, ?_, rfl, rfl, rfl, fun p => rfl, ?_⟩
  · rw [ChunkQueue.createParallel]
    dsimp only
    rw [workerPartitions_ok hstep, hqueues]
    rfl
  constructor
  · intro i
    unfold consumerLists
    rw [List.getD_eq_getElem?_getD, List.getElem?_map]
    by_cases hi : i < n
    · rw [if_pos hi, List.getElem?_range hi]
      rfl
    · rw [if_neg hi, List.getElem?_eq_none (by rw [List.length_range]; omega)]
      rfl
  · intro i p
    unfold consumerLists
    constructor
    · intro hp
      by_cases hi : i < n
      · rw [if_pos hi] at hp
        refine ⟨pick_subset hpos (by omega) (by omega) hp, ?_⟩
        show (v.getD p.toNat (-1)).toNat = i
        rw [hv i hi p hp, Int.toNat_natCast]
      · rw [if_neg hi] at hp
        cases hp
    · rintro ⟨hp, hqueue⟩
      obtain ⟨c, hc0, hcn, hpick⟩ := exists_pick hpos hp
      obtain ⟨j, rfl⟩ := Int.eq_ofNat_of_zero_le hc0
      have hj : j < n := by omega
      have hi : j = i := by
        rw [← hqueue]
        show j = (v.getD p.toNat (-1)).toNat
        rw [hv j hj p hpick, Int.toNat_natCast]
      rw [← hi, if_pos hj]
      exact hpick
  · intro i
    unfold consumerLists
    split
    · exact pick_nodup hpos (by omega) hps
    · exact List.nodup_nil
  · intro p hp
    obtain ⟨hle, hlt, -⟩ := (mem_strided hstep).mp hp
    obtain ⟨j, rfl⟩ := Int.eq_ofNat_of_zero_le (by omega : 0 ≤ p)
    have hsmall : j < 2 ^ 32 := by
      unfold intMax at hrange
      omega
    show ((UInt32.ofInt (j : Int)).toNat : Int) = j
    rw [UInt32.ofInt, UInt32.toNat_ofNat']
    omega
  · exact fun p => rfl

end Create

/-- The number of the chunks of a partition is in the range of `int`, and in a
multi-pass reading so are the capacity and the number of the slots for the
partitions of a consumer. -/
structure ChunkQueue.InIntRange (Q : ChunkQueue) (nConsumers : Int) : Prop where
  chunks : ∀ p ∈ Q.partitions, pushCount (Q.reader p).read < 2 ^ 31
  capacity : Q.kind = .multiPass → Q.capacity < 2 ^ 31
  slots : Q.kind = .multiPass → ∀ consumer ps,
    consumerPartitions nConsumers consumer Q.partitions = .ok ps → ps.length * Q.capacity < 2 ^ 31

theorem ChunkQueue.InIntRange.narrow {Q : ChunkQueue} {n : Nat} {ps : List Int}
    (h : Q.InIntRange n) (hps : Q.partitions = ps) (hmax : (n : Int) ≤ intMax) :
    Q.Narrow (consumerLists n ps) := by
  intro hkind
  refine ⟨h.chunks, h.capacity hkind, ?_⟩
  intro i
  unfold consumerLists
  split
  · rename_i hi
    refine h.slots hkind i _ ?_
    rw [hps]
    exact consumerPartitions_ok (by omega) (by omega) hmax
  · rw [List.length_nil, Nat.zero_mul]
    exact Nat.two_pow_pos 31

theorem ChunkQueue.WholeResult.ids_eq {r : ResultTableReader} {rows : List (List Cell)}
    {l : List ReadChunk} (h : WholeResult r rows l) (hlength : l.length < 2 ^ 31) :
    l.map (fun v => v.chunk.id.toNat) = List.range l.length := by
  have hids := congrArg (List.map UInt64.toNat) h.ids
  rw [List.map_map, List.map_map, Function.comp_def, Function.comp_def] at hids
  rw [hids]
  refine List.ext_getElem (by simp) fun i _ hi => ?_
  rw [List.getElem_map, List.getElem_range]
  exact toNat_chunkIdOf (Nat.lt_trans (by simpa using hi) hlength)

theorem ChunkQueue.WholeResult.length_le {r : ResultTableReader} {rows : List (List Cell)}
    {l : List ReadChunk} (h : WholeResult r rows l) : l.length ≤ rows.length := by
  have hpos : ∀ n ∈ l.map fun v => v.rows.length, 1 ≤ n := by
    intro n hn
    obtain ⟨v, hv, rfl⟩ := List.mem_map.mp hn
    obtain ⟨i, hi⟩ := List.getElem?_of_mem hv
    obtain ⟨_, _, hchunk⟩ := h.chunks i v hi
    exact List.length_pos_iff.mpr hchunk.nonempty
  have hsum := List.length_le_sum_of_one_le _ hpos
  rw [List.length_map] at hsum
  rw [← h.rows, List.length_flatMap]
  exact hsum

/-- **Complete or an error.** When `Get` returned no chunk and no error, then
for every partition of the consumer the chunks popped from its queue are
numbered from 0 and hold the rows of the whole result, in order. -/
theorem complete_or_error {ς : Type} [DecidableEq ς] {kind : QueueKind} {client : S2Client}
    {capacity : Nat} {chunkSize : UInt64} {nConsumers : Int} {rowSchema : Option RowSchema}
    {response : Int → Response} {malloc : Int → Nat → Option Mem} {Q : ChunkQueue}
    (hworkers : 1 ≤ client.numWorkers)
    (hrange : (client.numWorkers : Int) + client.numPartitions ≤ intMax)
    (hn : 1 ≤ nConsumers) (hmax : nConsumers ≤ intMax) (hcapacity : 1 ≤ capacity)
    (hcodes : ∀ p, (response p).ErrorCodes)
    (hQ : ChunkQueue.createParallel kind client capacity chunkSize nConsumers rowSchema response
      malloc = .ok Q)
    (hint : Q.InIntRange nConsumers)
    {consumerOf : ς → Nat} (hconsumers : ∀ s, (consumerOf s : Int) < nConsumers)
    {c : ReadConfig ReadChunk ς}
    (hreach : Reachable sharedMonitor Q.threads (Q.start consumerOf) c)
    {s : ς} {i : Nat} {results : List (Option ReadChunk × S2ClientError)} {state : GetState}
    (hthread : c.thread (.inr s) = .consumer i results state)
    {e : S2ClientError} (hget : (none, e) ∈ results) (hcode : e.errorCode = 0)
    {ps : List Int} (hps : consumerPartitions nConsumers (consumerOf s) Q.partitions = .ok ps)
    {p : Int} (hp : p ∈ ps) :
    Q.reader p = ResultTableReader.createReader (response p) rowSchema (UInt32.ofInt p) chunkSize
        (malloc p) ∧
      ChunkQueue.WholeResult (Q.reader p) ((response p).cells true)
        (chunksOf p (logOf (consumerOf s) c.history).popped) ∧
      (chunksOf p (logOf (consumerOf s) c.history).popped).map (fun v => v.chunk.id.toNat) =
        List.range (chunksOf p (logOf (consumerOf s) c.history).popped).length := by
  obtain ⟨n, rfl⟩ := Int.eq_ofNat_of_zero_le (by omega : 0 ≤ nConsumers)
  have hconsumer := hconsumers s
  obtain ⟨Q', hcreate, rfl, rfl, hpart, hreader, hassigned⟩ :=
    createParallel_spec (w := client.workerId) kind capacity chunkSize rowSchema response malloc
      hworkers hrange (by omega) hmax
  obtain rfl := Except.ok.inj (hQ.symm.trans hcreate)
  rw [consumerPartitions_ok (by omega) hconsumer hmax, Except.ok.injEq] at hps
  have hmem : p ∈ consumerLists n (strided client.workerId client.numWorkers client.numPartitions)
      (consumerOf s) := by
    rw [consumerLists, if_pos (by omega), ← hpart, hps]
    exact hp
  have hreads : ∀ p ∈ Q.partitions,
      ReadsRows (Q.reader p) ((response p).cells true) (Q.reader p).read := by
    intro p _
    rw [hreader p]
    exact read_createReader (hcodes p) rowSchema _ chunkSize (malloc p)
  have hwhole := hassigned.delivered (hint.narrow hpart hmax) hcapacity
    (fun p => (response p).cells true) hreads hreach hthread hget hcode hmem
  refine ⟨hreader p, hwhole, hwhole.ids_eq ?_⟩
  rw [hwhole.count]
  exact hint.chunks p ((hassigned.mem_ids _ _).mp hmem).1

/-! ## A read of one partition -/

namespace ResultTableReader

variable {r : ResultTableReader} {schema : RowSchema} {i : Nat} {v : ReadChunk}

theorem ChunkOf.rows_le (h : r.ChunkOf schema i v) (hcolumns : NonDate schema.columnInfo)
    (hrows : ∀ row ∈ v.rows, RowFits schema.columnInfo row) :
    v.rows.length * rowWidth schema.columnInfo ≤ r.chunkSize.toNat := by
  obtain ⟨-, -, ptr, w, hwritten, -⟩ := h
  have hall := writeRows_written (RowsWritten.reset schema ptr r.chunkSize
    (UInt64.ofNat (chunkIdOf i)) r.partition) hrows hwritten
  rw [List.nil_append] at hall
  have hoffset := hall.layout.offset
  have hfits := hall.layout.fits
  rw [hall.size] at hfits
  rw [widths_rows hcolumns hrows] at hoffset
  omega

/-- **The reader of a partition** ends without an error when nothing fails and
the rows fit. -/
theorem read_createReader_ok {response : Response} {size : UInt64} (hresponse : response.Succeeds)
    {malloc : Nat → Option Mem} (hmalloc : ∀ i, malloc i ≠ none)
    (hrows : RowsFit schema size (response.cells true)) (partition : UInt32) :
    ∃ chunks, (createReader response (some schema) partition size malloc).read =
      readerActions chunks none := by
  obtain ⟨hstart, hfetch, hfields⟩ := hresponse
  have hfields : response.fields.length ≠ 0 := by simpa using hfields
  have hfetches : response.fetches true = (response.cells true).map .row := by
    rw [Response.fetches, hfetch]
  obtain ⟨b, conn, hadvance⟩ := S2Connection.advance_ok
    ⟨response, true, none, response.fetches true⟩ hfetches
  obtain ⟨hready, hrest⟩ := S2Connection.advance_spec hadvance
  obtain ⟨chunks, error, hloop⟩ : ∃ chunks error,
      ResultTableReader.readLoop ⟨conn, true, partition, size, some schema, true, ⟨0, ""⟩, malloc⟩
        schema conn.rest.length 0 conn = (chunks, error) := ⟨_, _, rfl⟩
  obtain rfl : error = none := by
    have hok : (ResultTableReader.readLoop
        ⟨conn, true, partition, size, some schema, true, ⟨0, ""⟩, malloc⟩ schema conn.rest.length 0
        conn).2 = none := readLoop_ok hmalloc hready (hrest.trans hfetches) hrows
    rw [hloop] at hok
    exact hok
  refine ⟨chunks, ?_⟩
  simp [ResultTableReader.read, createReader, prepareRead, S2Connection.connect,
    S2Connection.prepare, hstart, hfields, hadvance, S2ClientError.none, readerActions, hloop]

end ResultTableReader

/-- A query that does not fail has no error codes. -/
theorem Response.Succeeds.errorCodes {response : Response} (h : response.Succeeds) :
    response.ErrorCodes where
  start e he := by
    rw [h.start] at he
    cases he
  fetch n e he := by
    rw [h.fetch] at he
    cases he

/-- A run that reads the only partition to its end, in chunks of `size` bytes. -/
structure SingleRead (response : Response) (schema : RowSchema) (size : UInt64) (Q : ChunkQueue)
    (c : ReadConfig ReadChunk Unit) (results : List (Option ReadChunk × S2ClientError)) : Prop where
  create : ChunkQueue.createParallel .streaming ⟨1, 0, 1⟩ 1 size 1 (some schema)
    (fun _ => response) (fun _ _ => some fun _ => 0) = .ok Q
  partitions : Q.partitions = [0]
  kind : Q.kind = .streaming
  queueOf : Q.queueOf 0 = 0
  reader : Q.reader 0 = ResultTableReader.createReader response (some schema) (UInt32.ofInt 0) size
    fun _ => some fun _ => 0
  reach : Reachable sharedMonitor Q.threads (Q.start fun _ => 0) c
  thread : c.thread (.inr ()) = .consumer 0 results .popping
  done : (none, .none) ∈ results
  whole : ChunkQueue.WholeResult (Q.reader 0) (response.cells true)
    (chunksOf 0 (logOf 0 c.history).popped)

theorem exists_singleRead {response : Response} {schema : RowSchema} {size : UInt64}
    (hresponse : response.Succeeds) (hrows : RowsFit schema size (response.cells true)) :
    ∃ Q c results, SingleRead response schema size Q c results := by
  have hone : strided 0 1 1 = [0] := strided_zero_one 1
  obtain ⟨Q, hcreate, hkind, hcapacity, hpart, hreader, hassigned⟩ :=
    createParallel_spec (W := 1) (w := 0) (T := 1) (n := 1) .streaming 1 size (some schema)
      (fun _ => response) (fun _ _ => some fun _ => 0) (by decide) (by decide) (by decide)
      (by decide)
  replace hpart : Q.partitions = [0] := hpart.trans hone
  have hids : consumerLists 1 (strided 0 1 1) 0 = [0] := by
    rw [hone]
    exact pick_single 0
  have hmine : (0 : Int) ∈ consumerLists 1 (strided 0 1 1) 0 := by
    rw [hids]
    exact List.mem_singleton_self 0
  have hreads : ∀ p ∈ Q.partitions, ReadsRows (Q.reader p) (response.cells true) (Q.reader p).read := by
    intro p _
    rw [hreader p]
    exact read_createReader hresponse.errorCodes _ _ _ _
  have hmalloc : ∀ i : Nat, (fun _ : Nat => some fun _ : Nat => (0 : UInt8)) i ≠ none :=
    fun _ => Option.some_ne_none _
  obtain ⟨chunks, hchunks⟩ := ResultTableReader.read_createReader_ok hresponse hmalloc hrows
    (UInt32.ofInt 0)
  have hpos : 0 < Q.capacity := by
    rw [hcapacity]
    exact Nat.one_pos
  obtain ⟨c, results, hreach, hthread, hget⟩ := hassigned.complete (p := 0) hpos
    (fun _ => response.cells true) hkind hpart hids hreads (by rw [hreader 0]; exact hchunks)
  have hnarrow : Q.Narrow (consumerLists 1 (strided 0 1 1)) := by
    intro hmulti
    rw [hkind] at hmulti
    cases hmulti
  have hwhole := hassigned.delivered hnarrow hpos (fun _ => response.cells true) hreads hreach
    hthread hget rfl hmine
  exact ⟨Q, c, results, hcreate, hpart, hkind, ((hassigned.mem_ids 0 0).mp hmine).2, hreader 0,
    hreach, hthread, hget, hwhole⟩

namespace SingleRead

variable {response : Response} {schema : RowSchema} {size : UInt64} {Q : ChunkQueue}
  {c : ReadConfig ReadChunk Unit} {results : List (Option ReadChunk × S2ClientError)} {n : Nat}

theorem inIntRange (h : SingleRead response schema size Q c results)
    (hrows : (response.cells true).length < 2 ^ 31) : Q.InIntRange 1 where
  chunks p hp := by
    rw [h.partitions] at hp
    rw [List.mem_singleton.mp hp, ← h.whole.count]
    exact Nat.lt_of_le_of_lt h.whole.length_le hrows
  capacity hmulti := by
    rw [h.kind] at hmulti
    cases hmulti
  slots hmulti := by
    rw [h.kind] at hmulti
    cases hmulti

theorem length_numbers (h : SingleRead (numbers n) numbersSchema 8 Q c results) :
    (chunksOf 0 (logOf 0 c.history).popped).length = n := by
  have hfits := (numbers_readable n).rowsFit true
  have hsingle : ∀ v ∈ chunksOf 0 (logOf 0 c.history).popped, v.rows.length = 1 := by
    intro v hv
    obtain ⟨i, hi⟩ := List.getElem?_of_mem hv
    obtain ⟨schema, hschema, hchunk⟩ := h.whole.chunks i v hi
    rw [h.reader] at hschema hchunk
    obtain rfl : numbersSchema = schema := Option.some.inj hschema
    have hle : v.rows.length * rowWidth numbersSchema.columnInfo ≤ (8 : UInt64).toNat :=
      hchunk.rows_le hfits.columns fun row hrow => hfits.fits row (by
        rw [← h.whole.rows]
        exact List.mem_flatMap.mpr ⟨v, hv, hrow⟩)
    have hwidth : rowWidth numbersSchema.columnInfo = 8 := by decide
    have hsize : (8 : UInt64).toNat = 8 := by decide
    have hpos := List.length_pos_iff.mpr hchunk.nonempty
    rw [hwidth, hsize] at hle
    omega
  have hlength := congrArg List.length h.whole.rows
  rw [List.length_flatMap, List.map_congr_left hsingle, List.map_const', List.sum_replicate_nat,
    Nat.mul_one] at hlength
  simpa [Response.cells, numbers] using hlength

end SingleRead

theorem exists_numbersRead (n : Nat) :
    ∃ Q c results, SingleRead (numbers n) numbersSchema 8 Q c results :=
  exists_singleRead (numbers_readable n).toSucceeds ((numbers_readable n).rowsFit true)

/-- Three rows in three chunks. -/
theorem complete_or_error_numbers :
    ∃ Q c results, SingleRead (numbers 3) numbersSchema 8 Q c results ∧
      ChunkQueue.WholeResult (Q.reader 0) ((numbers 3).cells true)
        (chunksOf 0 (logOf 0 c.history).popped) ∧
      (chunksOf 0 (logOf 0 c.history).popped).map (fun v => v.chunk.id.toNat) = [0, 1, 2] := by
  obtain ⟨Q, c, results, h⟩ := exists_numbersRead 3
  have hlength := h.length_numbers
  have hlist : consumerPartitions 1 0 [0] = .ok [0] := by
    rw [consumerPartitions_ok (by decide) (by decide) (by decide), pick_single]
  obtain ⟨-, hwhole, hids⟩ := complete_or_error (by decide) (by decide) (by decide) (by decide)
    (by decide) (fun _ => (numbers_readable 3).errorCodes) h.create
    (h.inIntRange (by decide)) (fun _ => by decide) h.reach h.thread h.done rfl
    (by rw [h.partitions]; exact hlist) (List.mem_singleton_self 0)
  rw [hlength] at hids
  exact ⟨Q, c, results, h, hwhole, hids⟩

/-- **The chunk of turn `2 ^ 31`** does not have the number `2 ^ 31`. -/
theorem long_read_misnumbers :
    ∃ Q c results, SingleRead (numbers (2 ^ 31 + 1)) numbersSchema 8 Q c results ∧
      (chunksOf 0 (logOf 0 c.history).popped).map (fun v => v.chunk.id.toNat) ≠
        List.range (chunksOf 0 (logOf 0 c.history).popped).length := by
  obtain ⟨n, hn⟩ : ∃ n, 2 ^ 31 + 1 = n := ⟨_, rfl⟩
  rw [hn]
  obtain ⟨Q, c, results, h⟩ := exists_numbersRead n
  refine ⟨Q, c, results, h, ?_⟩
  intro hids
  have hmap := congrArg (List.map UInt64.toNat) h.whole.ids
  rw [List.map_map, List.map_map, Function.comp_def, Function.comp_def, hids,
    h.length_numbers] at hmap
  have hlast := congrArg (fun l => l[2 ^ 31]?) hmap
  simp only [List.getElem?_map] at hlast
  rw [List.getElem?_range (by omega)] at hlast
  have hnegative : (UInt64.ofNat (chunkIdOf (2 ^ 31))).toNat ≠ 2 ^ 31 := by decide +kernel
  exact hnegative (Option.some.inj hlast).symm

end SasLibclient
