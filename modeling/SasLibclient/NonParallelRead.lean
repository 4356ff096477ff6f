import SasLibclient.CreateChunkQueue
import SasLibclient.Hdat.RowsAccepted

/-!
# Reads that are not parallel

`QueryGetQueue` makes a queue with one reader. The reader prepares or executes
the query without a prefetch, so that the row schema can be read first, and
fetches the first row after that. `Execute` does not look at its parameter
`prefetch`: with the text protocol the first row has been fetched already, and
`Prefetch` replaces it.
-/

namespace SasLibclient

open Monitors QueueItem Bytes Loops

/-! ## Reading rows that fit -/

/-- The rows can be written to a chunk of `size` bytes. -/
structure RowsFit (schema : RowSchema) (size : UInt64) (rows : List (List Cell)) : Prop where
  columns : NonDate schema.columnInfo
  fits : ∀ row ∈ rows, RowFits schema.columnInfo row
  size : ∀ row ∈ rows, rowNeed schema.columnInfo row ≤ size.toNat

theorem RowsFit.of_subset {schema : RowSchema} {size : UInt64} {rows rows' : List (List Cell)}
    (h : RowsFit schema size rows) (hsub : ∀ row ∈ rows', row ∈ rows) :
    RowsFit schema size rows' where
  columns := h.columns
  fits row hrow := h.fits row (hsub row hrow)
  size row hrow := h.size row (hsub row hrow)

namespace S2Connection

variable {conn : S2Connection} {schema : RowSchema} {size : UInt64} {rows before : List (List Cell)}
  {writer : SuperChunkWriter} {n : Nat}

/-- `Advance` does not fail before a row or the end. -/
theorem advance_ok (conn : S2Connection) (h : conn.pending = rows.map .row) :
    ∃ b conn', conn.advance = .ok (b, conn') := by
  unfold advance
  cases rows with
  | nil =>
    rw [h]
    exact ⟨_, _, rfl⟩
  | cons row rows =>
    rw [h]
    exact ⟨_, _, rfl⟩

theorem advance_response {conn' : S2Connection} {b : Bool} (h : conn.advance = .ok (b, conn')) :
    conn'.response = conn.response := by
  unfold advance at h
  split at h
  · obtain ⟨-, rfl⟩ := Prod.mk.inj (Except.ok.inj h)
    rfl
  · obtain ⟨-, rfl⟩ := Prod.mk.inj (Except.ok.inj h)
    rfl
  · cases h

theorem Ready.pending_of_rest (h : conn.Ready) (hrest : conn.rest = rows.map .row) :
    conn.pending = rows.tail.map .row := by
  cases hrow : conn.lastFetchedRow with
  | none =>
    rw [h.rest_eq_nil hrow] at hrest
    rw [h hrow, List.map_eq_nil_iff.mp hrest.symm]
    rfl
  | some row =>
    rw [rest_of_row hrow] at hrest
    cases rows with
    | nil => cases hrest
    | cons row' rows => exact (List.cons.inj hrest).2

/-- `NextChunk` does not fail. -/
theorem nextChunkLoop_ok (hwritten : RowsWritten schema size before writer)
    (hfresh : before = [] → writer.currentChunk.used = 0)
    (hbefore : ∀ row ∈ before, RowFits schema.columnInfo row)
    (hrest : conn.rest = rows.map .row) (hrows : RowsFit schema size rows) :
    ∃ result, nextChunkLoop n writer conn = .ok result := by
  induction n generalizing writer conn before rows with
  | zero => exact ⟨_, rfl⟩
  | succ n ih =>
    rw [nextChunkLoop]
    cases hrow : conn.lastFetchedRow with
    | none => exact ⟨_, rfl⟩
    | some row =>
      rw [rest_of_row hrow] at hrest
      cases rows with
      | nil => cases hrest
      | cons row' rows =>
        simp only [List.map_cons, List.cons.injEq, Fetch.row.injEq] at hrest
        obtain ⟨rfl, hpending⟩ := hrest
        have hrowFits := hrows.fits row List.mem_cons_self
        obtain ⟨b, writer', hwrite⟩ := writeRow_accepted hwritten hfresh hrows.columns hbefore
          hrowFits (hrows.size row List.mem_cons_self)
        obtain ⟨b', conn', hadvance⟩ := advance_ok _ hpending
        obtain ⟨-, hrest'⟩ := advance_spec hadvance
        simp only [hwrite, hadvance]
        cases b with
        | false => exact ⟨_, rfl⟩
        | true =>
          obtain ⟨result, hresult⟩ := ih (writeRow_written hwritten hrowFits hwrite)
            (fun hnil => absurd hnil (by simp))
            (by
              intro row' hrow'
              rcases List.mem_append.mp hrow' with hrow' | hrow'
              · exact hbefore row' hrow'
              · rw [List.mem_singleton.mp hrow']
                exact hrowFits)
            (hrest'.trans hpending)
            (hrows.of_subset fun row' hrow' => List.mem_cons_of_mem _ hrow')
          simp only [hresult]
          exact ⟨_, rfl⟩

end S2Connection

namespace ResultTableReader

variable {r : ResultTableReader} {schema : RowSchema} {conn : S2Connection}
  {rows : List (List Cell)} {n turns : Nat}

/-- The loop of `Read` ends without an error. -/
theorem readLoop_ok (hmalloc : ∀ i, r.malloc i ≠ none) (hready : conn.Ready)
    (hrest : conn.rest = rows.map .row) (hrows : RowsFit schema r.chunkSize rows) :
    (r.readLoop schema n turns conn).2 = none := by
  induction n generalizing turns conn rows with
  | zero => rfl
  | succ n ih =>
    rw [readLoop]
    split
    · rfl
    · split
      · rename_i hnone
        exact absurd hnone (hmalloc turns)
      · rename_i ptr _
        obtain ⟨⟨written, writer, conn'⟩, hloop⟩ := S2Connection.nextChunkLoop_ok
          (n := conn.rest.length) (RowsWritten.reset schema ptr r.chunkSize (UInt64.ofNat (chunkIdOf turns))
            r.partition) (fun _ => rfl) (by simp) hrest hrows
        have hchunk : conn.nextChunk (newChunk ptr r.chunkSize (UInt64.ofNat (chunkIdOf turns)) r.partition)
            schema = .ok (written,
              { writer.currentChunk.chunk with rowCount := UInt64.ofNat written.length }, conn') := by
          rw [S2Connection.nextChunk, hloop]
        obtain ⟨hready', hrest', -⟩ := S2Connection.nextChunkLoop_spec hloop
        rw [hchunk]
        dsimp only
        split
        · rfl
        · -- the rows that are left are some of `rows`
          rw [hrest] at hrest'
          obtain ⟨taken, left, rfl, -, hleft⟩ := List.map_eq_append_iff.mp hrest'
          exact ih (hready' hready) hleft.symm
            (hrows.of_subset fun row hrow => List.mem_append_right _ hrow)

/-- A query has been started; `rows` have not been read. -/
structure Started (r : ResultTableReader) (schema : RowSchema) (rows : List (List Cell)) : Prop where
  parallel : r.isParallel = false
  rowSchema : r.rowSchema = some schema
  error : r.error = .none
  ready : r.conn.Ready
  rest : r.conn.rest = rows.map .row

/-- **The reader of a query** that has been started pushes the rows not read. -/
theorem Started.read (h : r.Started schema rows) (hmalloc : ∀ i, r.malloc i ≠ none)
    (hrows : RowsFit schema r.chunkSize rows) :
    ∃ chunks, r.read = readerActions chunks none ∧ ReadsRows r rows r.read := by
  obtain ⟨hparallel, hschema, herror, hready, hrest⟩ := h
  obtain ⟨chunks, error, hloop⟩ : ∃ chunks error,
      r.readLoop schema r.conn.rest.length 0 r.conn = (chunks, error) := ⟨_, _, rfl⟩
  have hnone : error = none := by
    have hok : (r.readLoop schema r.conn.rest.length 0 r.conn).2 = none :=
      readLoop_ok hmalloc hready hrest hrows
    rw [hloop] at hok
    exact hok
  have hread : r.read = readerActions chunks none := by
    unfold ResultTableReader.read
    rw [hschema]
    simp [hparallel, herror, S2ClientError.none, hloop, hnone, readerActions]
  have hcodes : FetchErrors r.conn.rest := by
    intro e he
    rw [hrest] at he
    simp at he
  obtain ⟨hchunks, -, hall⟩ := readLoop_spec hready (Nat.le_refl _) hcodes hloop
  refine ⟨chunks, hread, Or.inr ⟨chunks, none, hread, ?_, by simp, ?_⟩⟩
  · intro i v hv
    have hchunk := hchunks i v hv
    rw [Nat.zero_add] at hchunk
    exact ⟨schema, hschema, hchunk⟩
  · intro _
    have hrows := hrest.symm.trans (hall hnone)
    have hinj : Function.Injective Fetch.row := fun a b hab => Fetch.row.inj hab
    exact (List.map_injective_iff.mpr hinj hrows).symm

end ResultTableReader

/-! ## The chunk queue -/

def onlyConsumer (i : Nat) : List Int := if i = 0 then [0] else []

/-- The rows that are left when the readers start. -/
def Response.leftRows (response : Response) (usePreparedProtocol : Bool) : List (List Cell) :=
  if usePreparedProtocol then response.cells true else (response.cells false).tail

/-- The schema of the query. -/
def Response.rowSchema (response : Response) : RowSchema :=
  fieldsToRowSchema response.fields response.fields_lt

theorem createQueues_single (client : S2Client) (capacity : Nat) :
    ∃ v, StreamingQueue.createQueues ReadChunk client capacity 1 false =
      .ok ([ThreadSafeSimpleQueue.create capacity 1], v) := by
  refine ⟨setConsumer 0 [0] (List.replicate client.numPartitions (-1)), ?_⟩
  simp only [StreamingQueue.createQueues, Bool.false_eq_true, if_false]
  exact createConsumerQueues_single _ 0 _

section Create

variable {client : S2Client} {chunkSize : UInt64} {queueCapacity : Int} {response : Response}
  {malloc : Nat → Option Mem} {schema : RowSchema} {rows : List (List Cell)}
  {reader : ResultTableReader} {capacity : Nat}

/-- The chunk queue of one reader. -/
def ChunkQueue.single (capacity : Nat) (reader : ResultTableReader) : ChunkQueue where
  kind := .streaming
  capacity := capacity
  queues := [.simple (ThreadSafeSimpleQueue.create capacity 1)]
  partitions := [0]
  queueOf := fun _ => 0
  reader := fun _ => reader

theorem single_assigned (capacity : Nat) (hpartition : reader.partition = 0) (herror : reader.error = .none) :
    (ChunkQueue.single capacity reader).Assigned onlyConsumer := by
  constructor
  · intro i
    cases i with
    | zero => rfl
    | succ i => rfl
  · intro i p
    unfold onlyConsumer
    by_cases hi : i = 0
    · simp [ChunkQueue.single, hi]
    · simp [ChunkQueue.single, hi, Ne.symm hi]
  · intro i
    unfold onlyConsumer
    split
    · exact List.nodup_singleton 0
    · exact List.nodup_nil
  · intro p hp
    rw [List.mem_singleton.mp hp]
    show (reader.partition.toNat : Int) = 0
    rw [hpartition]
    rfl
  · exact fun _ => herror

/-- A query that does not fail. -/
structure Response.Succeeds (response : Response) : Prop where
  start : response.startError = none
  fetch : response.failAfter = none
  fields : response.fields ≠ []

/-- **What is left to read** when the reader starts: with the text protocol not
the first row. -/
theorem queryGetQueue_spec (client : S2Client) (chunkSize : UInt64) (usePreparedProtocol : Bool)
    (malloc : Nat → Option Mem) (hcapacity : 1 ≤ queueCapacity) (hresponse : response.Succeeds) :
    ∃ reader, ChunkQueue.queryGetQueue client chunkSize queueCapacity usePreparedProtocol response
        malloc = .ok (.single queueCapacity.toNat reader) ∧
      reader.Started response.rowSchema (response.leftRows usePreparedProtocol) ∧
      reader.partition = 0 ∧ reader.malloc = malloc ∧ reader.chunkSize = chunkSize := by
  obtain ⟨hstart, hfetch, hfields⟩ := hresponse
  have hfields : response.fields.length ≠ 0 := by simpa using hfields
  obtain ⟨v, hqueues⟩ := createQueues_single client queueCapacity.toNat
  have hfetches : ∀ binary, response.fetches binary = (response.cells binary).map .row := by
    intro binary
    rw [Response.fetches, hfetch]
  have hnot : ¬ queueCapacity < 1 := by omega
  cases usePreparedProtocol with
  | true =>
    obtain ⟨b, conn, hadvance⟩ := S2Connection.advance_ok
      ⟨response, true, none, response.fetches true⟩ (hfetches true)
    obtain ⟨hready, hrest⟩ := S2Connection.advance_spec hadvance
    refine ⟨⟨conn, false, 0, chunkSize, some response.rowSchema, true, .none, malloc⟩, ?_,
      ⟨rfl, rfl, rfl, hready, hrest.trans (hfetches true)⟩, rfl, rfl, rfl⟩
    simp [ChunkQueue.queryGetQueue, hnot, ChunkQueue.createNonParallel, hqueues, Except.mapError,
      bind, Except.bind, ResultTableReader.prepareRead, ResultTableReader.createReaderNonParallel,
      S2Connection.connect, S2Connection.prepare, hstart, hfields, S2ClientError.none,
      ResultTableReader.updateRowSchema, ResultTableReader.prefetch, hadvance, ChunkQueue.single,
      Response.rowSchema]
  | false =>
    -- `Execute` fetches the first row, and `Prefetch` the second
    obtain ⟨b₁, conn₁, hadvance₁⟩ := S2Connection.advance_ok
      ⟨response, false, none, response.fetches false⟩ (hfetches false)
    obtain ⟨hready₁, hrest₁⟩ := S2Connection.advance_spec hadvance₁
    have hresponse₁ : conn₁.response = response := S2Connection.advance_response hadvance₁
    have hpending₁ := hready₁.pending_of_rest (hrest₁.trans (hfetches false))
    obtain ⟨b₂, conn₂, hadvance₂⟩ := S2Connection.advance_ok _ hpending₁
    obtain ⟨hready₂, hrest₂⟩ := S2Connection.advance_spec hadvance₂
    refine ⟨⟨conn₂, false, 0, chunkSize, some response.rowSchema, false, .none, malloc⟩, ?_,
      ⟨rfl, rfl, rfl, hready₂, hrest₂.trans hpending₁⟩, rfl, rfl, rfl⟩
    simp [ChunkQueue.queryGetQueue, hnot, ChunkQueue.createNonParallel, hqueues, Except.mapError,
      bind, Except.bind, ResultTableReader.prepareRead, ResultTableReader.createReaderNonParallel,
      S2Connection.connect, S2Connection.execute, hstart, hfields, S2ClientError.none,
      ResultTableReader.updateRowSchema, ResultTableReader.prefetch, hadvance₁, hresponse₁,
      hadvance₂, ChunkQueue.single, Response.rowSchema]

/-! ## What the consumer gets -/

/-- The consumers get all `rows`: some run ends, and in every run, once `Get`
has returned no chunk, it has reported no error and the chunks hold the rows. -/
structure ChunkQueue.Delivers (Q : ChunkQueue) (rows : List (List Cell)) : Prop where
  complete : ∃ (c : ReadConfig ReadChunk Unit) (results : List (Option ReadChunk × S2ClientError)),
    Reachable sharedMonitor Q.threads (Q.start fun _ => 0) c ∧
      c.thread (.inr ()) = .consumer 0 results .popping ∧ (none, .none) ∈ results
  all : ∀ (ς : Type) [DecidableEq ς] (c : ReadConfig ReadChunk ς),
    Reachable sharedMonitor Q.threads (Q.start fun _ => 0) c →
      ∀ s i results state e, c.thread (.inr s) = .consumer i results state → (none, e) ∈ results →
        e.errorCode = 0 ∧ WholeResult (Q.reader 0) rows (logOf 0 c.history).popped

/-- The rows that the consumers get are those not read when the reader
starts. -/
theorem single_delivers_iff {rows' : List (List Cell)} (rows : List (List Cell))
    (hcapacity : 0 < capacity)
    (hstarted : reader.Started schema rows') (hpartition : reader.partition = 0)
    (hmalloc : ∀ i, reader.malloc i ≠ none) (hrows : RowsFit schema reader.chunkSize rows') :
    (ChunkQueue.single capacity reader).Delivers rows ↔ rows = rows' := by
  obtain ⟨chunks, hread, hreads⟩ := hstarted.read hmalloc hrows
  have hassigned := single_assigned capacity hpartition hstarted.error
  have hnarrow : (ChunkQueue.single capacity reader).Narrow onlyConsumer := nofun
  have hreads' : ∀ p ∈ (ChunkQueue.single capacity reader).partitions,
      ReadsRows ((ChunkQueue.single capacity reader).reader p) rows'
        ((ChunkQueue.single capacity reader).reader p).read := fun _ _ => hreads
  have hcomplete := hassigned.complete (p := 0) hcapacity (fun _ => rows') rfl rfl rfl hreads' hread
  have hfree : ∀ p ∈ (ChunkQueue.single capacity reader).partitions, ∀ e,
      .setError e ∉ ((ChunkQueue.single capacity reader).reader p).read := by
    intro p _ e he
    have hmem : ReaderAction.setError e ∈ readerActions chunks none := hread ▸ he
    simp [readerActions] at hmem
  have hall : ∀ (ς : Type) [DecidableEq ς] (c : ReadConfig ReadChunk ς),
      Reachable sharedMonitor (ChunkQueue.single capacity reader).threads
        ((ChunkQueue.single capacity reader).start fun _ => 0) c →
      ∀ s i results state e, c.thread (.inr s) = .consumer i results state → (none, e) ∈ results →
        e.errorCode = 0 ∧ ChunkQueue.WholeResult reader rows' (logOf 0 c.history).popped := by
    intro ς _ c hreach s i results state e hthread hget
    obtain ⟨hquiet, hpopped⟩ := hassigned.quiet hnarrow hcapacity (fun _ => rows') hreads' hfree hreach
    have hcode := hquiet s i results state hthread (none, e) hget
    have hwhole := hassigned.delivered hnarrow hcapacity (fun _ => rows') hreads' hreach hthread hget hcode
      (p := 0) (List.mem_singleton_self 0)
    rw [hpopped 0 0 rfl] at hwhole
    exact ⟨hcode, hwhole⟩
  constructor
  · intro hdelivers
    obtain ⟨c, results, hreach, hthread, hget⟩ := hcomplete
    have hmine := (hall Unit c hreach () 0 results .popping .none hthread hget).2.rows
    have hclaimed := (hdelivers.all Unit c hreach () 0 results .popping .none hthread hget).2.rows
    exact hclaimed.symm.trans hmine
  · rintro rfl
    exact ⟨hcomplete, hall⟩

/-- A query whose rows can be read into chunks of `chunkSize` bytes. -/
structure Response.Readable (response : Response) (chunkSize : UInt64) : Prop
    extends response.Succeeds where
  types : ∀ field ∈ response.fields, field.type.isNonDate = true
  agrees : ∀ row ∈ response.rows, RowAgrees response.sscanf response.fields row
  fits : ∀ row ∈ response.rows, RowFits response.rowSchema.columnInfo (binaryRow row)
  size : ∀ row ∈ response.rows, rowSize response.rowSchema (binaryRow row) ≤ chunkSize

theorem Response.Readable.rowsFit (h : response.Readable chunkSize) (binary : Bool) :
    RowsFit response.rowSchema chunkSize (response.cells binary) := by
  have hneed : ∀ row ∈ response.rows,
      rowNeed response.rowSchema.columnInfo (binaryRow row) ≤ chunkSize.toNat := by
    intro row hrow
    rw [← toNat_rowSize (h.fits row hrow)]
    exact UInt64.le_iff_toNat_le.mp (h.size row hrow)
  have hcolumns : NonDate response.rowSchema.columnInfo := by
    intro column hcolumn
    obtain ⟨field, hfield, rfl⟩ := List.mem_map.mp hcolumn
    exact fieldToColumn_of_isNonDate (h.types field hfield)
  have hrow : ∀ row ∈ response.cells binary, RowFits response.rowSchema.columnInfo row ∧
      rowNeed response.rowSchema.columnInfo row ≤ chunkSize.toNat := by
    intro row hrow
    cases binary with
    | true =>
      obtain ⟨data, hdata, rfl⟩ := List.mem_map.mp hrow
      exact ⟨h.fits data hdata, hneed data hdata⟩
    | false =>
      obtain ⟨data, hdata, rfl⟩ := List.mem_map.mp hrow
      obtain ⟨hfits, hsame⟩ := (h.agrees data hdata).textRow_fits response.uninitialized h.types
        (h.fits data hdata)
      exact ⟨hfits, (Nat.le_of_eq hsame).trans (hneed data hdata)⟩
  exact ⟨hcolumns, fun row hr => (hrow row hr).1, fun row hr => (hrow row hr).2⟩

/-- The rows left are all rows with the binary protocol, and otherwise only
when there are none. -/
theorem leftRows_eq_iff (usePreparedProtocol : Bool) :
    response.cells true = response.leftRows usePreparedProtocol ↔
      usePreparedProtocol = true ∨ response.rows = [] := by
  cases usePreparedProtocol with
  | true => simp [Response.leftRows]
  | false =>
    constructor
    · intro h
      right
      have hlength := congrArg List.length h
      simp only [Response.leftRows, Response.cells, Bool.false_eq_true, if_true, if_false,
        List.length_map, List.length_tail] at hlength
      exact List.length_eq_zero_iff.mp (by omega)
    · rintro (h | h)
      · cases h
      · simp [Response.leftRows, Response.cells, h]

/-- The chunk queue of `QueryGetQueue` delivers what is left. -/
theorem queryGetQueue_delivers_iff (client : S2Client) (usePreparedProtocol : Bool)
    (hcapacity : 1 ≤ queueCapacity) (hmalloc : ∀ i, malloc i ≠ none)
    (hresponse : response.Readable chunkSize) (rows : List (List Cell)) :
    (∃ Q, ChunkQueue.queryGetQueue client chunkSize queueCapacity usePreparedProtocol response
        malloc = .ok Q ∧ Q.Delivers rows) ↔
      rows = response.leftRows usePreparedProtocol := by
  obtain ⟨reader, hcreate, hstarted, hpartition, rfl, rfl⟩ :=
    queryGetQueue_spec client chunkSize usePreparedProtocol malloc hcapacity hresponse.toSucceeds
  have hrows : RowsFit response.rowSchema reader.chunkSize
      (response.leftRows usePreparedProtocol) := by
    cases usePreparedProtocol with
    | true => exact hresponse.rowsFit true
    | false => exact (hresponse.rowsFit false).of_subset fun row hrow => List.mem_of_mem_tail hrow
  have hiff := single_delivers_iff rows (by omega : 0 < queueCapacity.toNat)
    hstarted hpartition hmalloc hrows
  rw [← hiff]
  constructor
  · rintro ⟨Q, hQ, hdelivers⟩
    obtain rfl := Except.ok.inj (hQ.symm.trans hcreate)
    exact hdelivers
  · intro hdelivers
    exact ⟨_, hcreate, hdelivers⟩

end Create

def numbersSchema : RowSchema := (numbers 0).rowSchema

theorem numbers_rowSchema (n : Nat) : (numbers n).rowSchema = numbersSchema := rfl

theorem numbers_readable (n : Nat) : (numbers n).Readable 8 := by
  have hrow : ∀ row ∈ (numbers n).rows, row = [some ⟨[5, 0, 0, 0, 0, 0, 0, 0], [53]⟩] :=
    fun _ hrow => List.eq_of_mem_replicate hrow
  have hcell : CellFits ⟨.int64, 8, "id"⟩ ⟨some [5, 0, 0, 0, 0, 0, 0, 0], 8⟩ := by
    constructor
    · intro htype
      cases htype
    · intro htype
      cases htype
  refine ⟨⟨rfl, rfl, List.cons_ne_nil _ _⟩, ?_, ?_, ?_, ?_⟩
  · intro field hfield
    rw [List.mem_singleton.mp hfield]
    rfl
  · intro row hmem
    rw [hrow row hmem]
    refine List.Forall₂.cons ?_ List.Forall₂.nil
    intro d hd
    obtain rfl := Option.some.inj hd
    exact ⟨rfl, rfl⟩
  · intro row hmem
    rw [hrow row hmem]
    refine ⟨List.Forall₂.cons hcell List.Forall₂.nil, ?_⟩
    rw [numbers_rowSchema]
    decide
  · intro row hmem
    rw [hrow row hmem, numbers_rowSchema]
    decide +kernel

end SasLibclient
