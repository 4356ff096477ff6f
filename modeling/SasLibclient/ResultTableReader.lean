import SasLibclient.Queue.ThreadSafeQueue
import SasLibclient.S2Connection

/-!
# `ResultTableReader` (`result_table_reader.cpp`)

`Read` is the code of a reader's thread. What it does depends on the fetches,
on `malloc` and on the rows only, not on the queue; so it is the list of the
calls it makes: chunks pushed, an error stored in `m_error`, `DeleteProducer`.
`StopReading` is never called.
-/

namespace SasLibclient

open Monitors QueueItem Bytes

/-- The `uint64_t` of the `int` counter `chunkId` after so many turns of the loop
of `Read`. -/
def chunkIdOf (turns : Nat) : Nat := (int32 turns % 2 ^ 64).toNat

theorem chunkIdOf_eq {turns : Nat} (h : turns < 2 ^ 31) : chunkIdOf turns = turns := by
  rw [chunkIdOf, int32_natCast h]
  omega

/-- The first id that is negative as an `int` is that of turn `2 ^ 31`. -/
theorem chunkIdOf_eq_of_lt {turns : Nat} (hle : turns ≤ 2 ^ 31) (h : chunkIdOf turns < 2 ^ 31) :
    chunkIdOf turns = turns := by
  rcases Nat.lt_or_eq_of_le hle with hlt | rfl
  · exact chunkIdOf_eq hlt
  · have hnegative : ¬ chunkIdOf (2 ^ 31) < 2 ^ 31 := by decide +kernel
    exact absurd h hnegative

theorem toNat_chunkIdOf {turns : Nat} (h : turns < 2 ^ 31) :
    (UInt64.ofNat (chunkIdOf turns)).toNat = turns := by
  rw [chunkIdOf_eq h, UInt64.toNat_ofNat', Nat.mod_eq_of_lt (by omega)]

/-- A chunk on its way to the queue, with the turn of the loop of `Read` that made
it and the rows that `NextChunk` wrote. -/
structure ReadChunk where
  chunk : Chunk
  turn : Nat
  rows : List (List Cell)

instance : QueueItem ReadChunk where
  itemId v := chunkIdOf v.turn
  partitionId v := v.chunk.partitionId.toNat

/-- A call of the thread that other threads can see. -/
inductive ReaderAction (T : Type) where
  | push (v : T)
  | setError (e : S2ClientError)
  | deleteProducer
  deriving DecidableEq, Repr

structure ResultTableReader where
  conn : S2Connection
  isParallel : Bool
  partition : UInt32
  chunkSize : UInt64
  rowSchema : Option RowSchema
  usePreparedProtocol : Bool
  error : S2ClientError
  /-- the memory that `malloc` returns for each chunk -/
  malloc : Nat → Option Mem

/-- The handlers of `Read`. -/
def ReadException.toError : ReadException → S2ClientError
  | .invalidArgument what => ⟨s2cErrorUnknownFailure, what⟩
  | .badAlloc => ⟨s2cErrorMemoryAllocation, "Memory allocation error"⟩
  | .s2 error => error

namespace ResultTableReader

/-- `CreateReader` -/
def createReader (response : Response) (rowSchema : Option RowSchema) (partition : UInt32)
    (size : UInt64) (malloc : Nat → Option Mem) : ResultTableReader where
  conn := S2Connection.connect response
  isParallel := true
  partition := partition
  chunkSize := size
  rowSchema := rowSchema
  usePreparedProtocol := true
  error := S2ClientError.none
  malloc := malloc

/-- `CreateReaderNonParallel` -/
def createReaderNonParallel (response : Response) (rowSchema : Option RowSchema) (size : UInt64)
    (usePreparedProtocol : Bool) (malloc : Nat → Option Mem) : ResultTableReader where
  conn := S2Connection.connect response
  isParallel := false
  partition := 0
  chunkSize := size
  rowSchema := rowSchema
  usePreparedProtocol := usePreparedProtocol
  error := S2ClientError.none
  malloc := malloc

/-- `PrepareRead` catches an `S2ClientError` only. -/
def prepareRead (shouldPrefetch : Bool) (r : ResultTableReader) :
    Except ReadException (ResultTableReader × List (ReaderAction ReadChunk)) :=
  match
    if r.usePreparedProtocol then
      r.conn.prepare true shouldPrefetch
    else
      r.conn.execute shouldPrefetch
  with
  | .ok (_, conn) => .ok ({ r with conn := conn }, [])
  | .error (.s2 e) => .ok ({ r with error := e }, [.setError e])
  | .error e => .error e

/-- `UpdateRowSchema`; a query without a result set has no metadata. -/
def updateRowSchema (r : ResultTableReader) : Except ReadException ResultTableReader :=
  if r.conn.response.fields.length = 0 then
    .error (.s2 S2ClientError.none)
  else
    .ok { r with
      rowSchema := some (fieldsToRowSchema r.conn.response.fields r.conn.response.fields_lt) }

/-- `Prefetch` -/
def prefetch (r : ResultTableReader) : Except ReadException ResultTableReader :=
  match r.conn.advance with
  | .ok (_, conn) => .ok { r with conn := conn }
  | .error e => .error e

/-- The loop of `Read`: the chunks it pushes, and the error it ends with. The
first argument bounds the turns, the second one counts them. -/
def readLoop (r : ResultTableReader) (rowSchema : RowSchema) :
    Nat → Nat → S2Connection → List ReadChunk × Option S2ClientError
  | 0, _, _ => ([], none)
  | n + 1, turns, conn =>
    if !conn.hasNextRow then
      ([], none)
    else
      match r.malloc turns with
      | none =>
        ([], some ⟨s2cErrorMemoryAllocation,
          "ResultTableReader cannot allocate chunk size: " ++ toString r.chunkSize⟩)
      | some ptr =>
        match conn.nextChunk (newChunk ptr r.chunkSize (UInt64.ofNat (chunkIdOf turns)) r.partition)
          rowSchema with
        | .error e => ([], some e.toError)
        | .ok (rows, chunk, conn) =>
          if rows.length = 0 then
            ([], none)
          else
            let (chunks, error) := readLoop r rowSchema n (turns + 1) conn
            (⟨chunk, turns, rows⟩ :: chunks, error)

/-- The calls of `Read`; an exception that `PrepareRead` lets through ends the
process. -/
def read (r : ResultTableReader) : List (ReaderAction ReadChunk) :=
  match r.rowSchema with
  | none =>
    [.setError ⟨s2cErrorUnknownFailure, "Failed to get RowSchema from the queue"⟩, .deleteProducer]
  | some rowSchema =>
    match if r.isParallel then r.prepareRead true else .ok (r, []) with
    | .error _ => []
    | .ok (r, actions) =>
      if r.error.errorCode ≠ 0 then
        actions ++ [.deleteProducer]
      else
        let (chunks, error) := r.readLoop rowSchema r.conn.rest.length 0 r.conn
        actions ++ chunks.map .push ++ (error.map .setError).toList ++ [.deleteProducer]

end ResultTableReader

/-! ## The lists of calls -/

variable {T : Type} [QueueItem T]

/-- The calls of a thread that pushes `chunks` and ends with `error`. -/
def readerActions (chunks : List T) (error : Option S2ClientError) : List (ReaderAction T) :=
  chunks.map .push ++ (error.map .setError).toList ++ [.deleteProducer]

/-- The number of chunks that a thread pushes. -/
def pushCount (actions : List (ReaderAction T)) : Nat :=
  actions.countP fun
    | .push _ => true
    | _ => false

omit [QueueItem T] in
theorem pushCount_readerActions (chunks : List T) (error : Option S2ClientError) :
    pushCount (readerActions chunks error) = chunks.length := by
  have hpushes : List.countP ((fun | .push _ => true | _ => false) ∘ ReaderAction.push) chunks =
      chunks.length := List.countP_eq_length.mpr fun _ _ => rfl
  unfold pushCount readerActions
  rw [List.countP_append, List.countP_append, List.countP_map, hpushes]
  cases error <;> rfl

/-- The chunks have the partition `p` and are numbered as `Read` counts. -/
def Numbers (p : Int) (chunks : List T) : Prop :=
  ∀ i v, chunks[i]? = some v → partitionId v = p ∧ itemId v = chunkIdOf i

namespace ResultTableReader

variable {r : ResultTableReader} {rowSchema : RowSchema} {conn : S2Connection} {n turns : Nat}
  {chunks : List ReadChunk} {error : Option S2ClientError}

/-- The chunk of this turn of the reader holds exactly its rows. -/
structure ChunkOf (r : ResultTableReader) (rowSchema : RowSchema) (turns : Nat) (v : ReadChunk) :
    Prop where
  turn : v.turn = turns
  nonempty : v.rows ≠ []
  written : ∃ ptr w, writeRows v.rows (SuperChunkWriter.reset
    (newChunk ptr r.chunkSize (UInt64.ofNat (chunkIdOf turns)) r.partition) rowSchema) = some w ∧
    v.chunk = { w.currentChunk.chunk with rowCount := UInt64.ofNat v.rows.length }

theorem ChunkOf.header {v : ReadChunk} (h : r.ChunkOf rowSchema turns v) :
    v.chunk.header = (r.chunkSize, UInt64.ofNat (chunkIdOf turns), r.partition) := by
  obtain ⟨ptr, w, hwritten, hchunk⟩ := h.written
  rw [hchunk]
  exact header_writeRows hwritten

/-! ### The errors -/

/-- The code of every exception of `WriteRow` is not 0. -/
theorem writeRow_error {row : List Cell} {w : SuperChunkWriter} {e : WriteError}
    (h : w.writeRow row = .error e) : e.toException.toError.errorCode ≠ 0 := by
  unfold SuperChunkWriter.writeRow at h
  dsimp only at h
  split at h
  · split at h
    · obtain rfl := Except.error.inj h
      show s2cErrorUnknownFailure ≠ 0
      decide
    · cases h
  · split at h
    · cases h
    · rename_i e' hcolumns
      obtain rfl := Except.error.inj h
      obtain ⟨e'', rfl, hcode⟩ := SuperChunkWriter.writeColumns_error hcolumns
      exact hcode

/-- Failing fetches of the client library have an error code. -/
def FetchErrors (fetches : List Fetch) : Prop :=
  ∀ e, Fetch.fail (.s2 e) ∈ fetches → e.errorCode ≠ 0

theorem advance_error {e : ReadException} (hcodes : FetchErrors conn.pending)
    (h : conn.advance = .error e) : e.toError.errorCode ≠ 0 := by
  obtain ⟨more, hpending⟩ := S2Connection.advance_fail h
  rw [hpending] at hcodes
  cases e with
  | invalidArgument what =>
    show s2cErrorUnknownFailure ≠ 0
    decide
  | badAlloc => decide
  | s2 error => exact hcodes error (by simp)

theorem nextChunkLoop_error {w : SuperChunkWriter} {e : ReadException}
    (hcodes : FetchErrors conn.pending) (h : S2Connection.nextChunkLoop n w conn = .error e) :
    e.toError.errorCode ≠ 0 := by
  induction n generalizing w conn with
  | zero => cases h
  | succ n ih =>
    rw [S2Connection.nextChunkLoop] at h
    split at h
    · cases h
    · split at h
      · rename_i hwrite
        obtain rfl := Except.error.inj h
        exact writeRow_error hwrite
      · cases h
      · split at h
        · rename_i hadvance
          obtain rfl := Except.error.inj h
          exact advance_error hcodes hadvance
        · rename_i b conn₁ hadvance
          obtain ⟨_, hrest⟩ := S2Connection.advance_spec hadvance
          have hpending : FetchErrors conn₁.pending := by
            intro e' he'
            apply hcodes
            rw [← hrest]
            simp [S2Connection.rest, he']
          split at h
          · rename_i hloop
            obtain rfl := Except.error.inj h
            exact ih hpending hloop
          · cases h

/-! ### The loop -/

theorem readLoop_of_no_row (h : conn.lastFetchedRow = none) :
    r.readLoop rowSchema n turns conn = ([], none) := by
  cases n with
  | zero => rfl
  | succ n => simp [readLoop, S2Connection.hasNextRow, h]

/-- **The loop of `Read`** pushes the rows in order, and all of them when it
ends without an error. -/
theorem readLoop_spec (hready : conn.Ready) (hn : conn.rest.length ≤ n)
    (hcodes : FetchErrors conn.rest)
    (h : r.readLoop rowSchema n turns conn = (chunks, error)) :
    (∀ i v, chunks[i]? = some v → r.ChunkOf rowSchema (turns + i) v) ∧
    (∀ e, error = some e → e.errorCode ≠ 0) ∧
    (error = none → conn.rest = (chunks.flatMap ReadChunk.rows).map .row) := by
  induction n generalizing turns conn chunks with
  | zero =>
    obtain ⟨rfl, rfl⟩ := Prod.mk.inj h
    have hnil := List.length_eq_zero_iff.mp (Nat.le_zero.mp hn)
    simp [hnil]
  | succ n ih =>
    rw [readLoop] at h
    split at h
    · -- `HasNextRow` is false
      rename_i hnext
      obtain ⟨rfl, rfl⟩ := Prod.mk.inj h
      have hnone : conn.lastFetchedRow = none := by
        simpa [S2Connection.hasNextRow] using hnext
      simp [hready.rest_eq_nil hnone]
    · rename_i hnext
      split at h
      · obtain ⟨rfl, rfl⟩ := Prod.mk.inj h
        simp [s2cErrorMemoryAllocation]
      · rename_i ptr hmalloc
        split at h
        · rename_i e hchunk
          obtain ⟨rfl, rfl⟩ := Prod.mk.inj h
          have hpending : FetchErrors conn.pending := by
            intro e' he'
            exact hcodes e' (by simp [S2Connection.rest, he'])
          have hcode : e.toError.errorCode ≠ 0 := by
            unfold S2Connection.nextChunk at hchunk
            split at hchunk
            · rename_i hloop
              obtain rfl := Except.error.inj hchunk
              exact nextChunkLoop_error hpending hloop
            · cases hchunk
          simp [hcode]
        · rename_i rows chunk conn₁ hchunk
          have hfilled := S2Connection.nextChunk_spec hready rfl hchunk
          have hne := hfilled.nonempty (by simpa using hnext)
          have hpos : 0 < rows.length := List.length_pos_iff.mpr hne
          have hrest := hfilled.rest
          rw [if_neg (by omega)] at h
          obtain ⟨rfl, herror⟩ := Prod.mk.inj h
          have hshorter : conn₁.rest.length ≤ n := by
            have hlength := congrArg List.length hrest
            simp only [List.length_append, List.length_map] at hlength
            omega
          obtain ⟨hchunks, herrors, hall⟩ := ih hfilled.ready hshorter
            (fun e' he' => hcodes e' (by rw [hrest]; simp [he'])) (Prod.ext rfl herror)
          refine ⟨?_, herrors, ?_⟩
          · intro i v hv
            cases i with
            | zero =>
              obtain rfl := Option.some.inj hv
              obtain ⟨w, hw, hchunk⟩ := hfilled.written
              exact ⟨rfl, hne, ptr, w, hw, hchunk⟩
            | succ i =>
              have hnext := hchunks i v hv
              rw [Nat.add_assoc, Nat.add_comm 1 i] at hnext
              exact hnext
          · intro hnone
            rw [hrest, hall hnone]
            simp

end ResultTableReader

/-! ## The reader of a partition -/

/-- Failures of the client library have an error code. -/
structure Response.ErrorCodes (response : Response) : Prop where
  start : ∀ e, response.startError = some e → e.errorCode ≠ 0
  fetch : ∀ n e, response.failAfter = some (n, .s2 e) → e.errorCode ≠ 0

theorem Response.ErrorCodes.fetches {response : Response} (h : response.ErrorCodes)
    (binary : Bool) : ResultTableReader.FetchErrors (response.fetches binary) := by
  intro e he
  unfold Response.fetches at he
  split at he
  · simp at he
  · rename_i n e' hfail
    simp only [List.mem_append, List.mem_map, List.mem_singleton, Fetch.fail.injEq] at he
    rcases he with ⟨row, _, hrow⟩ | rfl
    · cases hrow
    · exact h.fetch n e hfail

theorem Response.fetches_eq_cells {response : Response} {binary : Bool} {rows : List (List Cell)}
    (h : response.fetches binary = rows.map .row) : response.cells binary = rows := by
  have hinj : Function.Injective Fetch.row := by
    intro a b hab
    exact Fetch.row.inj hab
  unfold Response.fetches at h
  split at h
  · exact List.map_injective_iff.mpr hinj h
  · rename_i n e hfail
    have hmem : Fetch.fail e ∈ rows.map Fetch.row := by
      rw [← h]
      simp
    simp at hmem

/-- What `Read` does with the rows of a query: the process ends, or the chunks
hold rows of the result from the first on, and all of them when there is no
error. -/
def ReadsRows (r : ResultTableReader) (rows : List (List Cell))
    (actions : List (ReaderAction ReadChunk)) : Prop :=
  actions = [] ∨ ∃ chunks error, actions = readerActions chunks error ∧
    (∀ i v, chunks[i]? = some v → ∃ rowSchema, r.rowSchema = some rowSchema ∧
      r.ChunkOf rowSchema i v) ∧
    (∀ e, error = some e → e.errorCode ≠ 0) ∧
    (error = none → chunks.flatMap ReadChunk.rows = rows)

theorem readsRows_error (r : ResultTableReader) (rows : List (List Cell)) {e : S2ClientError}
    (he : e.errorCode ≠ 0) : ReadsRows r rows [.setError e, .deleteProducer] := by
  right
  refine ⟨[], some e, rfl, by simp, ?_, by simp⟩
  rintro e' h
  obtain rfl := Option.some.inj h
  exact he

/-- The calls of the loop on a connection that has the rows of the result. -/
theorem readsRows_loop {r : ResultTableReader} (r' : ResultTableReader) {rowSchema : RowSchema} {binary : Bool}
    (hschema : r.rowSchema = some rowSchema) (hready : r'.conn.Ready)
    (hcodes : r.conn.response.ErrorCodes)
    (hrest : r'.conn.rest = r.conn.response.fetches binary)
    (hsize : r'.chunkSize = r.chunkSize) (hpartition : r'.partition = r.partition) :
    ReadsRows r (r.conn.response.cells binary)
      (readerActions (r'.readLoop rowSchema r'.conn.rest.length 0 r'.conn).1
        (r'.readLoop rowSchema r'.conn.rest.length 0 r'.conn).2) := by
  right
  have herrors : ResultTableReader.FetchErrors r'.conn.rest := by
    rw [hrest]
    exact hcodes.fetches binary
  obtain ⟨hchunks, herror, hall⟩ := ResultTableReader.readLoop_spec (r := r')
    (n := r'.conn.rest.length) hready (Nat.le_refl _) herrors
    (rfl : r'.readLoop rowSchema r'.conn.rest.length 0 r'.conn = _)
  refine ⟨_, _, rfl, ?_, herror, ?_⟩
  · intro i v hv
    obtain ⟨hid, hne, ptr, w, hw, hchunk⟩ := hchunks i v hv
    rw [Nat.zero_add] at hid hw
    rw [hsize, hpartition] at hw
    exact ⟨rowSchema, hschema, hid, hne, ptr, w, hw, hchunk⟩
  · intro hnone
    exact (Response.fetches_eq_cells (hrest.symm.trans (hall hnone))).symm

/-- **The reader of a partition** reads the rows of its query. -/
theorem read_createReader {response : Response} (hcodes : response.ErrorCodes)
    (rowSchema : Option RowSchema) (partition : UInt32) (size : UInt64)
    (malloc : Nat → Option Bytes.Mem) :
    ReadsRows (ResultTableReader.createReader response rowSchema partition size malloc)
      (response.cells true)
      (ResultTableReader.createReader response rowSchema partition size malloc).read := by
  unfold ResultTableReader.read
  cases hschema : rowSchema with
  | none => exact readsRows_error _ _ (by decide)
  | some schema =>
    simp only [ResultTableReader.createReader, if_true, ResultTableReader.prepareRead,
      S2Connection.connect, S2Connection.prepare]
    cases hstart : response.startError with
    | some e =>
      have hcode := hcodes.start e hstart
      simp only [hcode, ne_eq, not_false_iff, if_true]
      exact readsRows_error _ _ hcode
    | none =>
      by_cases hfields : response.fields.length = 0
      · -- nothing is fetched
        right
        refine ⟨[], none, ?_, by simp, by simp, ?_⟩
        · simp only [hfields, ne_eq, not_true, if_false]
          rw [ResultTableReader.readLoop_of_no_row rfl]
          rfl
        · simp [Response.cells, response.noFields (List.length_eq_zero_iff.mp hfields)]
      · simp only [hfields, ne_eq, not_false_iff, if_true]
        cases hadvance : S2Connection.advance ⟨response, true, none, response.fetches true⟩ with
        | error e =>
          have hcode := ResultTableReader.advance_error (hcodes.fetches true) hadvance
          cases e with
          | invalidArgument what => exact Or.inl rfl
          | badAlloc => exact Or.inl rfl
          | s2 e =>
            have hcode' : e.errorCode ≠ 0 := hcode
            simp only [hcode', not_false_iff, if_true]
            exact readsRows_error _ _ hcode
        | ok result =>
          obtain ⟨b, conn⟩ := result
          obtain ⟨hready, hrest⟩ := S2Connection.advance_spec hadvance
          exact readsRows_loop ⟨conn, true, partition, size, some schema, true, .none, malloc⟩
            rfl hready hcodes hrest rfl rfl

/-! ## The numbers of the chunks -/

namespace ResultTableReader

variable {r : ResultTableReader} {rowSchema : RowSchema}

/-- The chunks of the loop are numbered one after the other, whatever the error
it ends with. -/
theorem readLoop_numbers {n turns : Nat} {conn : S2Connection} {i : Nat} {v : ReadChunk}
    (h : (r.readLoop rowSchema n turns conn).1[i]? = some v) :
    v.turn = turns + i ∧
      v.chunk.header = (r.chunkSize, UInt64.ofNat (chunkIdOf (turns + i)), r.partition) := by
  induction n generalizing turns conn i with
  | zero => simp [readLoop] at h
  | succ n ih =>
    rw [readLoop] at h
    split at h
    · simp at h
    · split at h
      · simp at h
      · rename_i ptr hmalloc
        split at h
        · simp at h
        · rename_i rows chunk conn' hchunk
          split at h
          · simp at h
          · cases i with
            | zero =>
              obtain rfl := Option.some.inj h
              unfold S2Connection.nextChunk at hchunk
              split at hchunk
              · cases hchunk
              · rename_i hloop
                obtain ⟨rfl, hheader⟩ := Prod.mk.inj (Except.ok.inj hchunk)
                obtain ⟨rfl, -⟩ := Prod.mk.inj hheader
                obtain ⟨-, -, hwritten⟩ := S2Connection.nextChunkLoop_spec hloop
                exact ⟨rfl, header_writeRows hwritten⟩
            | succ i =>
              have hnext := ih h
              rw [Nat.add_assoc, Nat.add_comm 1 i] at hnext
              exact hnext

/-- **The calls of a reader**: none, or its numbered chunks, an error if there
is one, and `DeleteProducer`. -/
theorem read_shape (response : Response) (rowSchema : RowSchema) (partition : UInt32)
    (size : UInt64) (malloc : Nat → Option Mem) :
    ∃ chunks error,
      ((createReader response (some rowSchema) partition size malloc).read = [] ∨
        (createReader response (some rowSchema) partition size malloc).read =
          readerActions chunks error) ∧
      ∀ i v, chunks[i]? = some v →
        v.turn = i ∧
          v.chunk.header = (size, UInt64.ofNat (chunkIdOf i), partition) := by
  have hloop : ∀ r : ResultTableReader, r.chunkSize = size → r.partition = partition →
      ∀ i v, (r.readLoop rowSchema r.conn.rest.length 0 r.conn).1[i]? = some v →
        v.turn = i ∧
          v.chunk.header = (size, UInt64.ofNat (chunkIdOf i), partition) := by
    rintro r rfl rfl i v hv
    have hnumbers := readLoop_numbers hv
    rw [Nat.zero_add] at hnumbers
    exact hnumbers
  unfold read
  simp only [createReader, if_true, prepareRead]
  cases hprepare : (S2Connection.connect response).prepare true true with
  | error e =>
    cases e with
    | invalidArgument what => exact ⟨[], none, Or.inl rfl, by simp⟩
    | badAlloc => exact ⟨[], none, Or.inl rfl, by simp⟩
    | s2 e =>
      refine ⟨[], some e, Or.inr ?_, by simp⟩
      by_cases hcode : e.errorCode = 0
      · -- nothing has been fetched
        simp only [hcode, ne_eq, not_true, if_false]
        rw [readLoop_of_no_row rfl]
        rfl
      · simp only [ne_eq, hcode, not_false_iff, if_true]
        rfl
  | ok result =>
    obtain ⟨b, conn⟩ := result
    have hread := hloop ⟨conn, true, partition, size, some rowSchema, true, .none, malloc⟩ rfl rfl
    exact ⟨_, (readLoop ⟨conn, true, partition, size, some rowSchema, true, .none, malloc⟩ rowSchema
      conn.rest.length 0 conn).2, Or.inr rfl, hread⟩

end ResultTableReader

end SasLibclient
