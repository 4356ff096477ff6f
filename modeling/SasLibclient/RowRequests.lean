import SasLibclient.S2Connection
import SasLibclient.Hdat.RowsConsumed

/-!
# Requests for rows (`s2_connection.cpp`)

`GetSingleRow` and `GetMultipleRows` prepare a query and write its rows into a
chunk. The chunk of `GetSingleRow` has the size that `rowSize` predicts, and
`WriteRow` fills it exactly (`rowSize_exact`).
-/

namespace SasLibclient

open Bytes SuperChunkWriter

namespace S2Connection

/-- `CleanupStatement(true)` -/
def cleanupStatement (conn : S2Connection) : S2Connection :=
  { conn with lastFetchedRow := none, pending := [] }

/-- `GetSingleRow`; `malloc` gives the memory of a chunk of this size. -/
def getSingleRow (schema : RowSchema) (resultTable : String) (partitionId : UInt32)
    (partitionRowId : Int) (malloc : UInt64 → Option Mem) (conn : S2Connection) :
    Except ReadException (Chunk × S2Connection) :=
  match conn.prepare true true with
  | .error e => .error e
  | .ok (result, conn) =>
    match result, conn.lastFetchedRow with
    | true, some row =>
      let chunkSize := rowSize schema row
      match malloc chunkSize with
      | none =>
        .error (.s2 ⟨s2cErrorMemoryAllocation,
          "GetSingleRow cannot allocate chunk size: " ++ toString chunkSize⟩)
      | some ptr =>
        match (reset (newChunk ptr chunkSize 0 partitionId) schema).writeRow row with
        | .error e => .error e.toException
        | .ok (_, writer) => .ok (writer.currentChunk.chunk, conn.cleanupStatement)
    | _, _ =>
      .error (.s2 ⟨s2cErrorInvArg, "Failed to get the row with id " ++ toString partitionRowId ++
        " from table " ++ resultTable⟩)

/-- `GetMultipleRows`, with the rows that it writes into the chunk. -/
def getMultipleRows (chunk : Chunk) (schema : RowSchema) (resultTable : String)
    (rowIdsNum : Int) (conn : S2Connection) :
    Except ReadException (List (List Cell) × Chunk × S2Connection) :=
  match conn.prepare true true with
  | .error e => .error e
  | .ok (result, conn) =>
    match result, conn.lastFetchedRow with
    | true, some _ =>
      match nextChunkLoop conn.rest.length (reset chunk schema) conn with
      | .error e => .error e
      | .ok (rows, writer, conn) =>
        .ok (rows, { writer.currentChunk.chunk with rowCount := UInt64.ofNat rows.length }, conn)
    | _, _ =>
      .error (.s2 ⟨s2cErrorInvArg, "Failed to get the row with " ++ toString rowIdsNum ++
        " rows from table " ++ resultTable⟩)

end S2Connection

/-- The rows that the binary protocol fetches have no length for a `NULL`. -/
theorem nulls_binaryRow {columns : List Column} {row : List (Option FieldData)}
    (h : columns.length = row.length) :
    List.Forall₂ (fun column cell => column.type = .variable → cell.value = none →
      cell.length = 0) columns (binaryRow row) := by
  induction columns generalizing row with
  | nil =>
    obtain rfl := List.length_eq_zero_iff.mp h.symm
    exact .nil
  | cons column columns ih =>
    cases row with
    | nil => cases h
    | cons data row =>
      refine .cons ?_ (ih (Nat.succ.inj h))
      intro _ hnull
      cases data with
      | none => rfl
      | some data => cases hnull

variable {schema : RowSchema} {row : List Cell}

/-! ## The chunk of a single row -/

/-- The chunk of `GetSingleRow` takes the row and is full. -/
structure FilledExactly (schema : RowSchema) (row : List Cell) (w : SuperChunkWriter) : Prop where
  used : w.currentChunk.used = (rowSize schema row).toNat
  size : w.currentChunk.chunk.size = rowSize schema row
  consumedSize : w.currentChunk.chunk.consumedSize = rowSize schema row
  rowCount : w.currentChunk.chunk.rowCount = 1

theorem writeRow_filledExactly (h : RowFetched schema.columnInfo row) (ptr : Mem) (id : UInt64)
    (partition : UInt32) :
    ∃ w, (reset (newChunk ptr (rowSize schema row) id partition) schema).writeRow row =
      .ok (true, w) ∧ FilledExactly schema row w := by
  have hs : Sound (reset (newChunk ptr (rowSize schema row) id partition) schema) :=
    Sound.reset (Nat.zero_le _) schema
  have hconsumed : RowConsumed schema row _ := writeRow_consumed hs rfl h
  obtain ⟨w, hw⟩ := hconsumed.accepted.mpr (Nat.le_of_eq (Nat.zero_add _))
  have hadded : RowAdded schema row _ w := writeRow_added hs rfl h.toRowFits hw
  refine ⟨w, hw, ?_, ?_, ?_, ?_⟩
  · rw [hconsumed.used w hw]
    exact Nat.zero_add _
  · exact congrArg Prod.fst (header_writeRow hw)
  · rw [hadded.consumedSize, ← h.toNat_rowSize, UInt64.ofNat_toNat]
    exact UInt64.zero_add _
  · rw [hadded.rowCount]
    exact UInt64.zero_add _

/-- `GetSingleRow` returns the filled chunk of the row that `Prepare` fetched. -/
def SingleRowExact (schema : RowSchema) (row : List Cell) : Prop :=
  ∀ (resultTable : String) (partitionId : UInt32) (rowId : Int) (malloc : UInt64 → Option Mem)
    (ptr : Mem) (conn conn' : S2Connection), conn.prepare true true = .ok (true, conn') →
    conn'.lastFetchedRow = some row → malloc (rowSize schema row) = some ptr →
    ∃ w, conn.getSingleRow schema resultTable partitionId rowId malloc =
        .ok (w.currentChunk.chunk, conn'.cleanupStatement) ∧
      (reset (newChunk ptr (rowSize schema row) 0 partitionId) schema).writeRow row =
        .ok (true, w) ∧ FilledExactly schema row w

theorem singleRowExact (h : RowFetched schema.columnInfo row) : SingleRowExact schema row := by
  intro resultTable partitionId rowId malloc ptr conn conn' hprepare hrow hmalloc
  obtain ⟨w, hw, hfilled⟩ := writeRow_filledExactly h ptr 0 partitionId
  refine ⟨w, ?_, hw, hfilled⟩
  simp only [S2Connection.getSingleRow, hprepare, hrow, hmalloc, hw]

/-- **`rowSize` is exactly what `WriteRow` consumes**: for every writer, for the
rows of a chunk one behind the other, and for the chunk of a single row. -/
theorem rowSize_exact (hrow : RowFetched schema.columnInfo row) :
    (∀ w : SuperChunkWriter, w.Sound → w.rowSchema = schema → RowConsumed schema row w) ∧
    (∀ ptr size id partition rows w, (∀ r ∈ rows, RowFetched schema.columnInfo r) →
      writeRows rows (reset (newChunk ptr size id partition) schema) = some w →
      w.Sound ∧ w.rowSchema = schema ∧
        w.currentChunk.offset.toNat = rows.length * rowWidth schema.columnInfo) ∧
    SingleRowExact schema row := by
  refine ⟨fun w hs hschema => writeRow_consumed hs hschema hrow, ?_, singleRowExact hrow⟩
  intro ptr size id partition rows w hrows hw
  have hs : Sound (reset (newChunk ptr size id partition) schema) :=
    Sound.reset (Nat.zero_le _) schema
  have hadded := writeRows_added hs rfl (fun r hr => (hrows r hr).toRowFits) hw
  refine ⟨hadded.sound, hadded.rowSchema, ?_⟩
  rw [hadded.offset]
  exact Nat.zero_add _

def numberAndText : RowSchema := ⟨[⟨.int64, 8, "id"⟩, ⟨.variable, 0, "text"⟩], by decide⟩

/-- The row takes 26 bytes, 24 of them in the fixed-length section. -/
theorem rowSize_exact_numberAndText :
    ∃ w', (reset (newChunk (fun _ => 0) 64 0 0) numberAndText).writeRow
        [⟨some [7, 0, 0, 0, 0, 0, 0, 0], 8⟩, ⟨some [104, 105], 2⟩] = .ok (true, w') ∧
      w'.currentChunk.used = 26 ∧ w'.currentChunk.offset.toNat = 24 := by
  have hrow : RowFetched numberAndText.columnInfo
      [⟨some [7, 0, 0, 0, 0, 0, 0, 0], 8⟩, ⟨some [104, 105], 2⟩] := by
    refine ⟨⟨.cons ?_ (.cons ?_ .nil), by decide⟩, .cons ?_ (.cons ?_ .nil),
      .cons ?_ (.cons ?_ .nil)⟩
    all_goals first
      | simp
      | constructor <;> simp
  have hs : Sound (reset (newChunk (fun _ => 0) 64 0 0) numberAndText) :=
    Sound.reset (Nat.zero_le _) _
  have hconsumed := (rowSize_exact hrow).1 _ hs rfl
  obtain ⟨w', hw'⟩ := hconsumed.accepted.mpr (by decide)
  exact ⟨w', hw', hconsumed.used w' hw', hconsumed.offset w' hw'⟩

end SasLibclient
