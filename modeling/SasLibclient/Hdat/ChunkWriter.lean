import SasLibclient.Hdat.Common

/-!
# `SuperChunkWriter` (`hdat/chunk_writer.cpp`)

`WriteRow` checks that the whole row fits and then writes its columns in
order. A column of unsupported type, or a date that cannot be converted, ends
it with an exception in the middle of the row.
-/

namespace SasLibclient

open Bytes

/-- The exceptions of `WriteRow`. -/
inductive WriteError where
  | invalidArgument (what : String)
  | s2 (error : S2ClientError)
  deriving DecidableEq, Repr

def int64Null : UInt64 := 0x8000000000000000

def int32Null : UInt32 := 0x80000000

/-- The bits of `doubleNull`. -/
def doubleNull : UInt64 := 0xfffffe0000000000

structure SuperChunkWriter where
  rowSchema : RowSchema
  chunkSize : UInt64
  rowFixedSize : UInt64
  columnCount : UInt32
  currentChunk : SuperChunk
  rowOffset : UInt64
  rowColumnCount : UInt32

namespace SuperChunkWriter

/-- `Reset` -/
def reset (chunk : Chunk) (rowSchema : RowSchema) : SuperChunkWriter where
  rowSchema := rowSchema
  chunkSize := chunk.size
  rowFixedSize := 0
  columnCount := 0
  currentChunk := SuperChunk.create chunk
  rowOffset := 0
  rowColumnCount := 0

/-- The space left between the two sections. -/
def space (w : SuperChunkWriter) : UInt64 :=
  w.chunkSize - w.currentChunk.chunk.variableOffset - w.currentChunk.offset

def hasEnoughSpace (requestedSize : UInt64) (w : SuperChunkWriter) : Bool :=
  !(w.space < requestedSize)

def recordColumn (w : SuperChunkWriter) : SuperChunkWriter :=
  { w with
    columnCount := if w.rowFixedSize = 0 then w.columnCount + 1 else w.columnCount
    rowColumnCount := w.rowColumnCount + 1 }

/-- `RecordColumn` and a change of the chunk. -/
def onChunk (f : SuperChunk → SuperChunk) (w : SuperChunkWriter) : SuperChunkWriter :=
  { w.recordColumn with currentChunk := f w.recordColumn.currentChunk }

def writeInt64 (val : List UInt8) : SuperChunkWriter → SuperChunkWriter :=
  onChunk fun s => s.write (bytesAt val 8)

def writeInt32 (val : List UInt8) : SuperChunkWriter → SuperChunkWriter :=
  onChunk fun s => (s.write (bytesAt val 4)).pad 4 none

def writeDouble (val : List UInt8) : SuperChunkWriter → SuperChunkWriter :=
  onChunk fun s => s.write (bytesAt val 8)

def writeFixed (val : List UInt8) (dataSize fieldSize : UInt64) (padWithZero : Bool) :
    SuperChunkWriter → SuperChunkWriter :=
  onChunk fun s => (s.write (bytesAt val dataSize.toNat)).pad (sizeofAligned8 fieldSize - dataSize)
    (some (if padWithZero then 0 else 32))

/-- A `NULL` pointer is only passed with length 0. -/
def writeVariable (val : List UInt8) (len : UInt64) (w : SuperChunkWriter) : SuperChunkWriter :=
  w.onChunk fun s =>
    let s := s.incrVariableOffset len
    let s := s.write8Typed s.chunk.variableOffset
    let s := s.write8Typed len
    s.writeAt (w.chunkSize - s.chunk.variableOffset) (bytesAt val len.toNat)

def writeInt64Null : SuperChunkWriter → SuperChunkWriter :=
  onChunk fun s => s.write8Typed int64Null

def writeInt32Null : SuperChunkWriter → SuperChunkWriter :=
  onChunk fun s => (s.write4Typed int32Null).pad 4 none

def writeDoubleNull : SuperChunkWriter → SuperChunkWriter :=
  onChunk fun s => s.write8Typed doubleNull

/-- `len` is an `int`. -/
def writeFixedNull (len : Int) : SuperChunkWriter → SuperChunkWriter :=
  onChunk fun s => s.pad (sizeofAligned8 (UInt64.ofInt (len.bmod (2 ^ 32)))) (some 0)

def writeVariableNull : SuperChunkWriter → SuperChunkWriter :=
  writeVariable [] 0

def writeInt64Numeric (val : UInt64) : SuperChunkWriter → SuperChunkWriter :=
  onChunk fun s => s.write8Typed val

def writeInt32Numeric (val : UInt32) : SuperChunkWriter → SuperChunkWriter :=
  onChunk fun s => (s.write4Typed val).pad 4 none

def writeRowEnd (w : SuperChunkWriter) : SuperChunkWriter :=
  { w with
    rowFixedSize := if w.rowFixedSize = 0 then w.currentChunk.offset else w.rowFixedSize
    currentChunk := w.currentChunk.incrRowCount
    rowOffset := w.currentChunk.offset
    rowColumnCount := 0 }

/-- The value of a date column, unless its conversion threw. -/
def writeConverted {α : Type} (converted : Except S2ClientError α) (write : α → SuperChunkWriter) :
    Except WriteError SuperChunkWriter :=
  match converted with
  | .ok v => .ok (write v)
  | .error e => .error (.s2 e)

/-- One turn of the loop of `WriteRow`. -/
def writeColumn (column : Column) (cell : Cell) (w : SuperChunkWriter) :
    Except WriteError SuperChunkWriter :=
  match column.type, cell.value with
  | .int64, none => .ok w.writeInt64Null
  | .int64, some value => .ok (w.writeInt64 value)
  | .int32, none => .ok w.writeInt32Null
  | .int32, some value => .ok (w.writeInt32 value)
  | .dateTime, none => .ok w.writeInt64Null
  | .dateTime, some value => writeConverted (toDateTimeCAS value) fun v => w.writeInt64Numeric v
  | .date, none => .ok w.writeInt32Null
  | .date, some value => writeConverted (toDateCAS value) fun v => w.writeInt32Numeric v
  | .time, none => .ok w.writeInt64Null
  | .time, some value => .ok (w.writeInt64Numeric (toTimeCAS value))
  | .double, none => .ok w.writeDoubleNull
  | .double, some value => .ok (w.writeDouble value)
  | .fixed, none => .ok (w.writeFixedNull column.size)
  | .fixed, some value =>
    .ok (w.writeFixed value cell.length (UInt64.ofInt column.size) false)
  | .variable, none => .ok w.writeVariableNull
  | .variable, some value => .ok (w.writeVariable value cell.length)
  | .unsupported, _ =>
    .error (.s2 ⟨s2cErrorUnsDataType,
      "Trying to write unsupported data type to the chunk. Aborted."⟩)

def writeColumns : List Column → List Cell → SuperChunkWriter → Except WriteError SuperChunkWriter
  | [], _, w => .ok w
  | column :: columns, cells, w =>
    match w.writeColumn column (cells.headD ⟨none, 0⟩) with
    | .ok w' => writeColumns columns cells.tail w'
    | .error e => .error e

/-- `WriteRow`: whether the row was written, and the writer after it. -/
def writeRow (row : List Cell) (w : SuperChunkWriter) :
    Except WriteError (Bool × SuperChunkWriter) :=
  let totalSize := rowSize w.rowSchema row
  if !w.hasEnoughSpace totalSize then
    if w.currentChunk.chunk.rowCount = 0 then
      .error (.invalidArgument ("chunk size " ++ toString w.chunkSize ++
        " is too small. Required at least " ++ toString totalSize))
    else
      .ok (false, w)
  else
    match writeColumns w.rowSchema.columnInfo row w with
    | .ok w' => .ok (true, w'.writeRowEnd)
    | .error e => .error e

theorem writeConverted_ok {α : Type} {converted : Except S2ClientError α}
    {write : α → SuperChunkWriter} {w' : SuperChunkWriter}
    (h : writeConverted converted write = .ok w') : ∃ v, converted = .ok v ∧ w' = write v := by
  cases converted with
  | error e => cases h
  | ok v =>
    obtain rfl := Except.ok.inj h
    exact ⟨v, rfl, rfl⟩

theorem writeConverted_error {α : Type} {converted : Except S2ClientError α}
    {write : α → SuperChunkWriter} {e : WriteError}
    (h : writeConverted converted write = .error e) : ∃ e', converted = .error e' ∧ e = .s2 e' := by
  cases converted with
  | error e' =>
    obtain rfl := Except.error.inj h
    exact ⟨e', rfl, rfl⟩
  | ok v => cases h

variable {column : Column} {columns : List Column} {cell : Cell} {row : List Cell}
  {w w' : SuperChunkWriter} {e : WriteError}

/-- A column only throws `S2ClientError`s, and their code is not 0. -/
theorem writeColumn_error (h : w.writeColumn column cell = .error e) :
    ∃ e', e = .s2 e' ∧ e'.errorCode ≠ 0 := by
  unfold writeColumn at h
  split at h
  -- the two date types and the unsupported type
  case h_6 =>
    obtain ⟨e', he, rfl⟩ := writeConverted_error h
    exact ⟨e', rfl, toDateTimeCAS_error he⟩
  case h_8 =>
    obtain ⟨e', he, rfl⟩ := writeConverted_error h
    exact ⟨e', rfl, toDateCAS_error he⟩
  case h_17 => exact ⟨_, (Except.error.inj h).symm, by decide⟩
  all_goals cases h

theorem writeColumns_error (h : writeColumns columns row w = .error e) :
    ∃ e', e = .s2 e' ∧ e'.errorCode ≠ 0 := by
  induction columns generalizing row w with
  | nil => cases h
  | cons column columns ih =>
    rw [writeColumns] at h
    split at h
    · exact ih h
    · rename_i e' hcolumn
      obtain rfl := Except.error.inj h
      exact writeColumn_error hcolumn

/-- A row that is not accepted is not written. -/
theorem writeRow_false (h : w.writeRow row = .ok (false, w')) : w' = w := by
  unfold writeRow at h
  dsimp only at h
  split at h
  · split at h
    · cases h
    · exact (Prod.mk.inj (Except.ok.inj h)).2.symm
  · split at h
    · exact absurd (Prod.mk.inj (Except.ok.inj h)).1 (by decide)
    · cases h

theorem writeRow_ne_false (hempty : w.currentChunk.chunk.rowCount = 0) :
    w.writeRow row ≠ .ok (false, w') := by
  intro h
  unfold writeRow at h
  simp only [hempty, if_true] at h
  split at h
  · cases h
  · split at h
    · exact absurd (Prod.mk.inj (Except.ok.inj h)).1 (by decide)
    · cases h

end SuperChunkWriter

end SasLibclient
