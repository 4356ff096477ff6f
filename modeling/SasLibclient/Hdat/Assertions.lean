import SasLibclient.Hdat.WriterCalls

/-!
# The assertions of the chunk classes (`super_chunk.hpp`, `chunk_writer.cpp`)

A Debug build checks them where the code has them. A row is written by
`WriteRow`, or by one of the C functions for each column and `WriteRowEnd`. The
rows that are accepted leave the positions of their texts behind each other in
the chunk (`PositionsAt`), and no assertion of the writer fails on the way.
-/

namespace SasLibclient

open Bytes

namespace SuperChunk

/-- Of `WriteAt`; a source that is `NULL` is `none`. -/
def WriteAtAsserts (offset : UInt64) (src : Option (List UInt8)) (len : UInt64) (s : SuperChunk) :
    Prop :=
  len ≠ 0 → src ≠ none ∧ offset < s.chunk.size ∧ offset + len ≤ s.chunk.size

def PtrAtAsserts (offset : UInt64) (s : SuperChunk) : Prop := offset < s.chunk.size

/-- `ReadAligned8` asks for the pointer when the section does not end before. -/
def ReadAligned8Asserts (len : UInt64) (s : SuperChunk) : Prop :=
  ¬ s.chunk.size - s.offset < sizeofAligned8 len → s.PtrAtAsserts s.offset

end SuperChunk

namespace SuperChunkWriter

def HasEnoughSpaceAsserts (w : SuperChunkWriter) : Prop :=
  w.currentChunk.offset + w.currentChunk.chunk.variableOffset ≤ w.chunkSize

/-- Of a `Write` to the chunk. -/
def WriteAsserts (src : Option (List UInt8)) (len : UInt64) (w : SuperChunkWriter) : Prop :=
  w.currentChunk.WriteAtAsserts w.currentChunk.offset src len

def WriteVariableAsserts (val : Option (List UInt8)) (len : UInt64) (w : SuperChunkWriter) : Prop :=
  let s := w.currentChunk.incrVariableOffset len
  let s := s.write8Typed s.chunk.variableOffset
  let s := s.write8Typed len
  s.WriteAtAsserts (w.chunkSize - s.chunk.variableOffset) val len

/-- It should be the first row. -/
def WriteRowEndAsserts (w : SuperChunkWriter) : Prop := w.rowFixedSize = 0 → w.rowOffset = 0

/-- One turn of the loop of `WriteRow`; the other writes have no assertion. -/
def WriteColumnAsserts (column : Column) (cell : Cell) (w : SuperChunkWriter) : Prop :=
  match column.type, cell.value with
  | .int64, some value => w.WriteAsserts (some value) 8
  | .double, some value => w.WriteAsserts (some value) 8
  | .int32, some value => w.WriteAsserts (some value) 4
  | .fixed, some value => w.WriteAsserts (some value) cell.length
  | .variable, some value => w.WriteVariableAsserts (some value) cell.length
  | .variable, none => w.WriteVariableAsserts none 0
  | _, _ => True

/-- The loop, and `WriteRowEnd` after it. -/
def WriteColumnsAsserts : List Column → List Cell → SuperChunkWriter → Prop
  | [], _, w => w.WriteRowEndAsserts
  | column :: columns, cells, w =>
    w.WriteColumnAsserts column (cells.headD ⟨none, 0⟩) ∧
      ∀ w', w.writeColumn column (cells.headD ⟨none, 0⟩) = .ok w' →
        WriteColumnsAsserts columns cells.tail w'

def WriteRowAsserts (row : List Cell) (w : SuperChunkWriter) : Prop :=
  w.HasEnoughSpaceAsserts ∧
    (w.hasEnoughSpace (rowSize w.rowSchema row) = true →
      w.WriteColumnsAsserts w.rowSchema.columnInfo row)

end SuperChunkWriter

/-- A call that writes a field; data that is `NULL` is `none`. -/
inductive FieldCall where
  | writeInt64 (val : UInt64)
  | writeInt32 (val : UInt64)
  | writeDouble (val : UInt64)
  | writeFixed (val : Option (List UInt8)) (dataSize fieldSize : Int) (padWithZero : Bool)
  | writeVariable (val : Option (List UInt8)) (len : UInt64)

namespace FieldCall

def toCall : FieldCall → WriterCall
  | .writeInt64 val => .writeInt64 val
  | .writeInt32 val => .writeInt32 val
  | .writeDouble val => .writeDouble val
  | .writeFixed val dataSize fieldSize padWithZero =>
    .writeFixed (val.getD []) dataSize fieldSize padWithZero
  | .writeVariable val len => .writeVariable (val.getD []) len

/-- The check, and the write behind it. -/
def Asserts (call : FieldCall) (w : SuperChunkWriter) : Prop :=
  w.HasEnoughSpaceAsserts ∧ ((call.toCall.run w).1 = true →
    match call with
    | .writeFixed val dataSize _ _ => w.WriteAsserts val (UInt64.ofInt dataSize)
    | .writeVariable val len => w.WriteVariableAsserts val len
    | _ => True)

/-- The call writes a field of the column: its data is no longer than the field,
and `NULL` only where it is empty. -/
def Suits (column : Column) : FieldCall → Prop
  | .writeFixed val dataSize fieldSize _ =>
    column.type = .fixed ∧ fieldSize = column.size ∧ 0 ≤ dataSize ∧ dataSize ≤ fieldSize ∧
      fieldSize < 2 ^ 63 ∧ (val = none → dataSize = 0)
  | .writeVariable val len =>
    column.type = .variable ∧ len.toNat < 2 ^ 31 - 16 ∧ (val = none → len = 0)
  | _ => column.type ≠ .fixed ∧ column.type ≠ .variable

/-- The bytes of the call in the variable-length section. -/
def payload : FieldCall → Nat
  | .writeVariable _ len => len.toNat
  | _ => 0

end FieldCall

/-- A row, and how it is written. -/
inductive RowWrite where
  | writeRow (row : List Cell)
  | fieldCalls (calls : List FieldCall)

/-- The calls of a row; `none` when one of them returns false. -/
def runCalls : List FieldCall → SuperChunkWriter → Option SuperChunkWriter
  | [], w => some w.writeRowEnd
  | call :: calls, w =>
    if (call.toCall.run w).1 then runCalls calls (call.toCall.run w).2 else none

/-- The calls of a row, and `WriteRowEnd`. -/
def CallsAssert : List FieldCall → SuperChunkWriter → Prop
  | [], w => w.WriteRowEndAsserts
  | call :: calls, w =>
    call.Asserts w ∧ ((call.toCall.run w).1 = true → CallsAssert calls (call.toCall.run w).2)

namespace RowWrite

/-- The writer after the row; `none` when the row is not accepted. -/
def run : RowWrite → SuperChunkWriter → Option SuperChunkWriter
  | .writeRow row, w =>
    match w.writeRow row with
    | .ok (true, w') => some w'
    | _ => none
  | .fieldCalls calls, w => runCalls calls w

def Asserts : RowWrite → SuperChunkWriter → Prop
  | .writeRow row, w => w.WriteRowAsserts row
  | .fieldCalls calls, w => CallsAssert calls w

/-- The row suits the schema. -/
def Suits (columns : List Column) : RowWrite → Prop
  | .writeRow row => RowFits columns row
  | .fieldCalls calls => List.Forall₂ FieldCall.Suits columns calls

/-- The columns of the row, and the bytes of each in the variable-length
section. -/
def fields (columns : List Column) : RowWrite → List (Column × Nat)
  | .writeRow row => List.zipWith (fun column cell => (column, payloadWritten column cell)) columns row
  | .fieldCalls calls => List.zipWith (fun column call => (column, call.payload)) columns calls

end RowWrite

/-- The rows of a chunk; `none` when one of them is not accepted. -/
def runRows : List RowWrite → SuperChunkWriter → Option SuperChunkWriter
  | [], w => some w
  | row :: rows, w => (row.run w).bind (runRows rows)

def RowsAssert : List RowWrite → SuperChunkWriter → Prop
  | [], _ => True
  | row :: rows, w => row.Asserts w ∧ ∀ w', row.run w = some w' → RowsAssert rows w'

/-! ## The fields of the fixed-length section -/

/-- Behind each other from offset `o` on, a variable column holds its position
from the end of the chunk: `var` bytes further than the texts before it, and its
own bytes. -/
def PositionsAt (m : Mem) : Nat → Nat → List (Column × Nat) → Prop
  | _, _, [] => True
  | o, var, (column, len) :: fields =>
    (column.type = .variable → ofLE (load m o 8) = var + len) ∧
      PositionsAt m (o + columnWidth column) (var + len) fields

def fieldsWidth (fields : List (Column × Nat)) : Nat :=
  (fields.map fun field => columnWidth field.1).sum

def fieldsPayload (fields : List (Column × Nat)) : Nat := (fields.map Prod.snd).sum

@[simp] theorem fieldsWidth_append (fields fields' : List (Column × Nat)) :
    fieldsWidth (fields ++ fields') = fieldsWidth fields + fieldsWidth fields' := by
  simp [fieldsWidth]

@[simp] theorem fieldsPayload_append (fields fields' : List (Column × Nat)) :
    fieldsPayload (fields ++ fields') = fieldsPayload fields + fieldsPayload fields' := by
  simp [fieldsPayload]

@[simp] theorem fieldsWidth_singleton (field : Column × Nat) :
    fieldsWidth [field] = columnWidth field.1 := by
  simp [fieldsWidth]

@[simp] theorem fieldsPayload_singleton (field : Column × Nat) : fieldsPayload [field] = field.2 := by
  simp [fieldsPayload]

section Positions

variable {m m' : Mem} {o var : Nat} {fields fields' : List (Column × Nat)}

theorem columnWidth_variable {column : Column} (h : column.type = .variable) :
    columnWidth column = 16 := by
  rw [columnWidth, h]

/-- The positions are kept by a memory with the same bytes at their place. -/
theorem PositionsAt.congr (h : PositionsAt m o var fields)
    (hkeep : ∀ i, o ≤ i → i < o + fieldsWidth fields → m' i = m i) :
    PositionsAt m' o var fields := by
  induction fields generalizing o var with
  | nil => trivial
  | cons field fields ih =>
    obtain ⟨column, len⟩ := field
    obtain ⟨hfirst, hrest⟩ := h
    have hwidth : fieldsWidth ((column, len) :: fields) =
        columnWidth column + fieldsWidth fields := rfl
    rw [hwidth] at hkeep
    constructor
    · intro htype
      have hsixteen := columnWidth_variable htype
      rw [load_congr fun i hle hlt => hkeep i hle (by omega)]
      exact hfirst htype
    · exact ih hrest fun i hle hlt => hkeep i (by omega) (by omega)

theorem PositionsAt.append (h : PositionsAt m o var fields)
    (h' : PositionsAt m (o + fieldsWidth fields) (var + fieldsPayload fields) fields') :
    PositionsAt m o var (fields ++ fields') := by
  induction fields generalizing o var with
  | nil => exact h'
  | cons field fields ih =>
    obtain ⟨column, len⟩ := field
    obtain ⟨hfirst, hrest⟩ := h
    refine ⟨hfirst, ih hrest ?_⟩
    rw [Nat.add_assoc, Nat.add_assoc]
    exact h'

theorem PositionsAt.left (h : PositionsAt m o var (fields ++ fields')) :
    PositionsAt m o var fields := by
  induction fields generalizing o var with
  | nil => trivial
  | cons field fields ih => exact ⟨h.1, ih h.2⟩

end Positions

/-- What the writer of a fresh chunk has written: `n` rows, and fields of the
next one. -/
structure Wrote (schema : RowSchema) (n : Nat) (fields : List (Column × Nat))
    (w : SuperChunkWriter) : Prop where
  sound : SuperChunkWriter.Sound w
  rowSchema : w.rowSchema = schema
  offset : w.currentChunk.offset.toNat = fieldsWidth fields
  variableOffset : w.currentChunk.chunk.variableOffset.toNat = fieldsPayload fields
  positions : PositionsAt w.currentChunk.chunk.ptr 0 0 fields
  rowCount : w.currentChunk.chunk.rowCount = UInt64.ofNat n
  rowEnd : w.WriteRowEndAsserts

/-- What the write of one field does. -/
structure FieldWritten (column : Column) (len : Nat) (w w' : SuperChunkWriter) : Prop where
  grows : SuperChunkWriter.Grows w w' (columnWidth column) len
  written : w.WritesFree w'
  position : column.type = .variable → ofLE (load w'.currentChunk.chunk.ptr
    w.currentChunk.offset.toNat 8) = w.currentChunk.chunk.variableOffset.toNat + len
  rowFixedSize : w'.rowFixedSize = w.rowFixedSize
  rowOffset : w'.rowOffset = w.rowOffset

section Writes

variable {schema : RowSchema} {n : Nat} {fields : List (Column × Nat)} {column : Column}
  {cell : Cell} {w w' : SuperChunkWriter}

theorem Wrote.reset (schema : RowSchema) (ptr : Mem) (size id : UInt64) (partition : UInt32) :
    Wrote schema 0 [] (SuperChunkWriter.reset (newChunk ptr size id partition) schema) where
  sound := SuperChunkWriter.Sound.reset (Nat.zero_le _) schema
  rowSchema := rfl
  offset := rfl
  variableOffset := rfl
  positions := trivial
  rowCount := rfl
  rowEnd := fun _ => rfl

/-- A field behind the fields before it. -/
theorem Wrote.field {len : Nat} (h : Wrote schema n fields w) (hfield : FieldWritten column len w w')
    (hroom : w.currentChunk.used + (columnWidth column + len) ≤ w.chunkSize.toNat) :
    Wrote schema n (fields ++ [(column, len)]) w' := by
  obtain ⟨hsound, hoffset, hvariable⟩ := hfield.grows.toNat h.sound hroom
  have hstart := h.offset
  have hpayload := h.variableOffset
  constructor
  · exact hsound
  · exact hfield.grows.rowSchema.trans h.rowSchema
  · rw [fieldsWidth_append, fieldsWidth_singleton, hoffset, hstart]
  · rw [fieldsPayload_append, fieldsPayload_singleton, hvariable, hpayload]
  · refine PositionsAt.append (h.positions.congr ?_) ⟨?_, trivial⟩
    · intro i _ hlt
      exact hfield.written i (Or.inl (by omega))
    · intro htype
      have hposition := hfield.position htype
      rw [hstart, hpayload] at hposition
      rw [Nat.zero_add, Nat.zero_add]
      exact hposition
  · exact hfield.grows.chunk.rowCount.trans h.rowCount
  · intro hzero
    rw [hfield.rowFixedSize] at hzero
    rw [hfield.rowOffset]
    exact h.rowEnd hzero

/-- `WriteRowEnd` writes no byte, and the next row starts where it is called. -/
theorem Wrote.rowEnd_wrote (h : Wrote schema n fields w) : Wrote schema (n + 1) fields w.writeRowEnd where
  sound := ⟨h.sound.chunkSize, h.sound.fits⟩
  rowSchema := h.rowSchema
  offset := h.offset
  variableOffset := h.variableOffset
  positions := h.positions
  rowCount := by
    show w.currentChunk.chunk.rowCount + 1 = _
    rw [h.rowCount, UInt64.ofNat_add]
    rfl
  rowEnd := by
    intro hzero
    show w.currentChunk.offset = 0
    have hsize : (if w.rowFixedSize = 0 then w.currentChunk.offset else w.rowFixedSize) = 0 := hzero
    split at hsize
    · exact hsize
    · contradiction

/-! ### The assertions of one write -/

theorem SuperChunkWriter.Sound.hasEnoughSpaceAsserts (h : SuperChunkWriter.Sound w) :
    w.HasEnoughSpaceAsserts := by
  have hfits := h.fits
  have hlt := w.chunkSize.toNat_lt
  rw [SuperChunk.used] at hfits
  rw [SuperChunkWriter.HasEnoughSpaceAsserts, UInt64.le_iff_toNat_le, UInt64.toNat_add,
    Nat.mod_eq_of_lt (by omega)]
  exact hfits

theorem writeAtAsserts_of_room {s : SuperChunk} {offset len : UInt64} {src : Option (List UInt8)}
    (hsrc : len ≠ 0 → src ≠ none) (hroom : offset.toNat + len.toNat ≤ s.chunk.size.toNat) :
    s.WriteAtAsserts offset src len := by
  intro hlen
  have hlt := s.chunk.size.toNat_lt
  have hpos : len.toNat ≠ 0 := fun hzero => hlen (UInt64.toNat_inj.mp hzero)
  refine ⟨hsrc hlen, ?_, ?_⟩
  · rw [UInt64.lt_iff_toNat_lt]
    omega
  · rw [UInt64.le_iff_toNat_le, UInt64.toNat_add, Nat.mod_eq_of_lt (by omega)]
    exact hroom

section Room

variable (hs : SuperChunkWriter.Sound w)
include hs

theorem writeAsserts_of_room {src : Option (List UInt8)} {len : UInt64}
    (hsrc : len ≠ 0 → src ≠ none) (hroom : w.currentChunk.used + len.toNat ≤ w.chunkSize.toNat) :
    w.WriteAsserts src len := by
  rw [hs.chunkSize, SuperChunk.used] at hroom
  exact writeAtAsserts_of_room hsrc (by omega)

theorem writeVariableAsserts_of_room {val : Option (List UInt8)} {len : UInt64}
    (hval : len ≠ 0 → val ≠ none)
    (hroom : w.currentChunk.used + (16 + len.toNat) ≤ w.chunkSize.toNat) :
    w.WriteVariableAsserts val len := by
  have hlt := w.currentChunk.chunk.size.toNat_lt
  rw [hs.chunkSize, SuperChunk.used] at hroom
  have hvariable : (w.currentChunk.chunk.variableOffset + len).toNat =
      w.currentChunk.chunk.variableOffset.toNat + len.toNat := by
    rw [UInt64.toNat_add, Nat.mod_eq_of_lt (by omega)]
  have hplace : (w.chunkSize - (w.currentChunk.chunk.variableOffset + len)).toNat =
      w.currentChunk.chunk.size.toNat -
        (w.currentChunk.chunk.variableOffset.toNat + len.toNat) := by
    rw [UInt64.toNat_sub_of_le _ _ (by rw [UInt64.le_iff_toNat_le, hvariable, hs.chunkSize]; omega),
      hvariable, hs.chunkSize]
  refine writeAtAsserts_of_room hval ?_
  show (w.chunkSize - (w.currentChunk.chunk.variableOffset + len)).toNat + len.toNat ≤
    w.currentChunk.chunk.size.toNat
  rw [hplace]
  omega

/-- **The position of a text**: what the length adds to `variable_offset`. -/
theorem position_writeVariable (val : List UInt8) (len : UInt64)
    (hroom : w.currentChunk.used + (16 + len.toNat) ≤ w.chunkSize.toNat) :
    ofLE (load (w.writeVariable val len).currentChunk.chunk.ptr w.currentChunk.offset.toNat 8) =
      w.currentChunk.chunk.variableOffset.toNat + len.toNat := by
  have hlt := w.currentChunk.chunk.size.toNat_lt
  rw [hs.chunkSize, SuperChunk.used] at hroom
  let s₁ := w.currentChunk.incrVariableOffset len
  let s₂ := s₁.write8Typed s₁.chunk.variableOffset
  let s₃ := s₂.write8Typed len
  have hvariable : s₁.chunk.variableOffset.toNat =
      w.currentChunk.chunk.variableOffset.toNat + len.toNat := by
    show (w.currentChunk.chunk.variableOffset + len).toNat = _
    rw [UInt64.toNat_add, Nat.mod_eq_of_lt (by omega)]
  have hnext : s₂.offset.toNat = w.currentChunk.offset.toNat + 8 :=
    toNat_add_ofNat (a := w.currentChunk.offset) (k := w.currentChunk.chunk.size.toNat)
      (by omega) hlt
  have hplace : (w.chunkSize - s₃.chunk.variableOffset).toNat =
      w.currentChunk.chunk.size.toNat -
        (w.currentChunk.chunk.variableOffset.toNat + len.toNat) := by
    have hsame : s₃.chunk.variableOffset = s₁.chunk.variableOffset := rfl
    rw [hsame, UInt64.toNat_sub_of_le _ _ (by
      rw [UInt64.le_iff_toNat_le, hvariable, hs.chunkSize]; omega), hvariable, hs.chunkSize]
  have hptr : (w.writeVariable val len).currentChunk.chunk.ptr = store (store
      (store w.currentChunk.chunk.ptr w.currentChunk.offset.toNat
        (toLE 8 s₁.chunk.variableOffset.toNat)) s₂.offset.toNat (toLE 8 len.toNat))
      (w.chunkSize - s₃.chunk.variableOffset).toNat (bytesAt val len.toNat) :=
    SuperChunk.writeAt_ptr _ _ s₃
  have hload := load_store w.currentChunk.chunk.ptr w.currentChunk.offset.toNat
    (toLE 8 s₁.chunk.variableOffset.toNat)
  rw [length_toLE] at hload
  rw [hptr, load_store_of_disjoint (Or.inl (by omega)),
    load_store_of_disjoint (Or.inl (Nat.le_of_eq hnext.symm)), hload,
    ofLE_toLE _ _ (UInt64.toNat_lt _), hvariable]

/-! ### One field -/

theorem fieldWritten_writeVariable (htype : column.type = .variable) (val : List UInt8)
    (len : UInt64) (hroom : w.currentChunk.used + (16 + len.toNat) ≤ w.chunkSize.toNat) :
    FieldWritten column len.toNat w (w.writeVariable val len) where
  grows := by
    rw [columnWidth_variable htype]
    exact SuperChunkWriter.grows_writeVariable w val len
  written := writesFree_writeVariable hs val len (by omega)
  position := fun _ => position_writeVariable hs val len hroom
  rowFixedSize := rfl
  rowOffset := rfl

theorem writesFree_write {bytes : List UInt8} (f : SuperChunk → SuperChunk)
    (hf : (f w.currentChunk).chunk.ptr = (w.currentChunk.write bytes).chunk.ptr)
    (hroom : w.currentChunk.used + bytes.length ≤ w.chunkSize.toNat) :
    w.WritesFree (w.onChunk f) := by
  have h := sameOutside_writeAt w.currentChunk.offset bytes w.currentChunk
  rw [hs.chunkSize, SuperChunk.used] at hroom
  show SameOutside _ _ _ (f w.currentChunk).chunk.ptr
  rw [hf]
  exact h.widen (Nat.le_refl _) (by omega)

theorem writesFree_pad {len : UInt64} (c : UInt8)
    (hroom : w.currentChunk.used + len.toNat ≤ w.chunkSize.toNat) :
    w.WritesFree (w.onChunk fun s => s.pad len (some c)) := by
  have h := sameOutside_pad len c w.currentChunk
  rw [hs.chunkSize, SuperChunk.used] at hroom
  exact h.widen (Nat.le_refl _) (by omega)

/-- **A column of `WriteRow`.** -/
theorem fieldWritten_writeColumn (hfits : CellFits column cell)
    (hroom : w.currentChunk.used + (columnWidth column + payloadWritten column cell) ≤
      w.chunkSize.toNat) (hok : w.writeColumn column cell = .ok w') :
    FieldWritten column (payloadWritten column cell) w w' := by
  have hgrows := SuperChunkWriter.grows_writeColumn hfits hok
  cases writeColumn_cases hok with
  | eight bytes val hwidth htype hlen _ _ =>
    rw [hwidth, payloadWritten_of_ne htype] at hroom
    exact ⟨hgrows, writesFree_write hs _ rfl (by omega), fun h => absurd h htype, rfl, rfl⟩
  | four bytes val hwidth htype hlen _ _ =>
    rw [hwidth, payloadWritten_of_ne htype] at hroom
    exact ⟨hgrows, writesFree_write hs _ rfl (by omega), fun h => absurd h htype, rfl, rfl⟩
  | fixed value htype hvalue =>
    obtain ⟨h0, hmax⟩ := hfits.size htype
    have haligned := toNat_sizeofAligned8_size h0 (by omega)
    have hdata := hfits.data htype (by rw [hvalue]; exact Option.some_ne_none value)
    have hvariable : column.type ≠ .variable := by
      rw [htype]
      decide
    rw [columnWidth, htype, payloadWritten_of_ne hvariable, ← haligned] at hroom
    refine ⟨hgrows, writesFree_writeFixed hs value false ?_ hroom, fun h => absurd h hvariable,
      rfl, rfl⟩
    rw [UInt64.le_iff_toNat_le, haligned]
    omega
  | fixedNull htype hvalue =>
    obtain ⟨h0, hmax⟩ := hfits.size htype
    have haligned := toNat_sizeofAligned8_size h0 (by omega)
    have hmod : column.size.bmod (2 ^ 32) = column.size :=
      Int.bmod_eq_of_le (by omega) (by omega)
    have hvariable : column.type ≠ .variable := by
      rw [htype]
      decide
    rw [columnWidth, htype, payloadWritten_of_ne hvariable, ← haligned] at hroom
    refine ⟨hgrows, writesFree_pad hs 0 ?_, fun h => absurd h hvariable, rfl, rfl⟩
    rw [hmod]
    exact hroom
  | «variable» value htype hvalue =>
    rw [columnWidth_variable htype, payloadWritten, htype, hvalue] at hroom
    rw [payloadWritten, htype, hvalue]
    exact fieldWritten_writeVariable hs htype value cell.length hroom
  | variableNull htype hvalue =>
    rw [columnWidth_variable htype, payloadWritten, htype, hvalue] at hroom
    rw [payloadWritten, htype, hvalue]
    exact fieldWritten_writeVariable hs htype [] 0 hroom

theorem writeColumnAsserts_of_room (hfits : CellFits column cell)
    (hroom : w.currentChunk.used + (columnWidth column + payloadWritten column cell) ≤
      w.chunkSize.toNat) : w.WriteColumnAsserts column cell := by
  unfold SuperChunkWriter.WriteColumnAsserts
  cases htype : column.type with
  | int64 | int32 | double =>
    have hwidth : columnWidth column = 8 := by rw [columnWidth, htype]
    cases hvalue : cell.value with
    | none => trivial
    | some value =>
      refine writeAsserts_of_room hs (fun _ => Option.some_ne_none value) (Nat.le_trans ?_ hroom)
      rw [hwidth]
      exact Nat.add_le_add_left (Nat.le_trans (by decide) (Nat.le_add_right 8 _)) _
  | fixed =>
    have hwidth : columnWidth column = (column.size.toNat + 7) / 8 * 8 := by rw [columnWidth, htype]
    cases hvalue : cell.value with
    | none => trivial
    | some value =>
      have hdata := hfits.data htype (by rw [hvalue]; exact Option.some_ne_none value)
      exact writeAsserts_of_room hs (fun _ => Option.some_ne_none value) (by omega)
  | «variable» =>
    rw [columnWidth_variable htype, payloadWritten, htype] at hroom
    cases hvalue : cell.value with
    | none =>
      rw [hvalue] at hroom
      exact writeVariableAsserts_of_room hs (fun h => absurd rfl h) hroom
    | some value =>
      rw [hvalue] at hroom
      exact writeVariableAsserts_of_room hs (fun _ => Option.some_ne_none value) hroom
  | time | date | dateTime | unsupported => cases cell.value <;> trivial

end Room

/-! ### The rows -/

theorem FieldWritten.used {len : Nat} (h : FieldWritten column len w w')
    (hs : SuperChunkWriter.Sound w)
    (hroom : w.currentChunk.used + (columnWidth column + len) ≤ w.chunkSize.toNat) :
    w'.currentChunk.used = w.currentChunk.used + (columnWidth column + len) := by
  obtain ⟨-, hoffset, hvariable⟩ := h.grows.toNat hs hroom
  simp only [SuperChunk.used, hoffset, hvariable]
  omega

theorem wrote_writeColumns {columns : List Column} {row : List Cell}
    (hcells : List.Forall₂ CellFits columns row) (h : Wrote schema n fields w)
    (hroom : w.currentChunk.used + (rowWidth columns + rowWritten columns row) ≤
      w.chunkSize.toNat) :
    w.WriteColumnsAsserts columns row ∧
      ∀ w', SuperChunkWriter.writeColumns columns row w = .ok w' →
        Wrote schema n (fields ++ (RowWrite.writeRow row).fields columns) w' := by
  induction hcells generalizing fields w with
  | nil =>
    refine ⟨h.rowEnd, ?_⟩
    intro w' hok
    obtain rfl := Except.ok.inj hok
    rw [RowWrite.fields, List.zipWith_nil_left, List.append_nil]
    exact h
  | @cons column cell columns row hcell _ ih =>
    simp only [rowWidth, rowWritten, List.map_cons, List.zipWith_cons_cons, List.sum_cons]
      at hroom ih
    have hfirst : w.currentChunk.used + (columnWidth column + payloadWritten column cell) ≤
        w.chunkSize.toNat := by omega
    have hnext : ∀ w₁, w.writeColumn column cell = .ok w₁ →
        w₁.WriteColumnsAsserts columns row ∧
          ∀ w', SuperChunkWriter.writeColumns columns row w₁ = .ok w' →
            Wrote schema n (fields ++ [(column, payloadWritten column cell)] ++
              (RowWrite.writeRow row).fields columns) w' := by
      intro w₁ hok
      have hfield := fieldWritten_writeColumn h.sound hcell hfirst hok
      refine ih (h.field hfield hfirst) ?_
      rw [hfield.used h.sound hfirst, hfield.grows.chunkSize]
      omega
    constructor
    · exact ⟨writeColumnAsserts_of_room h.sound hcell hfirst, fun w₁ hok => (hnext w₁ hok).1⟩
    · intro w' hok
      rw [SuperChunkWriter.writeColumns, List.headD_cons, List.tail_cons] at hok
      cases hcolumn : w.writeColumn column cell with
      | error e =>
        rw [hcolumn] at hok
        cases hok
      | ok w₁ =>
        rw [hcolumn] at hok
        have hwrote := (hnext w₁ hcolumn).2 w' hok
        rw [List.append_assoc] at hwrote
        exact hwrote

theorem whenEnough_true {requested : UInt64} {write : SuperChunkWriter → SuperChunkWriter}
    (h : (WriterCalls.whenEnough requested write w).1 = true) :
    w.hasEnoughSpace requested = true ∧
      (WriterCalls.whenEnough requested write w).2 = write w := by
  unfold WriterCalls.whenEnough at h ⊢
  cases henough : w.hasEnoughSpace requested with
  | false =>
    rw [henough] at h
    cases h
  | true => exact ⟨rfl, rfl⟩

/-- What a call that returns true does. -/
structure CallWritten (column : Column) (call : FieldCall) (w : SuperChunkWriter) : Prop where
  field : FieldWritten column call.payload w (call.toCall.run w).2
  room : w.currentChunk.used + (columnWidth column + call.payload) ≤ w.chunkSize.toNat
  asserts : call.Asserts w

theorem callWritten_number {call : FieldCall} {n val : Nat} (hs : SuperChunkWriter.Sound w)
    (f : SuperChunk → SuperChunk) (hcolumn : column.type ≠ .fixed ∧ column.type ≠ .variable)
    (hrun : call.toCall.run w =
      WriterCalls.whenEnough defaultAlignmentSize (SuperChunkWriter.onChunk f) w)
    (hpayload : call.payload = 0) (hn : n ≤ 8)
    (hf : (f w.currentChunk).chunk.ptr = (w.currentChunk.writeTyped n val).chunk.ptr)
    (hgrows : SuperChunkWriter.Grows w (w.onChunk f) 8 0)
    (hasserts : w.HasEnoughSpaceAsserts → call.Asserts w) (htrue : (call.toCall.run w).1 = true) :
    CallWritten column call w := by
  rw [hrun] at htrue
  obtain ⟨henough, hresult⟩ := whenEnough_true htrue
  rw [hs.hasEnoughSpace_iff] at henough
  have height : defaultAlignmentSize.toNat = 8 := rfl
  rw [height] at henough
  have hwidth := columnWidth_number hcolumn
  constructor
  · rw [hrun, hresult, hpayload]
    refine ⟨by rw [hwidth]; exact hgrows, writesFree_typed hs val f hf (by omega),
      fun h => absurd h hcolumn.2, rfl, rfl⟩
  · rw [hwidth, hpayload]
    exact henough
  · exact hasserts hs.hasEnoughSpaceAsserts

/-- **A call for a column.** -/
theorem callWritten_of_true {call : FieldCall} (hs : SuperChunkWriter.Sound w)
    (hsuits : call.Suits column) (htrue : (call.toCall.run w).1 = true) :
    CallWritten column call w := by
  cases call with
  | writeInt64 val =>
    exact callWritten_number hs (fun s => s.write8Typed val) hsuits rfl rfl (Nat.le_refl 8) rfl
      (SuperChunkWriter.grows_write8Typed w val) (fun h => ⟨h, fun _ => trivial⟩) htrue
  | writeInt32 val =>
    exact callWritten_number (n := 4) hs (fun s => (s.write4Typed val.toUInt32).pad 4 none) hsuits
      rfl rfl (by decide) rfl (SuperChunkWriter.grows_write4Typed w val.toUInt32)
      (fun h => ⟨h, fun _ => trivial⟩) htrue
  | writeDouble val =>
    exact callWritten_number hs (fun s => s.write8Typed val) hsuits rfl rfl (Nat.le_refl 8) rfl
      (SuperChunkWriter.grows_write8Typed w val) (fun h => ⟨h, fun _ => trivial⟩) htrue
  | writeFixed val dataSize fieldSize padWithZero =>
    obtain ⟨htype, hsize, h0, hle, hlt, hnull⟩ := hsuits
    have haligned := toNat_sizeofAligned8_size (Int.le_trans h0 hle) hlt
    have hsmaller := ofInt_le_sizeofAligned8 h0 hle hlt
    have hwidth : columnWidth column = (sizeofAligned8 (UInt64.ofInt fieldSize)).toNat := by
      rw [columnWidth, htype, haligned, hsize]
    have hvariable : column.type ≠ .variable := by
      rw [htype]
      decide
    have hrun : (FieldCall.writeFixed val dataSize fieldSize padWithZero).toCall.run w =
        WriterCalls.whenEnough (sizeofAligned8 (UInt64.ofInt fieldSize)) (fun writer =>
          writer.writeFixed (val.getD []) (UInt64.ofInt dataSize) (UInt64.ofInt fieldSize)
            padWithZero) w := rfl
    rw [hrun] at htrue
    obtain ⟨henough, hresult⟩ := whenEnough_true htrue
    rw [hs.hasEnoughSpace_iff] at henough
    constructor
    · rw [hrun, hresult]
      refine ⟨?_, writesFree_writeFixed hs _ _ hsmaller henough, fun h => absurd h hvariable,
        rfl, rfl⟩
      rw [hwidth]
      exact SuperChunkWriter.grows_writeFixed w _ padWithZero hsmaller
    · rw [hwidth]
      exact henough
    · refine ⟨hs.hasEnoughSpaceAsserts, fun _ => writeAsserts_of_room hs ?_ ?_⟩
      · intro hsome hnone
        rw [hnull hnone] at hsome
        exact hsome rfl
      · have := UInt64.le_iff_toNat_le.mp hsmaller
        omega
  | writeVariable val len =>
    obtain ⟨htype, hlen, hnull⟩ := hsuits
    have hneeded : (WriterCalls.spaceNeeded len).toNat = 16 + len.toNat := by
      rw [toNat_spaceNeeded, if_pos (by omega)]
      omega
    have hrun : (FieldCall.writeVariable val len).toCall.run w = WriterCalls.whenEnough
        (WriterCalls.spaceNeeded len) (fun writer => writer.writeVariable (val.getD []) len) w := rfl
    rw [hrun] at htrue
    obtain ⟨henough, hresult⟩ := whenEnough_true htrue
    rw [hs.hasEnoughSpace_iff, hneeded] at henough
    constructor
    · rw [hrun, hresult]
      exact fieldWritten_writeVariable hs htype _ len henough
    · rw [columnWidth_variable htype]
      exact henough
    · refine ⟨hs.hasEnoughSpaceAsserts, fun _ => writeVariableAsserts_of_room hs ?_ henough⟩
      intro hsome hnone
      exact hsome (hnull hnone)

theorem wrote_runCalls {columns : List Column} {calls : List FieldCall}
    (hsuits : List.Forall₂ FieldCall.Suits columns calls) (h : Wrote schema n fields w) :
    CallsAssert calls w ∧ ∀ w', runCalls calls w = some w' →
      Wrote schema (n + 1) (fields ++ (RowWrite.fieldCalls calls).fields columns) w' := by
  induction hsuits generalizing fields w with
  | nil =>
    refine ⟨h.rowEnd, ?_⟩
    intro w' hrun
    obtain rfl := Option.some.inj hrun
    rw [RowWrite.fields, List.zipWith_nil_left, List.append_nil]
    exact h.rowEnd_wrote
  | @cons column call columns calls hcall _ ih =>
    have hnext : (call.toCall.run w).1 = true →
        CallsAssert calls (call.toCall.run w).2 ∧
          ∀ w', runCalls calls (call.toCall.run w).2 = some w' →
            Wrote schema (n + 1) (fields ++ [(column, call.payload)] ++
              (RowWrite.fieldCalls calls).fields columns) w' := by
      intro htrue
      have hwritten := callWritten_of_true h.sound hcall htrue
      exact ih (h.field hwritten.field hwritten.room)
    constructor
    · refine ⟨?_, fun htrue => (hnext htrue).1⟩
      by_cases htrue : (call.toCall.run w).1 = true
      · exact (callWritten_of_true h.sound hcall htrue).asserts
      · exact ⟨h.sound.hasEnoughSpaceAsserts, fun h' => absurd h' htrue⟩
    · intro w' hrun
      rw [runCalls] at hrun
      split at hrun
      · rename_i htrue
        have hwrote := (hnext htrue).2 w' hrun
        rw [List.append_assoc] at hwrote
        exact hwrote
      · cases hrun

/-- **A row**: no assertion fails, and an accepted row lies behind the rows
before it. -/
theorem wrote_run {row : RowWrite} (hsuits : row.Suits schema.columnInfo)
    (h : Wrote schema n fields w) :
    row.Asserts w ∧ ∀ w', row.run w = some w' →
      Wrote schema (n + 1) (fields ++ row.fields schema.columnInfo) w' := by
  cases row with
  | fieldCalls calls => exact wrote_runCalls hsuits h
  | writeRow row =>
    have hrow : RowFits schema.columnInfo row := hsuits
    have hsize := hrow.le_rowSize
    have hcolumns : w.hasEnoughSpace (rowSize w.rowSchema row) = true →
        w.WriteColumnsAsserts schema.columnInfo row ∧
          ∀ w', SuperChunkWriter.writeColumns schema.columnInfo row w = .ok w' →
            Wrote schema n (fields ++ (RowWrite.writeRow row).fields schema.columnInfo) w' := by
      intro henough
      rw [h.sound.hasEnoughSpace_iff, h.rowSchema] at henough
      exact wrote_writeColumns hrow.cells h (by omega)
    constructor
    · refine ⟨h.sound.hasEnoughSpaceAsserts, ?_⟩
      intro henough
      rw [h.rowSchema]
      exact (hcolumns henough).1
    · intro w' hrun
      rw [RowWrite.run] at hrun
      split at hrun
      · rename_i w₁ hok
        obtain rfl := Option.some.inj hrun
        obtain ⟨henough, w₂, hwrite, rfl⟩ := writeRow_true hok
        rw [h.rowSchema] at hwrite
        exact ((hcolumns henough).2 w₂ hwrite).rowEnd_wrote
      · cases hrun

/-- **The rows of a chunk**: no assertion of the writer fails. -/
theorem wrote_runRows {rows : List RowWrite}
    (hrows : ∀ row ∈ rows, row.Suits schema.columnInfo) (h : Wrote schema n fields w) :
    RowsAssert rows w ∧ ∀ w', runRows rows w = some w' →
      Wrote schema (n + rows.length) (fields ++ rows.flatMap (·.fields schema.columnInfo)) w' := by
  induction rows generalizing n fields w with
  | nil =>
    refine ⟨trivial, ?_⟩
    intro w' hrun
    obtain rfl := Option.some.inj hrun
    rw [List.flatMap_nil, List.append_nil]
    exact h
  | cons row rows ih =>
    obtain ⟨hrow, hrest⟩ := List.forall_mem_cons.mp hrows
    obtain ⟨hasserts, hwrote⟩ := wrote_run hrow h
    constructor
    · exact ⟨hasserts, fun w₁ hrun => (ih hrest (hwrote w₁ hrun)).1⟩
    · intro w' hrun
      obtain ⟨w₁, hfirst, hrun⟩ := Option.bind_eq_some_iff.mp hrun
      have hlast := (ih hrest (hwrote w₁ hfirst)).2 w' hrun
      rw [List.append_assoc, Nat.add_assoc, Nat.add_comm 1] at hlast
      exact hlast

end Writes

end SasLibclient
