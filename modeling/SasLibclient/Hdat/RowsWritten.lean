import Mathlib.Data.List.Forall2
import SasLibclient.Hdat.Layout

/-!
# What `WriteRow` writes

`fieldValue` says what a cell stands for. Every column adds its field to the
layout of the chunk (`writeColumn_written`), so that a chunk that rows were
written to holds their fields, one row behind the other (`writeRow_written`).
-/

namespace SasLibclient

open Bytes

/-- The field that a cell stands for. -/
def fieldValue (column : Column) (cell : Cell) : Field :=
  match column.type, cell.value with
  | .int64, some value => .int64 (UInt64.ofNat (ofLE (bytesAt value 8)))
  | .int64, none => .int64 int64Null
  | .int32, some value => .int32 (UInt32.ofNat (ofLE (bytesAt value 4)))
  | .int32, none => .int32 int32Null
  | .dateTime, some value => .int64 ((toDateTimeCAS value).toOption.getD int64Null)
  | .dateTime, none => .int64 int64Null
  | .date, some value => .int32 ((toDateCAS value).toOption.getD int32Null)
  | .date, none => .int32 int32Null
  | .time, some value => .int64 (toTimeCAS value)
  | .time, none => .int64 int64Null
  | .double, some value => .double (UInt64.ofNat (ofLE (bytesAt value 8)))
  | .double, none => .double doubleNull
  | .fixed, some value =>
    .fixed (bytesAt value cell.length.toNat ++
      List.replicate (column.size.toNat - cell.length.toNat) 32)
  | .fixed, none => .fixed (List.replicate column.size.toNat 0)
  | .variable, some value => .variable (bytesAt value cell.length.toNat)
  | .variable, none => .variable []
  | .unsupported, _ => .variable []

/-- A fixed column has its size in `[0, 2^31)` and no longer data. -/
structure CellFits (column : Column) (cell : Cell) : Prop where
  size : column.type = .fixed → 0 ≤ column.size ∧ column.size < 2 ^ 31
  data : column.type = .fixed → cell.value ≠ none → cell.length.toNat ≤ column.size.toNat

/-- The length of a column's field. -/
def columnWidth (column : Column) : Nat :=
  match column.type with
  | .fixed => (column.size.toNat + 7) / 8 * 8
  | .variable => 16
  | _ => 8

/-- The length of the payload that `rowSize` counts. -/
def payloadLength (column : Column) (cell : Cell) : Nat :=
  match column.type with
  | .variable => cell.length.toNat
  | _ => 0

variable {column : Column} {cell : Cell} {fs : List Field}

@[simp] theorem length_bytesAt (value : List UInt8) (n : Nat) : (bytesAt value n).length = n := by
  simp [bytesAt]

theorem ofLE_bytesAt8 (value : List UInt8) :
    ofLE (bytesAt value 8) = (UInt64.ofNat (ofLE (bytesAt value 8))).toNat := by
  have hlt := ofLE_lt (bytesAt value 8)
  rw [length_bytesAt] at hlt
  rw [UInt64.toNat_ofNat', Nat.mod_eq_of_lt (by omega)]

theorem ofLE_bytesAt4 (value : List UInt8) :
    ofLE (bytesAt value 4) = (UInt32.ofNat (ofLE (bytesAt value 4))).toNat := by
  have hlt := ofLE_lt (bytesAt value 4)
  rw [length_bytesAt] at hlt
  rw [UInt32.toNat_ofNat', Nat.mod_eq_of_lt (by omega)]

theorem toNat_ofInt_size {size : Int} (h0 : 0 ≤ size) (h : size < 2 ^ 63) :
    (UInt64.ofInt size).toNat = size.toNat := by
  rw [UInt64.ofInt, UInt64.toNat_ofNat']
  omega

theorem toNat_sizeofAligned8_size {size : Int} (h0 : 0 ≤ size) (h : size < 2 ^ 63) :
    (sizeofAligned8 (UInt64.ofInt size)).toNat = (size.toNat + 7) / 8 * 8 := by
  rw [toNat_sizeofAligned8, toNat_ofInt_size h0 h, Nat.mod_eq_of_lt (by omega)]

theorem ofInt_le_sizeofAligned8 {dataSize size : Int} (h0 : 0 ≤ dataSize) (hle : dataSize ≤ size)
    (h : size < 2 ^ 63) : UInt64.ofInt dataSize ≤ sizeofAligned8 (UInt64.ofInt size) := by
  have haligned := toNat_sizeofAligned8_size (Int.le_trans h0 hle) h
  rw [UInt64.le_iff_toNat_le, toNat_ofInt_size h0 (Int.lt_of_le_of_lt hle h), haligned]
  omega

/-! ## Writing -/

/-- What every write keeps. -/
structure SameChunk (w w' : SuperChunkWriter) : Prop where
  rowSchema : w'.rowSchema = w.rowSchema
  chunkSize : w'.chunkSize = w.chunkSize
  size : w'.currentChunk.chunk.size = w.currentChunk.chunk.size
  rowCount : w'.currentChunk.chunk.rowCount = w.currentChunk.chunk.rowCount

@[simp] theorem SuperChunk.writeAt_rowCount (offset : UInt64) (src : List UInt8)
    (s : SuperChunk) : (s.writeAt offset src).chunk.rowCount = s.chunk.rowCount := by
  unfold SuperChunk.writeAt; split <;> rfl

/-- The bytes that a column of a row takes at most. -/
def columnNeed (column : Column) (cell : Cell) : Nat :=
  columnWidth column + payloadLength column cell

/-- The space that the sections of a chunk take. -/
def SuperChunk.used (s : SuperChunk) : Nat := s.offset.toNat + s.chunk.variableOffset.toNat

/-- What writing a column does. -/
structure ColumnWritten (column : Column) (cell : Cell) (fs : List Field)
    (w w' : SuperChunkWriter) : Prop extends SameChunk w w' where
  layout : Layout w'.currentChunk (fs ++ [fieldValue column cell])
  used : w'.currentChunk.used ≤ w.currentChunk.used + columnNeed column cell

theorem width_fieldValue (h : CellFits column cell) (htype : column.type ≠ .unsupported) :
    (fieldValue column cell).width = columnWidth column := by
  obtain ⟨ty, size, name⟩ := column
  obtain ⟨value, length⟩ := cell
  cases ty with
  | fixed =>
    cases value with
    | none => simp [fieldValue, columnWidth, Field.width]
    | some value =>
      have hdata : length.toNat ≤ size.toNat := h.data rfl (Option.some_ne_none value)
      have hsum : length.toNat + (size.toNat - length.toNat) = size.toNat := by omega
      simp [fieldValue, columnWidth, Field.width, hsum]
  | unsupported => exact absurd rfl htype
  | int64 | int32 | double | «variable» | time | date | dateTime => cases value <;> rfl

theorem ColumnWritten.of_layout {w w' : SuperChunkWriter} (h : Layout w.currentChunk fs)
    (hsame : SameChunk w w')
    (hlayout : Layout w'.currentChunk (fs ++ [fieldValue column cell]))
    (hwidth : (fieldValue column cell).width = columnWidth column)
    (hvar : w'.currentChunk.chunk.variableOffset.toNat ≤
      w.currentChunk.chunk.variableOffset.toNat + payloadLength column cell) :
    ColumnWritten column cell fs w w' where
  toSameChunk := hsame
  layout := hlayout
  used := by
    have hold := h.offset
    have hnew := hlayout.offset
    rw [widths_append, widths_cons, widths_nil, hwidth] at hnew
    simp only [SuperChunk.used, columnNeed]
    omega

/-! ### What a column writes -/

/-- How `WriteRow` writes a column: eight bytes, four bytes and their padding, or
a fixed or variable value. -/
inductive ColumnWrite (column : Column) (cell : Cell) (w : SuperChunkWriter) :
    SuperChunkWriter → Prop
  | eight (bytes : List UInt8) (val : UInt64) :
      columnWidth column = 8 → column.type ≠ .variable → bytes.length = 8 →
      ofLE bytes = val.toNat →
      fieldValue column cell = .int64 val ∨ fieldValue column cell = .double val →
      ColumnWrite column cell w (w.onChunk fun s => s.write bytes)
  | four (bytes : List UInt8) (val : UInt32) :
      columnWidth column = 8 → column.type ≠ .variable → bytes.length = 4 →
      ofLE bytes = val.toNat → fieldValue column cell = .int32 val →
      ColumnWrite column cell w (w.onChunk fun s => (s.write bytes).pad 4 none)
  | fixed (value : List UInt8) : column.type = .fixed → cell.value = some value →
      ColumnWrite column cell w (w.writeFixed value cell.length (UInt64.ofInt column.size) false)
  | fixedNull : column.type = .fixed → cell.value = none →
      ColumnWrite column cell w (w.writeFixedNull column.size)
  | variable (value : List UInt8) : column.type = .variable → cell.value = some value →
      ColumnWrite column cell w (w.writeVariable value cell.length)
  | variableNull : column.type = .variable → cell.value = none →
      ColumnWrite column cell w w.writeVariableNull

theorem columnWidth_number {column : Column} (h : column.type ≠ .fixed ∧ column.type ≠ .variable) :
    columnWidth column = 8 := by
  unfold columnWidth
  split
  · exact absurd ‹_› h.1
  · exact absurd ‹_› h.2
  · rfl

theorem ColumnWrite.typed8 {w : SuperChunkWriter} {val : UInt64}
    (h : column.type ≠ .fixed ∧ column.type ≠ .variable)
    (hf : fieldValue column cell = .int64 val ∨ fieldValue column cell = .double val) :
    ColumnWrite column cell w (w.onChunk fun s => s.write8Typed val) :=
  .eight (toLE 8 val.toNat) val (columnWidth_number h) h.2 (length_toLE _ _)
    (ofLE_toLE _ _ (UInt64.toNat_lt val)) hf

theorem ColumnWrite.typed4 {w : SuperChunkWriter} {val : UInt32}
    (h : column.type ≠ .fixed ∧ column.type ≠ .variable)
    (hf : fieldValue column cell = .int32 val) :
    ColumnWrite column cell w (w.onChunk fun s => (s.write4Typed val).pad 4 none) :=
  .four (toLE 4 val.toNat) val (columnWidth_number h) h.2 (length_toLE _ _)
    (ofLE_toLE _ _ (UInt32.toNat_lt val)) hf

/-- **What a `NULL` can write.** -/
theorem writeColumn_null {w w' : SuperChunkWriter} (hvalue : cell.value = none)
    (hok : w.writeColumn column cell = .ok w') : ColumnWrite column cell w w' := by
  unfold SuperChunkWriter.writeColumn at hok
  cases hcolumn : column.type with
  | int64 | dateTime | time =>
    have hnumber : column.type ≠ .fixed ∧ column.type ≠ .variable := by rw [hcolumn]; decide
    simp only [hcolumn, hvalue, Except.ok.injEq] at hok
    subst hok
    exact .typed8 hnumber (Or.inl (by rw [fieldValue, hcolumn, hvalue]))
  | int32 | date =>
    have hnumber : column.type ≠ .fixed ∧ column.type ≠ .variable := by rw [hcolumn]; decide
    simp only [hcolumn, hvalue, Except.ok.injEq] at hok
    subst hok
    exact .typed4 hnumber (by rw [fieldValue, hcolumn, hvalue])
  | double =>
    have hnumber : column.type ≠ .fixed ∧ column.type ≠ .variable := by rw [hcolumn]; decide
    simp only [hcolumn, hvalue, Except.ok.injEq] at hok
    subst hok
    exact .typed8 hnumber (Or.inr (by rw [fieldValue, hcolumn, hvalue]))
  | fixed =>
    simp only [hcolumn, hvalue, Except.ok.injEq] at hok
    subst hok
    exact .fixedNull hcolumn hvalue
  | «variable» =>
    simp only [hcolumn, hvalue, Except.ok.injEq] at hok
    subst hok
    exact .variableNull hcolumn hvalue
  | unsupported =>
    rw [hcolumn] at hok
    cases hok

/-- **What a value can write.** -/
theorem writeColumn_some {w w' : SuperChunkWriter} {value : List UInt8}
    (hvalue : cell.value = some value) (hok : w.writeColumn column cell = .ok w') :
    ColumnWrite column cell w w' := by
  unfold SuperChunkWriter.writeColumn at hok
  cases hcolumn : column.type with
  | int64 =>
    have hnumber : column.type ≠ .fixed ∧ column.type ≠ .variable := by rw [hcolumn]; decide
    simp only [hcolumn, hvalue, Except.ok.injEq] at hok
    subst hok
    exact .eight (bytesAt value 8) _ (columnWidth_number hnumber) hnumber.2 (length_bytesAt value 8)
      (ofLE_bytesAt8 value) (Or.inl (by rw [fieldValue, hcolumn, hvalue]))
  | int32 =>
    have hnumber : column.type ≠ .fixed ∧ column.type ≠ .variable := by rw [hcolumn]; decide
    simp only [hcolumn, hvalue, Except.ok.injEq] at hok
    subst hok
    exact .four (bytesAt value 4) _ (columnWidth_number hnumber) hnumber.2 (length_bytesAt value 4)
      (ofLE_bytesAt4 value) (by rw [fieldValue, hcolumn, hvalue])
  | dateTime =>
    have hnumber : column.type ≠ .fixed ∧ column.type ≠ .variable := by rw [hcolumn]; decide
    simp only [hcolumn, hvalue] at hok
    obtain ⟨v, hv, rfl⟩ := SuperChunkWriter.writeConverted_ok hok
    refine .typed8 hnumber (Or.inl ?_)
    rw [fieldValue, hcolumn, hvalue]
    show Field.int64 ((toDateTimeCAS value).toOption.getD int64Null) = .int64 v
    rw [hv]
    rfl
  | date =>
    have hnumber : column.type ≠ .fixed ∧ column.type ≠ .variable := by rw [hcolumn]; decide
    simp only [hcolumn, hvalue] at hok
    obtain ⟨v, hv, rfl⟩ := SuperChunkWriter.writeConverted_ok hok
    refine .typed4 hnumber ?_
    rw [fieldValue, hcolumn, hvalue]
    show Field.int32 ((toDateCAS value).toOption.getD int32Null) = .int32 v
    rw [hv]
    rfl
  | time =>
    have hnumber : column.type ≠ .fixed ∧ column.type ≠ .variable := by rw [hcolumn]; decide
    simp only [hcolumn, hvalue, Except.ok.injEq] at hok
    subst hok
    exact .typed8 hnumber (Or.inl (by rw [fieldValue, hcolumn, hvalue]))
  | double =>
    have hnumber : column.type ≠ .fixed ∧ column.type ≠ .variable := by rw [hcolumn]; decide
    simp only [hcolumn, hvalue, Except.ok.injEq] at hok
    subst hok
    exact .eight (bytesAt value 8) _ (columnWidth_number hnumber) hnumber.2 (length_bytesAt value 8)
      (ofLE_bytesAt8 value) (Or.inr (by rw [fieldValue, hcolumn, hvalue]))
  | fixed =>
    simp only [hcolumn, hvalue, Except.ok.injEq] at hok
    subst hok
    exact .fixed value hcolumn hvalue
  | «variable» =>
    simp only [hcolumn, hvalue, Except.ok.injEq] at hok
    subst hok
    exact .variable value hcolumn hvalue
  | unsupported =>
    rw [hcolumn] at hok
    cases hok

/-- **What a column can write.** -/
theorem writeColumn_cases {w w' : SuperChunkWriter} (hok : w.writeColumn column cell = .ok w') :
    ColumnWrite column cell w w' := by
  cases hvalue : cell.value with
  | none => exact writeColumn_null hvalue hok
  | some value => exact writeColumn_some hvalue hok

/-! ### The columns one by one -/

section Columns

variable {w : SuperChunkWriter}

theorem ColumnWritten.bytes8 (h : Layout w.currentChunk fs) {bytes : List UInt8} {val : UInt64}
    (hlen : bytes.length = 8) (hval : ofLE bytes = val.toNat)
    (hf : fieldValue column cell = .int64 val ∨ fieldValue column cell = .double val)
    (hwidth : (fieldValue column cell).width = columnWidth column)
    (hspace : w.currentChunk.used + columnNeed column cell ≤ w.currentChunk.chunk.size.toNat) :
    ColumnWritten column cell fs w (w.onChunk fun s => s.write bytes) := by
  have hvar : (w.currentChunk.write bytes).chunk.variableOffset =
      w.currentChunk.chunk.variableOffset := SuperChunk.writeAt_variableOffset ..
  refine .of_layout h ⟨rfl, rfl, ?_, ?_⟩ (h.write8 hf ?_ hlen hval) hwidth ?_
  · exact SuperChunk.writeAt_size ..
  · exact SuperChunk.writeAt_rowCount ..
  · rw [hwidth]
    simp only [SuperChunk.used, columnNeed] at hspace
    omega
  · show (w.currentChunk.write bytes).chunk.variableOffset.toNat ≤ _
    rw [hvar]
    exact Nat.le_add_right _ _

theorem ColumnWritten.bytes4 (h : Layout w.currentChunk fs) {bytes : List UInt8} {val : UInt32}
    (hlen : bytes.length = 4) (hval : ofLE bytes = val.toNat)
    (hf : fieldValue column cell = .int32 val)
    (hwidth : (fieldValue column cell).width = columnWidth column)
    (hspace : w.currentChunk.used + columnNeed column cell ≤ w.currentChunk.chunk.size.toNat) :
    ColumnWritten column cell fs w (w.onChunk fun s => (s.write bytes).pad 4 none) := by
  have hvar : (w.currentChunk.write bytes).chunk.variableOffset =
      w.currentChunk.chunk.variableOffset := SuperChunk.writeAt_variableOffset ..
  have height : columnWidth column = 8 := by
    rw [← hwidth, hf]
    rfl
  refine .of_layout h ⟨rfl, rfl, ?_, ?_⟩ (hf ▸ h.write4 ?_ hlen hval) hwidth ?_
  · exact SuperChunk.writeAt_size ..
  · exact SuperChunk.writeAt_rowCount ..
  · simp only [SuperChunk.used, columnNeed] at hspace
    omega
  · show (w.currentChunk.write bytes).chunk.variableOffset.toNat ≤ _
    rw [hvar]
    exact Nat.le_add_right _ _

/-- A fixed field: its data and spaces. -/
theorem ColumnWritten.fixed (h : Layout w.currentChunk fs) {value : List UInt8}
    (hfits : CellFits column cell) (htype : column.type = .fixed) (hvalue : cell.value = some value)
    (hspace : w.currentChunk.used + columnNeed column cell ≤ w.currentChunk.chunk.size.toNat) :
    ColumnWritten column cell fs w
      (w.writeFixed value cell.length (UInt64.ofInt column.size) false) := by
  obtain ⟨h0, hmax⟩ := hfits.size htype
  have hwidth := width_fieldValue hfits (by rw [htype]; decide)
  have hf : fieldValue column cell = .fixed (bytesAt value cell.length.toNat ++
      List.replicate (column.size.toNat - (bytesAt value cell.length.toNat).length) 32) := by
    rw [length_bytesAt, fieldValue, htype, hvalue]
  have hcolumn : columnWidth column = (column.size.toNat + 7) / 8 * 8 := by
    rw [columnWidth, htype]
  have hdata : (bytesAt value cell.length.toNat).length ≤ column.size.toNat := by
    rw [length_bytesAt]
    exact hfits.data htype (by rw [hvalue]; exact Option.some_ne_none value)
  have hlayout := h.writeFixed 32 hdata (toNat_sizeofAligned8_size h0 (by omega)) (by
    simp only [SuperChunk.used, columnNeed] at hspace
    omega)
  rw [← hf, length_bytesAt, UInt64.ofNat_toNat] at hlayout
  refine .of_layout h ⟨rfl, rfl, ?_, ?_⟩ hlayout hwidth ?_
  · exact SuperChunk.writeAt_size ..
  · exact SuperChunk.writeAt_rowCount ..
  · show (w.currentChunk.write (bytesAt value cell.length.toNat)).chunk.variableOffset.toNat ≤ _
    rw [show (w.currentChunk.write (bytesAt value cell.length.toNat)).chunk.variableOffset =
      w.currentChunk.chunk.variableOffset from SuperChunk.writeAt_variableOffset ..]
    exact Nat.le_add_right _ _

/-- `NULL` in a fixed column: zeros. -/
theorem ColumnWritten.fixedNull (h : Layout w.currentChunk fs) (hfits : CellFits column cell)
    (htype : column.type = .fixed) (hvalue : cell.value = none)
    (hspace : w.currentChunk.used + columnNeed column cell ≤ w.currentChunk.chunk.size.toNat) :
    ColumnWritten column cell fs w (w.writeFixedNull column.size) := by
  obtain ⟨h0, hmax⟩ := hfits.size htype
  have hwidth := width_fieldValue hfits (by rw [htype]; decide)
  have hf : fieldValue column cell = .fixed (List.replicate column.size.toNat 0) := by
    rw [fieldValue, htype, hvalue]
  have hcolumn : columnWidth column = (column.size.toNat + 7) / 8 * 8 := by
    rw [columnWidth, htype]
  have hint : column.size.bmod (2 ^ 32) = column.size := by
    apply Int.bmod_eq_of_le <;> omega
  have haligned := toNat_sizeofAligned8_size h0 (by omega)
  rw [hwidth.symm.trans (congrArg Field.width hf)] at hcolumn
  refine .of_layout h ⟨rfl, rfl, rfl, rfl⟩
    (h.store_field (List.replicate ((column.size.toNat + 7) / 8 * 8) 0) ?_ rfl rfl ?_ ?_ ?_ ?_)
    hwidth (Nat.le_add_right _ _)
  · show store w.currentChunk.chunk.ptr w.currentChunk.offset.toNat (List.replicate
      (sizeofAligned8 (UInt64.ofInt (column.size.bmod (2 ^ 32)))).toNat 0) = _
    rw [hint, haligned]
  · show w.currentChunk.offset + sizeofAligned8 (UInt64.ofInt (column.size.bmod (2 ^ 32))) = _
    rw [hint, hf, hcolumn, ← haligned, UInt64.ofNat_toNat]
  · simp only [SuperChunk.used, columnNeed] at hspace
    omega
  · rw [hf, hcolumn, List.length_replicate]
  · rw [hf]
    show load _ _ (List.replicate column.size.toNat 0).length = _
    rw [load_store_take _ _ _ (by rw [List.length_replicate, List.length_replicate]; omega),
      List.length_replicate, List.take_replicate, Nat.min_eq_left (by omega)]

theorem ColumnWritten.variable (h : Layout w.currentChunk fs)
    (hsize : w.chunkSize = w.currentChunk.chunk.size) {value : List UInt8} {len : UInt64}
    (hf : fieldValue column cell = .variable (bytesAt value len.toNat))
    (hlen : len.toNat ≤ payloadLength column cell) (hcolumn : columnWidth column = 16)
    (hspace : w.currentChunk.used + columnNeed column cell ≤ w.currentChunk.chunk.size.toNat) :
    ColumnWritten column cell fs w (w.writeVariable value len) := by
  have hlt := w.currentChunk.chunk.size.toNat_lt
  simp only [SuperChunk.used, columnNeed] at hspace
  have hlayout := h.writeVariable (length_bytesAt value len.toNat) (by omega)
  rw [← hf, ← hsize] at hlayout
  refine .of_layout h ⟨rfl, rfl, ?_, ?_⟩ hlayout ?_ ?_
  · exact SuperChunk.writeAt_size ..
  · exact SuperChunk.writeAt_rowCount ..
  · rw [hf, hcolumn]
    rfl
  · have hvar : (w.writeVariable value len).currentChunk.chunk.variableOffset =
        w.currentChunk.chunk.variableOffset + len := SuperChunk.writeAt_variableOffset ..
    rw [hvar, UInt64.toNat_add, Nat.mod_eq_of_lt (by omega)]
    omega

end Columns

/-- **Writing one column.** -/
theorem writeColumn_written {w w' : SuperChunkWriter} (h : Layout w.currentChunk fs)
    (hsize : w.chunkSize = w.currentChunk.chunk.size) (hfits : CellFits column cell)
    (hspace : w.currentChunk.used + columnNeed column cell ≤ w.currentChunk.chunk.size.toNat)
    (hok : w.writeColumn column cell = .ok w') : ColumnWritten column cell fs w w' := by
  cases writeColumn_cases hok with
  | eight bytes val hwidth _ hlen hval hf =>
    refine .bytes8 h hlen hval hf ?_ hspace
    rw [hwidth]
    rcases hf with hf | hf <;> rw [hf] <;> rfl
  | four bytes val hwidth _ hlen hval hf =>
    refine .bytes4 h hlen hval hf ?_ hspace
    rw [hwidth, hf]
    rfl
  | fixed value hcolumn hvalue => exact .fixed h hfits hcolumn hvalue hspace
  | fixedNull hcolumn hvalue => exact .fixedNull h hfits hcolumn hvalue hspace
  | «variable» value hcolumn hvalue =>
    refine .variable h hsize ?_ ?_ (by rw [columnWidth, hcolumn]) hspace
    · rw [fieldValue, hcolumn, hvalue]
    · rw [payloadLength, hcolumn]
  | variableNull hcolumn hvalue =>
    refine .variable h hsize ?_ ?_ (by rw [columnWidth, hcolumn]) hspace
    · rw [fieldValue, hcolumn, hvalue, UInt64.toNat_zero]
      rfl
    · rw [UInt64.toNat_zero]
      exact Nat.zero_le _

/-! ### Rows -/

/-- The fields of a row. -/
def rowFields (columns : List Column) (row : List Cell) : List Field :=
  List.zipWith fieldValue columns row

/-- The bytes that a row takes at most. -/
def rowNeed (columns : List Column) (row : List Cell) : Nat :=
  (List.zipWith columnNeed columns row).sum

/-- The bytes of the payloads of a row. -/
def rowPayload (columns : List Column) (row : List Cell) : Nat :=
  (List.zipWith payloadLength columns row).sum

/-- A row that suits the schema. -/
structure RowFits (columns : List Column) (row : List Cell) : Prop where
  cells : List.Forall₂ CellFits columns row
  payload : rowPayload columns row < 2 ^ 63

theorem toNat_columnSize (h : CellFits column cell) (hlen : columnNeed column cell < 2 ^ 64) :
    (columnSize column cell.length).toNat = columnNeed column cell := by
  unfold columnSize
  unfold columnNeed columnWidth payloadLength at hlen ⊢
  cases hcolumn : column.type with
  | fixed =>
    obtain ⟨h0, hmax⟩ := h.size hcolumn
    exact toNat_sizeofAligned8_size h0 (by omega)
  | «variable» =>
    simp only [hcolumn] at hlen
    have hsixteen : (2 * defaultAlignmentSize).toNat = 16 := rfl
    rw [UInt64.toNat_add, hsixteen, Nat.mod_eq_of_lt (by omega)]
    exact Nat.add_comm _ _
  | int64 | int32 | double | time | date | dateTime | unsupported => rfl

theorem toNat_rowSizeFrom {columns : List Column} {row : List Cell} {total : UInt64}
    (h : List.Forall₂ CellFits columns row) (hlt : total.toNat + rowNeed columns row < 2 ^ 64) :
    (rowSizeFrom total columns row).toNat = total.toNat + rowNeed columns row := by
  induction h generalizing total with
  | nil => rfl
  | @cons column cell columns row hcell _ ih =>
    simp only [rowNeed, List.zipWith_cons_cons, List.sum_cons] at hlt ih ⊢
    have hcolumn := toNat_columnSize hcell (by omega)
    have hsum : (total + columnSize column cell.length).toNat =
        total.toNat + columnNeed column cell := by
      rw [UInt64.toNat_add, hcolumn, Nat.mod_eq_of_lt (by omega)]
    rw [rowSizeFrom, List.headD_cons, List.tail_cons, ih (by rw [hsum]; omega), hsum]
    omega

/-- A column without its payload takes at most `2 ^ 31` bytes. -/
theorem columnWidth_le (h : CellFits column cell) : columnWidth column ≤ 2 ^ 31 := by
  unfold columnWidth
  split
  · rename_i hcolumn
    obtain ⟨h0, hmax⟩ := h.size hcolumn
    omega
  · decide
  · decide

theorem rowNeed_le {columns : List Column} {row : List Cell}
    (h : List.Forall₂ CellFits columns row) :
    rowNeed columns row ≤ columns.length * 2 ^ 31 + rowPayload columns row := by
  induction h with
  | nil => exact Nat.zero_le _
  | cons hcell _ ih =>
    have hwidth := columnWidth_le hcell
    simp only [rowNeed, rowPayload, List.zipWith_cons_cons, List.sum_cons, List.length_cons,
      columnNeed] at ih ⊢
    omega

/-- `rowSize` does not overflow. -/
theorem toNat_rowSize {schema : RowSchema} {row : List Cell} (h : RowFits schema.columnInfo row) :
    (rowSize schema row).toNat = rowNeed schema.columnInfo row := by
  have hneed := rowNeed_le h.cells
  have hpayload := h.payload
  have hcolumns := schema.numColumns_lt
  have hlt : (0 : UInt64).toNat + rowNeed schema.columnInfo row < 2 ^ 64 := by
    rw [UInt64.toNat_zero]
    omega
  rw [rowSize, toNat_rowSizeFrom h.cells hlt, UInt64.toNat_zero, Nat.zero_add]

theorem writeColumns_written {columns : List Column} {row : List Cell} {w w' : SuperChunkWriter}
    (hcells : List.Forall₂ CellFits columns row) (h : Layout w.currentChunk fs)
    (hsize : w.chunkSize = w.currentChunk.chunk.size)
    (hspace : w.currentChunk.used + rowNeed columns row ≤ w.currentChunk.chunk.size.toNat)
    (hok : SuperChunkWriter.writeColumns columns row w = .ok w') :
    SameChunk w w' ∧ Layout w'.currentChunk (fs ++ rowFields columns row) := by
  induction hcells generalizing fs w with
  | nil =>
    obtain rfl := Except.ok.inj hok
    rw [rowFields, List.zipWith_nil_left, List.append_nil]
    exact ⟨⟨rfl, rfl, rfl, rfl⟩, h⟩
  | @cons column cell columns row hcell _ ih =>
    simp only [rowNeed, List.zipWith_cons_cons, List.sum_cons] at hspace ih
    rw [SuperChunkWriter.writeColumns, List.headD_cons, List.tail_cons] at hok
    cases hcolumn : w.writeColumn column cell with
    | error e =>
      rw [hcolumn] at hok
      cases hok
    | ok w₁ =>
      rw [hcolumn] at hok
      have hone := writeColumn_written h hsize hcell (by omega) hcolumn
      have hused := hone.used
      have hnext := ih hone.layout (by rw [hone.chunkSize, hone.size, hsize])
        (by rw [hone.size]; omega) hok
      obtain ⟨hsame, hlayout⟩ := hnext
      refine ⟨⟨?_, ?_, ?_, ?_⟩, ?_⟩
      · rw [hsame.rowSchema, hone.rowSchema]
      · rw [hsame.chunkSize, hone.chunkSize]
      · rw [hsame.size, hone.size]
      · rw [hsame.rowCount, hone.rowCount]
      · rw [rowFields, List.zipWith_cons_cons, ← List.singleton_append, ← List.append_assoc]
        exact hlayout

/-- The writer after some rows of a chunk. -/
structure RowsWritten (schema : RowSchema) (size : UInt64) (rows : List (List Cell))
    (w : SuperChunkWriter) : Prop where
  rowSchema : w.rowSchema = schema
  chunkSize : w.chunkSize = size
  size : w.currentChunk.chunk.size = size
  layout : Layout w.currentChunk (rows.flatMap (rowFields schema.columnInfo))
  rowCount : w.currentChunk.chunk.rowCount = UInt64.ofNat rows.length

theorem RowsWritten.reset (schema : RowSchema) (ptr : Mem) (size id : UInt64)
    (partition : UInt32) :
    RowsWritten schema size [] (SuperChunkWriter.reset (newChunk ptr size id partition) schema) where
  rowSchema := rfl
  chunkSize := rfl
  size := rfl
  layout := ⟨trivial, rfl, Nat.zero_le _⟩
  rowCount := rfl

/-- `HasEnoughSpace` compares without overflow. -/
theorem SuperChunkWriter.hasEnoughSpace_iff {w : SuperChunkWriter}
    (hfits : w.currentChunk.used ≤ w.chunkSize.toNat) (requested : UInt64) :
    w.hasEnoughSpace requested = true ↔
      w.currentChunk.used + requested.toNat ≤ w.chunkSize.toNat := by
  simp only [SuperChunk.used] at hfits ⊢
  have hspace : w.space.toNat =
      w.chunkSize.toNat - w.currentChunk.chunk.variableOffset.toNat -
        w.currentChunk.offset.toNat := by
    rw [space, UInt64.toNat_sub_of_le, UInt64.toNat_sub_of_le]
    · rw [UInt64.le_iff_toNat_le]
      omega
    · rw [UInt64.le_iff_toNat_le, UInt64.toNat_sub_of_le _ _ (by rw [UInt64.le_iff_toNat_le]; omega)]
      omega
  rw [hasEnoughSpace, Bool.not_eq_true', decide_eq_false_iff_not, UInt64.lt_iff_toNat_lt, hspace]
  omega

/-- There is room for a row that `HasEnoughSpace` admits. -/
theorem Layout.room_of_hasEnoughSpace {w : SuperChunkWriter} {requested : UInt64}
    (h : Layout w.currentChunk fs) (hsize : w.chunkSize = w.currentChunk.chunk.size)
    (hspace : w.hasEnoughSpace requested = true) :
    w.currentChunk.used + requested.toNat ≤ w.currentChunk.chunk.size.toNat := by
  have hfits : w.currentChunk.used ≤ w.chunkSize.toNat := by
    rw [hsize]
    exact h.fits
  rw [← hsize]
  exact (SuperChunkWriter.hasEnoughSpace_iff hfits requested).mp hspace

/-- **An accepted row** lies behind the rows before it. -/
theorem writeRow_written {schema : RowSchema} {size : UInt64} {rows : List (List Cell)}
    {row : List Cell} {w w' : SuperChunkWriter} (h : RowsWritten schema size rows w)
    (hrow : RowFits schema.columnInfo row) (hok : w.writeRow row = .ok (true, w')) :
    RowsWritten schema size (rows ++ [row]) w' := by
  have hsame : w.chunkSize = w.currentChunk.chunk.size := by rw [h.chunkSize, h.size]
  unfold SuperChunkWriter.writeRow at hok
  dsimp only at hok
  split at hok
  · split at hok
    · cases hok
    · cases hok
  rename_i hspace
  have hroom := h.layout.room_of_hasEnoughSpace hsame (by simpa using hspace)
  rw [h.rowSchema, toNat_rowSize hrow] at hroom
  split at hok
  · rename_i w₁ hcolumns
    obtain ⟨-, rfl⟩ := Prod.mk.inj (Except.ok.inj hok)
    rw [h.rowSchema] at hcolumns
    obtain ⟨hkept, hlayout⟩ := writeColumns_written hrow.cells h.layout hsame hroom hcolumns
    constructor
    · exact hkept.rowSchema.trans h.rowSchema
    · exact hkept.chunkSize.trans h.chunkSize
    · exact hkept.size.trans h.size
    · rw [List.flatMap_append, List.flatMap_singleton]
      exact ⟨hlayout.fields, hlayout.offset, hlayout.fits⟩
    · show w₁.currentChunk.chunk.rowCount + 1 = _
      rw [hkept.rowCount, h.rowCount, List.length_append, UInt64.ofNat_add]
      rfl
  · cases hok

/-- `WriteRow` for the rows in turn; `none` when one of them is not accepted. -/
def writeRows : List (List Cell) → SuperChunkWriter → Option SuperChunkWriter
  | [], w => some w
  | row :: rows, w =>
    match w.writeRow row with
    | .ok (true, w') => writeRows rows w'
    | _ => none

theorem writeRows_written {schema : RowSchema} {size : UInt64} {before rows : List (List Cell)}
    {w w' : SuperChunkWriter} (h : RowsWritten schema size before w)
    (hrows : ∀ row ∈ rows, RowFits schema.columnInfo row) (hok : writeRows rows w = some w') :
    RowsWritten schema size (before ++ rows) w' := by
  induction rows generalizing before w with
  | nil =>
    obtain rfl := Option.some.inj hok
    rw [List.append_nil]
    exact h
  | cons row rows ih =>
    rw [List.forall_mem_cons] at hrows
    rw [writeRows] at hok
    split at hok
    · rename_i w₁ hrow
      rw [← List.singleton_append, ← List.append_assoc]
      exact ih (writeRow_written h hrows.1 hrow) hrows.2 hok
    · cases hok

/-! ### What no write changes -/

/-- The size of a chunk, its number and its partition. -/
def Chunk.header (chunk : Chunk) : UInt64 × UInt64 × UInt32 :=
  (chunk.size, chunk.id, chunk.partitionId)

@[simp] theorem SuperChunk.header_writeAt (offset : UInt64) (src : List UInt8) (s : SuperChunk) :
    (s.writeAt offset src).chunk.header = s.chunk.header := by
  unfold SuperChunk.writeAt
  split <;> rfl

theorem kept_writeColumn {w w' : SuperChunkWriter} (h : w.writeColumn column cell = .ok w') :
    w'.currentChunk.chunk.header = w.currentChunk.chunk.header ∧
      w'.currentChunk.chunk.rowCount = w.currentChunk.chunk.rowCount := by
  cases writeColumn_cases h with
  | fixedNull => exact ⟨rfl, rfl⟩
  | eight | four | fixed | «variable» | variableNull =>
    exact ⟨SuperChunk.header_writeAt .., SuperChunk.writeAt_rowCount ..⟩

theorem kept_writeColumns {columns : List Column} {row : List Cell} {w w' : SuperChunkWriter}
    (h : SuperChunkWriter.writeColumns columns row w = .ok w') :
    w'.currentChunk.chunk.header = w.currentChunk.chunk.header ∧
      w'.currentChunk.chunk.rowCount = w.currentChunk.chunk.rowCount := by
  induction columns generalizing row w with
  | nil =>
    obtain rfl := Except.ok.inj h
    exact ⟨rfl, rfl⟩
  | cons column columns ih =>
    rw [SuperChunkWriter.writeColumns] at h
    split at h
    · rename_i w₁ hcolumn
      obtain ⟨hheader, hcount⟩ := kept_writeColumn hcolumn
      obtain ⟨hheader', hcount'⟩ := ih h
      exact ⟨hheader'.trans hheader, hcount'.trans hcount⟩
    · cases h

/-- `WriteRow` counts the row. -/
theorem kept_writeRow {row : List Cell} {w w' : SuperChunkWriter}
    (h : w.writeRow row = .ok (true, w')) :
    w'.currentChunk.chunk.header = w.currentChunk.chunk.header ∧
      w'.currentChunk.chunk.rowCount = w.currentChunk.chunk.rowCount + 1 := by
  unfold SuperChunkWriter.writeRow at h
  dsimp only at h
  split at h
  · split at h
    · cases h
    · cases h
  · split at h
    · rename_i w₁ hcolumns
      obtain ⟨-, rfl⟩ := Prod.mk.inj (Except.ok.inj h)
      obtain ⟨hheader, hcount⟩ := kept_writeColumns hcolumns
      exact ⟨hheader, congrArg (· + 1) hcount⟩
    · cases h

theorem header_writeRow {row : List Cell} {w w' : SuperChunkWriter}
    (h : w.writeRow row = .ok (true, w')) :
    w'.currentChunk.chunk.header = w.currentChunk.chunk.header :=
  (kept_writeRow h).1

theorem header_writeRows {rows : List (List Cell)} {w w' : SuperChunkWriter}
    (h : writeRows rows w = some w') :
    w'.currentChunk.chunk.header = w.currentChunk.chunk.header := by
  induction rows generalizing w with
  | nil =>
    obtain rfl := Option.some.inj h
    rfl
  | cons row rows ih =>
    rw [writeRows] at h
    split at h
    · rename_i w₁ hrow
      exact (ih h).trans (header_writeRow hrow)
    · cases h

end SasLibclient
