import SasLibclient.Hdat.RowsWritten

/-!
# Rows that are accepted

A row of supported columns without dates is never the reason for an exception
of `WriteRow` when its size is at most the size of the chunk: either it is
written, or the chunk has rows already and is full.
-/

namespace SasLibclient

open Bytes

/-- The column is supported, and its date can be converted. -/
structure Converts (column : Column) (cell : Cell) : Prop where
  supported : column.type ≠ .unsupported
  date : column.type = .date → ∀ value, cell.value = some value → ∃ d, toDateCAS value = .ok d
  dateTime : column.type = .dateTime → ∀ value, cell.value = some value →
    ∃ d, toDateTimeCAS value = .ok d

theorem Converts.writeColumn_ok {column : Column} {cell : Cell} (h : Converts column cell)
    (w : SuperChunkWriter) : ∃ w', w.writeColumn column cell = .ok w' := by
  unfold SuperChunkWriter.writeColumn
  cases hcolumn : column.type with
  | unsupported => exact absurd hcolumn h.supported
  | date =>
    cases hvalue : cell.value with
    | none => exact ⟨_, rfl⟩
    | some value =>
      obtain ⟨d, hd⟩ := h.date hcolumn value hvalue
      simp only [hd]
      exact ⟨_, rfl⟩
  | dateTime =>
    cases hvalue : cell.value with
    | none => exact ⟨_, rfl⟩
    | some value =>
      obtain ⟨d, hd⟩ := h.dateTime hcolumn value hvalue
      simp only [hd]
      exact ⟨_, rfl⟩
  | int64 | int32 | double | «variable» | fixed | time => cases cell.value <;> exact ⟨_, rfl⟩

/-- The columns are supported, and none of them converts a date. -/
def NonDate (columns : List Column) : Prop :=
  ∀ column ∈ columns, column.type ≠ .unsupported ∧ column.type ≠ .date ∧ column.type ≠ .dateTime

variable {column : Column} {cell : Cell} {columns : List Column} {row : List Cell}
  {w : SuperChunkWriter}

theorem writeColumn_ok (h : column.type ≠ .unsupported ∧ column.type ≠ .date ∧
    column.type ≠ .dateTime) (cell : Cell) (w : SuperChunkWriter) :
    ∃ w', w.writeColumn column cell = .ok w' := by
  obtain ⟨hunsupported, hdate, hdateTime⟩ := h
  have hconverts : Converts column cell :=
    ⟨hunsupported, fun hcolumn => absurd hcolumn hdate, fun hcolumn => absurd hcolumn hdateTime⟩
  exact hconverts.writeColumn_ok w

theorem writeColumns_ok (h : NonDate columns) (row : List Cell) (w : SuperChunkWriter) :
    ∃ w', SuperChunkWriter.writeColumns columns row w = .ok w' := by
  induction columns generalizing row w with
  | nil => exact ⟨w, rfl⟩
  | cons column columns ih =>
    obtain ⟨hcolumn, hcolumns⟩ := List.forall_mem_cons.mp h
    obtain ⟨w₁, hw₁⟩ := writeColumn_ok hcolumn (row.headD ⟨none, 0⟩) w
    obtain ⟨w', hw'⟩ := ih hcolumns row.tail w₁
    refine ⟨w', ?_⟩
    rw [SuperChunkWriter.writeColumns, hw₁]
    exact hw'

/-! ## The size of a row -/

/-- The bytes of a row in the fixed-length section. -/
def rowWidth (columns : List Column) : Nat := (columns.map columnWidth).sum

theorem rowNeed_eq (h : List.Forall₂ CellFits columns row) :
    rowNeed columns row = rowWidth columns + rowPayload columns row := by
  induction h with
  | nil => rfl
  | cons _ _ ih =>
    simp only [rowNeed, rowWidth, rowPayload, List.zipWith_cons_cons, List.sum_cons, List.map_cons,
      columnNeed] at ih ⊢
    omega

/-- A variable column is at least 16 bytes wide, so a row of width 0 has no
payload. -/
theorem rowPayload_eq_zero (hwidth : rowWidth columns = 0) (row : List Cell) :
    rowPayload columns row = 0 := by
  induction columns generalizing row with
  | nil => rfl
  | cons column columns ih =>
    simp only [rowWidth, List.map_cons, List.sum_cons] at hwidth ih
    cases row with
    | nil => rfl
    | cons cell row =>
      have hpayload : payloadLength column cell = 0 := by
        unfold payloadLength
        split
        · rename_i hcolumn
          have hsixteen : columnWidth column = 16 := by rw [columnWidth, hcolumn]
          omega
        · rfl
      have hrest := ih (by omega) row
      simp only [rowPayload, List.zipWith_cons_cons, List.sum_cons] at hrest ⊢
      omega

theorem widths_rowFields (h : List.Forall₂ CellFits columns row) (hcolumns : NonDate columns) :
    widths (rowFields columns row) = rowWidth columns := by
  induction h with
  | nil => rfl
  | cons hcell _ ih =>
    obtain ⟨hcolumn, hrest⟩ := List.forall_mem_cons.mp hcolumns
    have htail := ih hrest
    simp only [rowFields, rowWidth, List.zipWith_cons_cons, List.map_cons, List.sum_cons,
      widths_cons] at htail ⊢
    rw [width_fieldValue hcell hcolumn.1, htail]

/-- The rows of a chunk all take the same space in its fixed-length section. -/
theorem widths_rows {rows : List (List Cell)} (hcolumns : NonDate columns)
    (hrows : ∀ row ∈ rows, RowFits columns row) :
    widths (rows.flatMap (rowFields columns)) = rows.length * rowWidth columns := by
  induction rows with
  | nil => rw [List.length_nil, Nat.zero_mul]; rfl
  | cons row rows ih =>
    obtain ⟨hrow, hrest⟩ := List.forall_mem_cons.mp hrows
    rw [List.flatMap_cons, widths_append, ih hrest, widths_rowFields hrow.cells hcolumns,
      List.length_cons, Nat.add_mul, Nat.one_mul, Nat.add_comm]

/-! ## Acceptance -/

variable {schema : RowSchema} {size : UInt64} {rows : List (List Cell)}

/-- A chunk with rows that has no space left knows that it has rows: their
number has not wrapped around. -/
theorem RowsWritten.rowCount_ne_zero (h : RowsWritten schema size rows w) (hne : rows ≠ [])
    (hcolumns : NonDate schema.columnInfo) (hrows : ∀ row ∈ rows, RowFits schema.columnInfo row)
    (hrow : RowFits schema.columnInfo row)
    (hfull : w.hasEnoughSpace (rowSize schema row) = false) :
    w.currentChunk.chunk.rowCount ≠ 0 := by
  have hlength : 0 < rows.length := List.length_pos_iff.mpr hne
  have hwidth : 0 < rowWidth schema.columnInfo := by
    by_contra hzero
    have hnone : rowWidth schema.columnInfo = 0 := by omega
    have hsize : (rowSize schema row).toNat = 0 := by
      rw [toNat_rowSize hrow, rowNeed_eq hrow.cells, hnone, rowPayload_eq_zero hnone]
    have hlt : w.space < rowSize schema row := by
      simpa [SuperChunkWriter.hasEnoughSpace] using hfull
    rw [UInt64.lt_iff_toNat_lt] at hlt
    omega
  have hoffset := h.layout.offset
  rw [widths_rows hcolumns hrows] at hoffset
  have hle : rows.length * 1 ≤ rows.length * rowWidth schema.columnInfo :=
    Nat.mul_le_mul_left _ hwidth
  have hmax := w.currentChunk.offset.toNat_lt
  intro hzero
  have hcount := congrArg UInt64.toNat (h.rowCount.symm.trans hzero)
  rw [UInt64.toNat_ofNat', UInt64.toNat_zero, Nat.mod_eq_of_lt (by omega)] at hcount
  omega

/-- **`WriteRow` does not throw.** -/
theorem writeRow_accepted (h : RowsWritten schema size rows w)
    (hfresh : rows = [] → w.currentChunk.used = 0) (hcolumns : NonDate schema.columnInfo)
    (hrows : ∀ row ∈ rows, RowFits schema.columnInfo row) (hrow : RowFits schema.columnInfo row)
    (hsize : rowNeed schema.columnInfo row ≤ size.toNat) :
    ∃ b w', w.writeRow row = .ok (b, w') := by
  unfold SuperChunkWriter.writeRow
  rw [h.rowSchema]
  cases hspace : w.hasEnoughSpace (rowSize schema row) with
  | true =>
    obtain ⟨w', hw'⟩ := writeColumns_ok hcolumns row w
    refine ⟨true, w'.writeRowEnd, ?_⟩
    simp [hspace, hw']
  | false =>
    have hcount : w.currentChunk.chunk.rowCount ≠ 0 := by
      by_cases hnil : rows = []
      · -- an empty chunk has room for the row
        have hused := hfresh hnil
        simp only [SuperChunk.used] at hused
        have hlt : w.space < rowSize schema row := by
          simpa [SuperChunkWriter.hasEnoughSpace] using hspace
        rw [UInt64.lt_iff_toNat_lt, toNat_rowSize hrow, SuperChunkWriter.space, h.chunkSize,
          UInt64.toNat_sub_of_le, UInt64.toNat_sub_of_le] at hlt
        · omega
        · rw [UInt64.le_iff_toNat_le]
          omega
        · rw [UInt64.le_iff_toNat_le]
          omega
      · exact h.rowCount_ne_zero hnil hcolumns hrows hrow hspace
    refine ⟨false, w, ?_⟩
    simp [hspace, hcount]

end SasLibclient
