import SasLibclient.Hdat.ChunkReader
import SasLibclient.Hdat.RowsWritten

/-!
# Writing and reading a chunk

The rows that `WriteRow` accepts into a fresh chunk are read back by
`SuperChunkReader`, column by column. A read operation that starts at a field
of the layout returns the field (`readColumn_fieldAt`); `Field.isNull` says when
the field is null.
-/

namespace SasLibclient

open Bytes

/-- The sentinels, a NaN, an empty value, and a fixed field of zeros or of
spaces. -/
def Field.isNull : Field → Bool
  | .int64 val => val == int64Null
  | .int32 val => val == int32Null
  | .double bits => isNan bits
  | .fixed bytes => bytes.all (· == 0) || bytes.all (· == 32)
  | .variable bytes => bytes.isEmpty

/-- `NULL` is stored as a null field. -/
theorem fieldValue_none {column : Column} {cell : Cell} (h : cell.value = none) :
    (fieldValue column cell).isNull = true := by
  unfold fieldValue
  rw [h]
  cases column.type with
  | int64 | time | dateTime => exact beq_self_eq_true int64Null
  | int32 | date => exact beq_self_eq_true int32Null
  | double =>
    show isNan doubleNull = true
    decide
  | fixed => simp [Field.isNull]
  | «variable» | unsupported => rfl

/-- The read operation of a column's type. -/
def SuperChunkReader.readColumn (column : Column) (r : SuperChunkReader) : ReadResult :=
  match column.type with
  | .int64 | .time | .dateTime => r.readInt64
  | .int32 | .date => r.readInt32
  | .double => r.readFloat
  | .fixed => r.readFixed (UInt64.ofInt column.size)
  | .variable => r.readVariable
  | .unsupported => r.fail "" []

/-- The bytes behind a returned pointer. -/
def bytesBehind (m : Mem) (out : Option UInt64) (len : UInt64) : List UInt8 :=
  match out with
  | some start => load m start.toNat len.toNat
  | none => []

/-- The value that an operation returned. -/
def ReadOut.toField (m : Mem) (column : Column) : ReadOut → Field
  | .int64 val => .int64 val
  | .int32 val => .int32 val
  | .float bits => .double bits
  | .pointer out len =>
    if column.type = .fixed then .fixed (bytesBehind m out len) else .variable (bytesBehind m out len)

/-- The columns of one row in order; `none` when an operation fails. -/
def SuperChunkReader.readRow (r : SuperChunkReader) :
    List Column → Option (List (Field × Bool) × SuperChunkReader)
  | [] => some ([], r)
  | column :: columns =>
    match (r.readColumn column).out with
    | none => none
    | some (out, isnull) =>
      match readRow (r.readColumn column).reader columns with
      | none => none
      | some (fields, r') =>
        some ((out.toField r.currentChunk.chunk.ptr column, isnull) :: fields, r')

/-- The first `n` rows. -/
def SuperChunkReader.readRows (r : SuperChunkReader) (columns : List Column) :
    Nat → Option (List (List (Field × Bool)) × SuperChunkReader)
  | 0 => some ([], r)
  | n + 1 =>
    match r.readRow columns with
    | none => none
    | some (row, r') =>
      match readRows r' columns n with
      | none => none
      | some (rows, r'') => some (row :: rows, r'')

/-! ## Reading one field -/

/-- The field has the type of the column. -/
def Column.Holds (column : Column) : Field → Prop
  | .int64 _ => column.type = .int64 ∨ column.type = .time ∨ column.type = .dateTime
  | .int32 _ => column.type = .int32 ∨ column.type = .date
  | .double _ => column.type = .double
  | .fixed bytes =>
    column.type = .fixed ∧ 0 ≤ column.size ∧ column.size < 2 ^ 31 ∧
      bytes.length = column.size.toNat
  | .variable _ => column.type = .variable

theorem holds_fieldValue {column : Column} {cell : Cell} (h : CellFits column cell)
    (htype : column.type ≠ .unsupported) : column.Holds (fieldValue column cell) := by
  unfold fieldValue
  cases hcolumn : column.type with
  | fixed =>
    obtain ⟨h0, hmax⟩ := h.size hcolumn
    cases hvalue : cell.value with
    | none => exact ⟨hcolumn, h0, hmax, List.length_replicate⟩
    | some value =>
      have hdata := h.data hcolumn (by rw [hvalue]; exact Option.some_ne_none value)
      refine ⟨hcolumn, h0, hmax, ?_⟩
      rw [List.length_append, length_bytesAt, List.length_replicate]
      omega
  | int64 => cases cell.value <;> exact Or.inl hcolumn
  | time => cases cell.value <;> exact Or.inr (Or.inl hcolumn)
  | dateTime => cases cell.value <;> exact Or.inr (Or.inr hcolumn)
  | int32 => cases cell.value <;> exact Or.inl hcolumn
  | date => cases cell.value <;> exact Or.inr hcolumn
  | double => cases cell.value <;> exact hcolumn
  | «variable» => cases cell.value <;> exact hcolumn
  | unsupported => exact absurd hcolumn htype

/-- The place of the reader in a chunk. -/
structure ReaderAt (r : SuperChunkReader) (m : Mem) (size : UInt64) (o : Nat) : Prop where
  ptr : r.currentChunk.chunk.ptr = m
  size : r.currentChunk.chunk.size = size
  offset : r.currentChunk.offset.toNat = o

/-- An operation that returned the field and went on to the next one. -/
structure FieldRead (column : Column) (m : Mem) (size : UInt64) (o : Nat) (f : Field)
    (result : ReadResult) : Prop where
  out : ∃ out, result.out = some (out, f.isNull) ∧ out.toField m column = f
  reader : ReaderAt result.reader m size (o + f.width)

section Fields

variable {r : SuperChunkReader} {m : Mem} {size : UInt64} {var o : Nat} {f : Field}
  {column : Column}

theorem ReaderAt.canRead (h : ReaderAt r m size o) {n : UInt64}
    (hroom : o + n.toNat ≤ size.toNat) : r.canRead r.currentChunk.offset n = true := by
  have hlt := size.toNat_lt
  have hsum : (r.currentChunk.offset + n).toNat = o + n.toNat := by
    rw [UInt64.toNat_add, h.offset, Nat.mod_eq_of_lt (by omega)]
  rw [SuperChunkReader.canRead, h.size, decide_eq_true_eq, UInt64.le_iff_toNat_le, hsum]
  exact hroom

theorem ReaderAt.forward {r' : SuperChunkReader} (h : ReaderAt r m size o) {n : Nat}
    (hroom : o + n ≤ size.toNat) (hptr : r'.currentChunk.chunk.ptr = r.currentChunk.chunk.ptr)
    (hsize : r'.currentChunk.chunk.size = r.currentChunk.chunk.size)
    (hoffset : r'.currentChunk.offset = r.currentChunk.offset + UInt64.ofNat n) :
    ReaderAt r' m size (o + n) where
  ptr := hptr.trans h.ptr
  size := hsize.trans h.size
  offset := by
    have hlt := size.toNat_lt
    rw [hoffset, toNat_add_ofNat (k := size.toNat) (by rw [h.offset]; exact hroom) hlt, h.offset]

theorem readInt64_fieldAt (h : ReaderAt r m size o) {val : UInt64}
    (hf : FieldAt m size.toNat var o (.int64 val)) (hroom : o + 8 ≤ size.toNat) :
    FieldRead column m size o (.int64 val) r.readInt64 := by
  have hval : (r.currentChunk.read8).1 = val := by
    show UInt64.ofNat (ofLE (load r.currentChunk.chunk.ptr r.currentChunk.offset.toNat 8)) = val
    rw [h.ptr, h.offset, show ofLE (load m o 8) = val.toNat from hf, UInt64.ofNat_toNat]
  unfold SuperChunkReader.readInt64
  rw [h.canRead (n := 8) hroom]
  refine ⟨⟨.int64 val, ?_, rfl⟩, h.forward hroom rfl rfl rfl⟩
  show some (ReadOut.int64 (r.currentChunk.read8).1, (r.currentChunk.read8).1 == int64Null) = _
  rw [hval]
  rfl

theorem readFloat_fieldAt (h : ReaderAt r m size o) {bits : UInt64}
    (hf : FieldAt m size.toNat var o (.double bits)) (hroom : o + 8 ≤ size.toNat) :
    FieldRead column m size o (.double bits) r.readFloat := by
  have hval : (r.currentChunk.read8).1 = bits := by
    show UInt64.ofNat (ofLE (load r.currentChunk.chunk.ptr r.currentChunk.offset.toNat 8)) = bits
    rw [h.ptr, h.offset, show ofLE (load m o 8) = bits.toNat from hf, UInt64.ofNat_toNat]
  unfold SuperChunkReader.readFloat
  rw [h.canRead (n := 8) hroom]
  refine ⟨⟨.float bits, ?_, rfl⟩, h.forward hroom rfl rfl rfl⟩
  show some (ReadOut.float (r.currentChunk.read8).1, isNan (r.currentChunk.read8).1) = _
  rw [hval]
  rfl

theorem readInt32_fieldAt (h : ReaderAt r m size o) {val : UInt32}
    (hf : FieldAt m size.toNat var o (.int32 val)) (hroom : o + 8 ≤ size.toNat) :
    FieldRead column m size o (.int32 val) r.readInt32 := by
  have hval : (r.currentChunk.read4).1 = val := by
    show UInt32.ofNat (ofLE (load r.currentChunk.chunk.ptr r.currentChunk.offset.toNat 4)) = val
    rw [h.ptr, h.offset, show ofLE (load m o 4) = val.toNat from hf, UInt32.ofNat_toNat]
  unfold SuperChunkReader.readInt32
  rw [h.canRead (n := 8) hroom]
  refine ⟨⟨.int32 val, ?_, rfl⟩, h.forward hroom rfl rfl ?_⟩
  · show some (ReadOut.int32 (r.currentChunk.read4).1, (r.currentChunk.read4).1 == int32Null) = _
    rw [hval]
    rfl
  · show r.currentChunk.offset + 4 + 4 = r.currentChunk.offset + 8
    rw [UInt64.add_assoc]
    rfl

theorem readVariable_fieldAt (h : ReaderAt r m size o) {bytes : List UInt8}
    (hf : FieldAt m size.toNat var o (.variable bytes)) (hcolumn : column.type = .variable)
    (hvar : var ≤ size.toNat) (hroom : o + 16 ≤ size.toNat) :
    FieldRead column m size o (.variable bytes) r.readVariable := by
  obtain ⟨pos, hpos, hle, hstored, hlen, hbytes⟩ := hf
  have hlt := size.toNat_lt
  have htype : column.type ≠ .fixed := by
    rw [hcolumn]
    decide
  have hnext : (r.currentChunk.offset + 8).toNat = o + 8 := by
    rw [UInt64.toNat_add, h.offset, Nat.mod_eq_of_lt (by
      have : (8 : UInt64).toNat = 8 := rfl
      omega)]
    rfl
  have hfirst : (r.currentChunk.read8).1 = UInt64.ofNat pos := by
    show UInt64.ofNat (ofLE (load r.currentChunk.chunk.ptr r.currentChunk.offset.toNat 8)) = _
    rw [h.ptr, h.offset, hstored]
  have hsecond : (r.currentChunk.read8.2.read8).1 = UInt64.ofNat bytes.length := by
    show UInt64.ofNat (ofLE (load r.currentChunk.chunk.ptr (r.currentChunk.offset + 8).toNat 8)) = _
    rw [h.ptr, hnext, hlen]
  have hlength : (UInt64.ofNat bytes.length).toNat = bytes.length := by
    rw [UInt64.toNat_ofNat', Nat.mod_eq_of_lt (by omega)]
  have hstart : (size - UInt64.ofNat pos).toNat = size.toNat - pos := by
    have hposition : (UInt64.ofNat pos).toNat = pos := by
      rw [UInt64.toNat_ofNat', Nat.mod_eq_of_lt (by omega)]
    rw [UInt64.toNat_sub_of_le _ _ (by rw [UInt64.le_iff_toNat_le]; omega), hposition]
  have hforward : ReaderAt { r with currentChunk := r.currentChunk.read8.2.read8.2 } m size
      (o + 16) := by
    refine h.forward (n := 16) hroom rfl rfl ?_
    show r.currentChunk.offset + 8 + 8 = r.currentChunk.offset + 16
    rw [UInt64.add_assoc]
    rfl
  unfold SuperChunkReader.readVariable
  rw [h.canRead (n := 16) hroom]
  simp only [Bool.not_true, Bool.false_eq_true, if_false, hfirst, hsecond]
  split
  · rename_i hzero
    have hempty : bytes = [] := by
      have := congrArg UInt64.toNat hzero
      rw [hlength] at this
      exact List.length_eq_zero_iff.mp this
    subst hempty
    refine ⟨⟨.pointer none (UInt64.ofNat 0), rfl, ?_⟩, hforward⟩
    rw [ReadOut.toField, if_neg htype]
    rfl
  · rename_i hnonzero
    have hnonempty : bytes.isEmpty = false := by
      cases bytes with
      | nil => exact absurd rfl hnonzero
      | cons b bs => rfl
    have hcan : ({ r with currentChunk := r.currentChunk.read8.2.read8.2 } : SuperChunkReader).canRead
        (r.currentChunk.read8.2.read8.2.chunk.size - UInt64.ofNat pos)
        (UInt64.ofNat bytes.length) = true := by
      have hsum : (size - UInt64.ofNat pos + UInt64.ofNat bytes.length).toNat =
          size.toNat - pos + bytes.length := by
        rw [UInt64.toNat_add, hstart, hlength, Nat.mod_eq_of_lt (by omega)]
      rw [SuperChunkReader.canRead, hforward.size, decide_eq_true_eq, UInt64.le_iff_toNat_le, hsum]
      omega
    rw [hcan]
    refine ⟨⟨.pointer (some (size - UInt64.ofNat pos)) (UInt64.ofNat bytes.length), ?_, ?_⟩,
      hforward⟩
    · rw [Field.isNull, hnonempty, ← h.size]
      rfl
    · rw [ReadOut.toField, if_neg htype, bytesBehind, hstart, hlength, hbytes]

theorem load_all {a n : Nat} {b : UInt8} :
    (load m a n).all (· == b) = true ↔ AllBytes m b a n := by
  induction n generalizing a with
  | zero => simp [load, AllBytes]
  | succ n ih =>
    rw [load, List.all_cons, Bool.and_eq_true, beq_iff_eq, ih]
    constructor
    · rintro ⟨hfirst, hrest⟩
      exact (allBytes_succ hfirst).mpr hrest
    · intro hall
      have hfirst : m a = b := hall 0 (Nat.succ_pos n)
      exact ⟨hfirst, (allBytes_succ hfirst).mp hall⟩

/-- `IsNullBuffer` on a fixed field. -/
theorem isNullBuffer_field {bytes : List UInt8} {n : UInt32} (hlen : bytes.length = nullCount n)
    (hbytes : load m o bytes.length = bytes) :
    (isNullBuffer m o n).1 = (Field.fixed bytes).isNull := by
  rw [Bool.eq_iff_iff, isNullBuffer_true, Field.isNull, Bool.or_eq_true, ← hlen, ← hbytes,
    load_all, load_all, length_load]

theorem readFixed_fieldAt (h : ReaderAt r m size o) {bytes : List UInt8}
    (hf : FieldAt m size.toNat var o (.fixed bytes)) (hcolumn : column.Holds (.fixed bytes))
    (hroom : o + (Field.fixed bytes).width ≤ size.toNat) :
    FieldRead column m size o (.fixed bytes) (r.readFixed (UInt64.ofInt column.size)) := by
  obtain ⟨htype, h0, hmax, hlength⟩ := hcolumn
  have hlt := size.toNat_lt
  have hsize := toNat_ofInt_size h0 (by omega)
  have hwidth : (Field.fixed bytes).width = (column.size.toNat + 7) / 8 * 8 := by
    rw [Field.width, hlength]
  have haligned : (sizeofAligned8 (UInt64.ofInt column.size)).toNat = (Field.fixed bytes).width := by
    rw [toNat_sizeofAligned8_size h0 (by omega), hwidth]
  unfold SuperChunkReader.readFixed
  split
  · rename_i hzero
    have hempty : bytes = [] := by
      have hnone := congrArg UInt64.toNat hzero
      rw [hsize] at hnone
      exact List.length_eq_zero_iff.mp (hlength.trans hnone)
    subst hempty
    refine ⟨⟨.pointer none _, rfl, ?_⟩, h⟩
    rw [ReadOut.toField, if_pos htype]
    rfl
  · rename_i hnonzero
    have hpos : 0 < column.size.toNat := by
      rcases Nat.eq_zero_or_pos column.size.toNat with he | he
      · have hzero : (UInt64.ofInt column.size).toNat = (0 : UInt64).toNat := hsize.trans he
        exact absurd (UInt64.toNat_inj.mp hzero) hnonzero
      · exact he
    have hcount : bytes.length = nullCount (UInt32.ofNat (UInt64.ofInt column.size).toNat) := by
      have hone : (1 : UInt32).toNat = 1 := rfl
      rw [hsize, hlength, nullCount, UInt32.toNat_sub, UInt32.toNat_ofNat', hone]
      omega
    have hnot : ¬ r.currentChunk.chunk.size - r.currentChunk.offset <
        sizeofAligned8 (UInt64.ofInt column.size) := by
      have hoffset := h.offset
      rw [UInt64.lt_iff_toNat_lt, haligned, h.size,
        UInt64.toNat_sub_of_le _ _ (by rw [UInt64.le_iff_toNat_le]; omega), hoffset]
      omega
    unfold SuperChunk.readAligned8
    rw [if_neg hnot]
    refine ⟨⟨.pointer (some r.currentChunk.offset) (UInt64.ofInt column.size), ?_, ?_⟩, ?_⟩
    · show some (ReadOut.pointer (some r.currentChunk.offset) (UInt64.ofInt column.size),
        (isNullBuffer r.currentChunk.chunk.ptr r.currentChunk.offset.toNat
          (UInt32.ofNat (UInt64.ofInt column.size).toNat)).1) = _
      rw [h.ptr, h.offset, isNullBuffer_field hcount hf]
    · rw [ReadOut.toField, if_pos htype, bytesBehind, h.offset, hsize, ← hlength]
      exact congrArg Field.fixed hf
    · refine h.forward hroom rfl rfl ?_
      rw [← haligned, UInt64.ofNat_toNat]

/-- **Reading one field.** -/
theorem readColumn_fieldAt (h : ReaderAt r m size o) (hf : FieldAt m size.toNat var o f)
    (hcolumn : column.Holds f) (hvar : var ≤ size.toNat) (hroom : o + f.width ≤ size.toNat) :
    FieldRead column m size o f (r.readColumn column) := by
  unfold SuperChunkReader.readColumn
  cases f with
  | int64 val =>
    rcases hcolumn with htype | htype | htype <;>
      (rw [htype]; exact readInt64_fieldAt h hf hroom)
  | int32 val =>
    rcases hcolumn with htype | htype <;>
      (rw [htype]; exact readInt32_fieldAt h hf hroom)
  | double bits =>
    rw [show column.type = .double from hcolumn]
    exact readFloat_fieldAt h hf hroom
  | fixed bytes =>
    rw [hcolumn.1]
    exact readFixed_fieldAt h hf hcolumn hroom
  | «variable» bytes =>
    rw [show column.type = .variable from hcolumn]
    exact readVariable_fieldAt h hf hcolumn hvar hroom

end Fields

/-! ## Reading the rows -/

/-- What the reader returns for a field. -/
def readBack (f : Field) : Field × Bool := (f, f.isNull)

section Rows

variable {m : Mem} {size : UInt64} {var o : Nat}

/-- **Reading one row.** -/
theorem readRow_fieldsAt {columns : List Column} {fields : List Field} {r : SuperChunkReader}
    (hcolumns : List.Forall₂ Column.Holds columns fields) (h : ReaderAt r m size o)
    (hfields : FieldsAt m size.toNat var o fields) (hvar : var ≤ size.toNat)
    (hroom : o + widths fields ≤ size.toNat) :
    ∃ r', r.readRow columns = some (fields.map readBack, r') ∧
      ReaderAt r' m size (o + widths fields) := by
  induction hcolumns generalizing o r with
  | nil => exact ⟨r, rfl, h⟩
  | @cons column f columns fields hcolumn _ ih =>
    obtain ⟨hf, hrest⟩ := hfields
    rw [widths_cons] at hroom
    obtain ⟨⟨out, hout, hvalue⟩, hreader⟩ := readColumn_fieldAt h hf hcolumn hvar (by omega)
    obtain ⟨r', hrow, hlast⟩ := ih hreader hrest (by omega)
    refine ⟨r', ?_, ?_⟩
    · rw [SuperChunkReader.readRow, hout]
      simp only [hrow, h.ptr, hvalue]
      rfl
    · rw [widths_cons, ← Nat.add_assoc]
      exact hlast

/-- **Reading the rows** of a layout, as many as one likes. -/
theorem readRows_fieldsAt {columns : List Column} {rows : List (List Field)} {r : SuperChunkReader}
    {n : Nat} (hn : n ≤ rows.length)
    (hcolumns : ∀ row ∈ rows, List.Forall₂ Column.Holds columns row) (h : ReaderAt r m size o)
    (hfields : FieldsAt m size.toNat var o rows.flatten) (hvar : var ≤ size.toNat)
    (hroom : o + widths rows.flatten ≤ size.toNat) :
    ∃ r', r.readRows columns n = some ((rows.take n).map (·.map readBack), r') := by
  induction n generalizing o r rows with
  | zero => exact ⟨r, rfl⟩
  | succ n ih =>
    cases rows with
    | nil => exact absurd hn (Nat.not_succ_le_zero n)
    | cons row rows =>
      rw [List.forall_mem_cons] at hcolumns
      rw [List.flatten_cons] at hfields hroom
      rw [widths_append] at hroom
      obtain ⟨hrow, hrest⟩ := hfields.split
      obtain ⟨r₁, hread, hnext⟩ := readRow_fieldsAt hcolumns.1 h hrow hvar (by omega)
      obtain ⟨r', hreads⟩ := ih (Nat.le_of_succ_le_succ hn) hcolumns.2 hnext hrest (by omega)
      refine ⟨r', ?_⟩
      rw [SuperChunkReader.readRows, hread]
      simp only [hreads]
      rfl

end Rows

/-- What reading a row back returns: the value of every cell, and
whether it is null. -/
def rowReadBack (columns : List Column) (row : List Cell) : List (Field × Bool) :=
  List.zipWith (fun column cell =>
    (fieldValue column cell, cell.value.isNone || (fieldValue column cell).isNull)) columns row

theorem rowReadBack_eq {columns : List Column} {row : List Cell} :
    (rowFields columns row).map readBack = rowReadBack columns row := by
  rw [rowFields, rowReadBack, List.map_zipWith]
  congr 1
  funext column cell
  cases hvalue : cell.value with
  | none =>
    show readBack (fieldValue column cell) = (fieldValue column cell, true)
    rw [readBack, fieldValue_none hvalue]
  | some value => rfl

theorem holds_rowFields {columns : List Column} {row : List Cell}
    (hcells : List.Forall₂ CellFits columns row)
    (hsupported : ∀ column ∈ columns, column.type ≠ .unsupported) :
    List.Forall₂ Column.Holds columns (rowFields columns row) := by
  induction hcells with
  | nil => exact List.Forall₂.nil
  | cons hcell _ ih =>
    rw [List.forall_mem_cons] at hsupported
    exact List.Forall₂.cons (holds_fieldValue hcell hsupported.1) (ih hsupported.2)

/-- **The round trip.** The rows that `WriteRow` accepted into a fresh chunk are
what a reader that is reset on the chunk returns. -/
theorem chunk_round_trip (schema : RowSchema) (ptr : Mem) (size id : UInt64) (partition : UInt32)
    (rows : List (List Cell)) (w : SuperChunkWriter)
    (hsupported : ∀ column ∈ schema.columnInfo, column.type ≠ .unsupported)
    (hrows : ∀ row ∈ rows, RowFits schema.columnInfo row)
    (hwritten : writeRows rows
      (SuperChunkWriter.reset (newChunk ptr size id partition) schema) = some w) :
    w.currentChunk.chunk.rowCount = UInt64.ofNat rows.length ∧
    ∀ error, ∀ n ≤ rows.length, ∃ r,
      (SuperChunkReader.reset w.currentChunk.chunk error).readRows schema.columnInfo n =
        some ((rows.take n).map (rowReadBack schema.columnInfo), r) := by
  have hall := writeRows_written (RowsWritten.reset schema ptr size id partition) hrows hwritten
  rw [List.nil_append] at hall
  refine ⟨hall.rowCount, fun error n hn => ?_⟩
  have hlayout := hall.layout
  rw [List.flatMap_def] at hlayout
  have hoffset := hlayout.offset
  have hfits := hlayout.fits
  have hfields := hlayout.fields
  rw [hall.size] at hfits hfields
  have hholds : ∀ row ∈ rows.map (rowFields schema.columnInfo),
      List.Forall₂ Column.Holds schema.columnInfo row := by
    intro row hrow
    obtain ⟨cells, hcells, rfl⟩ := List.mem_map.mp hrow
    exact holds_rowFields (hrows cells hcells).cells hsupported
  have hstart : ReaderAt (SuperChunkReader.reset w.currentChunk.chunk error)
      w.currentChunk.chunk.ptr size 0 := ⟨rfl, hall.size, rfl⟩
  have hcount : n ≤ (rows.map (rowFields schema.columnInfo)).length := by
    rw [List.length_map]
    exact hn
  obtain ⟨r, hr⟩ := readRows_fieldsAt hcount hholds hstart hfields (by omega) (by omega)
  refine ⟨r, hr.trans ?_⟩
  rw [← List.map_take, List.map_map, show (fun row => List.map readBack row) ∘
    rowFields schema.columnInfo = rowReadBack schema.columnInfo from
    funext fun row => rowReadBack_eq]

/-- A number, a fixed and a variable column. -/
def orderSchema : RowSchema where
  columnInfo := [⟨.int64, 0, "id"⟩, ⟨.fixed, 3, "code"⟩, ⟨.variable, 0, "note"⟩]
  numColumns_lt := by decide

def orderRow : List Cell :=
  [⟨some [5], 8⟩, ⟨some [97, 98], 2⟩, ⟨some [120, 121, 122], 3⟩]

theorem orderRow_fits : RowFits orderSchema.columnInfo orderRow where
  cells :=
    .cons ⟨nofun, nofun⟩ (.cons ⟨fun _ => ⟨by decide, by decide⟩, fun _ _ => by decide⟩
      (.cons ⟨nofun, nofun⟩ .nil))
  payload := by decide

/-- The writer after `orderRow` in a chunk of 64 bytes. -/
def orderChunk : Option SuperChunkWriter :=
  writeRows [orderRow] (SuperChunkWriter.reset (newChunk (fun _ => 170) 64 0 0) orderSchema)

theorem chunk_round_trip_order : ∃ w r, orderChunk = some w ∧
    w.currentChunk.chunk.rowCount = 1 ∧
    (SuperChunkReader.reset w.currentChunk.chunk "").readRows orderSchema.columnInfo 1 =
      some ([[(.int64 5, false), (.fixed [97, 98, 32], false),
        (.variable [120, 121, 122], false)]], r) := by
  obtain ⟨w, hw⟩ : ∃ w, orderChunk = some w := Option.isSome_iff_exists.mp (by decide +kernel)
  have htrip := chunk_round_trip orderSchema (fun _ => 170) 64 0 0 [orderRow] w (by decide)
    (List.forall_mem_singleton.mpr orderRow_fits) hw
  obtain ⟨r, hr⟩ := htrip.2 "" 1 (by decide)
  refine ⟨w, r, hw, htrip.1, hr.trans ?_⟩
  have hrows : (List.take 1 [orderRow]).map (rowReadBack orderSchema.columnInfo) =
      [[(.int64 5, false), (.fixed [97, 98, 32], false), (.variable [120, 121, 122], false)]] := by
    decide +kernel
  rw [hrows]

end SasLibclient
