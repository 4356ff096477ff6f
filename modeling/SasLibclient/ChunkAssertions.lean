import Mathlib.Algebra.Order.BigOperators.Group.List
import SasLibclient.Hdat.Assertions
import SasLibclient.TsvReads

/-!
# Reading a chunk with its assertions (`hdat/chunk_reader.cpp`)

`ReadVariable` asserts that the position it reads is not zero. The position
counts all bytes of texts up to and including its own, so it is zero exactly for
the texts in front of the first one that is not empty. `chunk_asserts_iff` says
for which rows no assertion fails while they are written and read back.
-/

namespace SasLibclient

open Bytes

namespace SuperChunkReader

/-- The position is not zero; the pointer to a payload is asked for when it
passes `CanRead`. -/
def ReadVariableAsserts (r : SuperChunkReader) : Prop :=
  r.canRead r.currentChunk.offset 16 = true →
    storedPosition r ≠ 0 ∧
      (storedLength r ≠ 0 →
        r.canRead (r.currentChunk.chunk.size - storedPosition r) (storedLength r) = true →
          r.currentChunk.PtrAtAsserts (r.currentChunk.chunk.size - storedPosition r))

def ReadFixedAsserts (len : UInt64) (r : SuperChunkReader) : Prop :=
  len ≠ 0 → r.currentChunk.ReadAligned8Asserts len

end SuperChunkReader

/-- The other operations have no assertion. -/
def ReadOp.Asserts : ReadOp → SuperChunkReader → Prop
  | .variable, r => r.ReadVariableAsserts
  | .fixed len, r => r.ReadFixedAsserts len
  | _, _ => True

/-- The length of the first text, also when it is `NULL`. -/
def firstText (fields : List (Column × Nat)) : Option Nat :=
  (fields.find? fun field => field.1.type = .variable).map Prod.snd

/-- A field that `ChunkToTSV` reads: its type is supported, the size of a fixed
column is an `int64_t` that is not negative. -/
structure Column.Readable (column : Column) : Prop where
  supported : column.type ≠ .unsupported
  size : column.type = .fixed → 0 ≤ column.size ∧ column.size < 2 ^ 63

section Reads

variable {r : SuperChunkReader} {m : Mem} {size : UInt64} {o var len : Nat} {column : Column}
  {op : ReadOp} {fields : List (Column × Nat)}

theorem Column.Readable.aligned (h : column.Readable) (htype : column.type = .fixed) :
    (sizeofAligned8 (UInt64.ofInt column.size)).toNat = columnWidth column := by
  obtain ⟨h0, hlt⟩ := h.size htype
  rw [toNat_sizeofAligned8_size h0 hlt, columnWidth, htype]

theorem ReaderAt.space (h : ReaderAt r m size o) (hle : o ≤ size.toNat) :
    (r.currentChunk.chunk.size - r.currentChunk.offset).toNat = size.toNat - o := by
  rw [h.size, UInt64.toNat_sub_of_le, h.offset]
  rw [UInt64.le_iff_toNat_le, h.offset]
  exact hle

/-- An offset that is in the chunk after a field does not overflow. -/
theorem ReaderAt.offset_add_le (h : ReaderAt r m size o) {n : UInt64}
    (hroom : o + n.toNat ≤ size.toNat) :
    r.currentChunk.offset + n ≤ r.currentChunk.chunk.size := by
  have hcan := h.canRead hroom
  rw [SuperChunkReader.canRead, decide_eq_true_eq] at hcan
  exact hcan

theorem ReaderAt.run (h : ReaderAt r m size o) (hcolumn : column.Readable)
    (hop : column.readOp = some op) (hroom : o + columnWidth column ≤ size.toNat) :
    ReaderAt (r.run op).reader m size (o + columnWidth column) := by
  have hrun := SuperChunkReader.currentChunk_run op r
  have hlt := size.toNat_lt
  constructor
  · rw [hrun]
    exact h.ptr
  · rw [hrun]
    exact h.size
  · rw [hrun]
    show (op.next r.currentChunk.chunk.size r.currentChunk.offset).toNat = _
    have hadd : ∀ n : UInt64, o + n.toNat ≤ size.toNat →
        (r.currentChunk.offset + n).toNat = o + n.toNat := by
      intro n hn
      rw [UInt64.toNat_add, h.offset, Nat.mod_eq_of_lt (by omega)]
    unfold Column.readOp at hop
    cases htype : column.type with
    | int64 | int32 | double | time | date | dateTime =>
      have hwidth : columnWidth column = 8 := by rw [columnWidth, htype]
      rw [hwidth] at hroom ⊢
      rw [htype] at hop
      obtain rfl := Option.some.inj hop
      exact (congrArg UInt64.toNat (if_pos (h.offset_add_le (n := 8) hroom))).trans (hadd 8 hroom)
    | «variable» =>
      rw [columnWidth_variable htype] at hroom ⊢
      rw [htype] at hop
      obtain rfl := Option.some.inj hop
      exact (congrArg UInt64.toNat (if_pos (h.offset_add_le (n := 16) hroom))).trans (hadd 16 hroom)
    | fixed =>
      have haligned := hcolumn.aligned htype
      rw [← haligned] at hroom ⊢
      rw [htype] at hop
      obtain rfl := Option.some.inj hop
      rw [ReadOp.next]
      split
      · rename_i hnone
        rcases hnone with hzero | hspace
        · rw [hzero, h.offset]
          rfl
        · rw [UInt64.lt_iff_toNat_lt, h.space (by omega)] at hspace
          omega
      · exact hadd _ hroom
    | unsupported => exact absurd htype hcolumn.supported

theorem ReaderAt.run_out (h : ReaderAt r m size o) (hcolumn : column.Readable)
    (hop : column.readOp = some op) (hvariable : column.type ≠ .variable)
    (hroom : o + columnWidth column ≤ size.toNat) : (r.run op).out.isSome = true := by
  unfold Column.readOp at hop
  cases htype : column.type with
  | int64 | time | dateTime =>
    have hwidth : columnWidth column = 8 := by rw [columnWidth, htype]
    rw [hwidth] at hroom
    rw [htype] at hop
    obtain rfl := Option.some.inj hop
    simp [SuperChunkReader.run, SuperChunkReader.readInt64, h.canRead (n := 8) hroom]
  | int32 | date =>
    have hwidth : columnWidth column = 8 := by rw [columnWidth, htype]
    rw [hwidth] at hroom
    rw [htype] at hop
    obtain rfl := Option.some.inj hop
    simp [SuperChunkReader.run, SuperChunkReader.readInt32, h.canRead (n := 8) hroom]
  | double =>
    have hwidth : columnWidth column = 8 := by rw [columnWidth, htype]
    rw [hwidth] at hroom
    rw [htype] at hop
    obtain rfl := Option.some.inj hop
    simp [SuperChunkReader.run, SuperChunkReader.readFloat, h.canRead (n := 8) hroom]
  | fixed =>
    have haligned := hcolumn.aligned htype
    rw [htype] at hop
    obtain rfl := Option.some.inj hop
    have hspace : ¬ r.currentChunk.chunk.size - r.currentChunk.offset <
        sizeofAligned8 (UInt64.ofInt column.size) := by
      rw [UInt64.lt_iff_toNat_lt, h.space (by omega), haligned]
      omega
    show (r.readFixed (UInt64.ofInt column.size)).out.isSome = true
    unfold SuperChunkReader.readFixed SuperChunk.readAligned8
    rw [if_neg hspace]
    split
    · rfl
    · rfl
  | «variable» => exact absurd htype hvariable
  | unsupported => exact absurd htype hcolumn.supported

/-- A field behind the end of its chunk is not read. -/
theorem ReaderAt.asserts_of_ne (h : ReaderAt r m size o) (hcolumn : column.Readable)
    (hop : column.readOp = some op) (hvariable : column.type ≠ .variable)
    (hroom : o + columnWidth column ≤ size.toNat) : op.Asserts r := by
  unfold Column.readOp at hop
  cases htype : column.type with
  | int64 | time | dateTime | int32 | date | double =>
    rw [htype] at hop
    obtain rfl := Option.some.inj hop
    trivial
  | fixed =>
    obtain ⟨h0, hlt⟩ := hcolumn.size htype
    have hsize := toNat_ofInt_size h0 hlt
    have hwidth : columnWidth column = (column.size.toNat + 7) / 8 * 8 := by rw [columnWidth, htype]
    rw [htype] at hop
    obtain rfl := Option.some.inj hop
    intro hlen _
    have hpos : (UInt64.ofInt column.size).toNat ≠ 0 := fun hzero => hlen (UInt64.toNat_inj.mp hzero)
    rw [SuperChunk.PtrAtAsserts, UInt64.lt_iff_toNat_lt, h.offset, h.size]
    omega
  | «variable» => exact absurd htype hvariable
  | unsupported => exact absurd htype hcolumn.supported

/-- **`ReadVariable`** at a field: its position is not zero. -/
theorem ReaderAt.readVariableAsserts_iff (h : ReaderAt r m size o)
    (hposition : ofLE (load m o 8) = var + len) (hroom : o + 16 ≤ size.toNat)
    (hvar : var + len ≤ size.toNat) : r.ReadVariableAsserts ↔ 0 < var + len := by
  have hlt := size.toNat_lt
  have hstored : storedPosition r = UInt64.ofNat (var + len) := by
    show UInt64.ofNat (ofLE (load r.currentChunk.chunk.ptr r.currentChunk.offset.toNat 8)) = _
    rw [h.ptr, h.offset, hposition]
  have htoNat : (UInt64.ofNat (var + len)).toNat = var + len := by
    rw [UInt64.toNat_ofNat', Nat.mod_eq_of_lt (by omega)]
  rw [SuperChunkReader.ReadVariableAsserts, hstored]
  constructor
  · intro hasserts
    obtain ⟨hne, -⟩ := hasserts (h.canRead (n := 16) hroom)
    rcases Nat.eq_zero_or_pos (var + len) with hzero | hpos
    · rw [hzero] at hne
      exact absurd rfl hne
    · exact hpos
  · intro hpos _
    constructor
    · intro hzero
      rw [hzero] at htoNat
      exact absurd htoNat.symm (by
        rw [UInt64.toNat_zero]
        omega)
    · intro _ _
      rw [SuperChunk.PtrAtAsserts, h.size, UInt64.lt_iff_toNat_lt, UInt64.toNat_sub_of_le, htoNat]
      · omega
      · rw [UInt64.le_iff_toNat_le, htoNat]
        exact hvar

/-! ## The fields of a chunk -/

theorem firstText_cons_of_ne (hvariable : column.type ≠ .variable) :
    firstText ((column, len) :: fields) = firstText fields := by
  simp [firstText, hvariable]

theorem firstText_cons (hvariable : column.type = .variable) :
    firstText ((column, len) :: fields) = some len := by
  simp [firstText, hvariable]

theorem firstText_eq_none (h : ∀ column ∈ fields.map Prod.fst, column.type ≠ .variable) :
    firstText fields = none := by
  induction fields with
  | nil => rfl
  | cons field fields ih =>
    obtain ⟨hfield, hrest⟩ := List.forall_mem_cons.mp h
    exact (firstText_cons_of_ne hfield).trans (ih hrest)

/-- **Reading the fields**: no assertion fails exactly when a text in front of
them is not empty, or the first one among them is not. -/
theorem ReaderAt.performed_asserts_iff (h : ReaderAt r m size o)
    (hfields : ∀ field ∈ fields, field.1.Readable ∧ (field.1.type ≠ .variable → field.2 = 0))
    (hpositions : PositionsAt m o var fields) (hroom : o + fieldsWidth fields ≤ size.toNat)
    (hvar : var + fieldsPayload fields ≤ size.toNat) :
    (∀ s ∈ r.trace (r.performed (fields.map Prod.fst)), s.2.Asserts s.1) ↔
      0 < var ∨ firstText fields ≠ some 0 := by
  induction fields generalizing r o var with
  | nil =>
    refine iff_of_true ?_ (Or.inr (by simp [firstText]))
    intro s hs
    cases hs
  | cons field fields ih =>
    obtain ⟨column, len⟩ := field
    obtain ⟨⟨(hcolumn : column.Readable), hnumber⟩, hrest⟩ := List.forall_mem_cons.mp hfields
    obtain ⟨hposition, hpositions⟩ := hpositions
    have hwidths : fieldsWidth ((column, len) :: fields) =
        columnWidth column + fieldsWidth fields := rfl
    have hpayloads : fieldsPayload ((column, len) :: fields) = len + fieldsPayload fields := rfl
    rw [hwidths] at hroom
    rw [hpayloads] at hvar
    obtain ⟨op, hop⟩ : ∃ op, column.readOp = some op :=
      Option.ne_none_iff_exists'.mp (fun hnone => hcolumn.supported (Column.readOp_eq_none.mp hnone))
    have hnext := h.run hcolumn hop (by omega)
    have htail := ih hnext hrest hpositions (by omega) (by omega)
    rw [List.map_cons, SuperChunkReader.performed]
    simp only [hop, SuperChunkReader.trace, List.forall_mem_cons]
    by_cases htype : column.type = .variable
    · have hsixteen := columnWidth_variable htype
      obtain rfl : op = .variable := by
        unfold Column.readOp at hop
        rw [htype] at hop
        exact (Option.some.inj hop).symm
      have hasserts := h.readVariableAsserts_iff (hposition htype) (by omega) (by omega)
      rw [firstText_cons htype]
      constructor
      · rintro ⟨hfirst, -⟩
        have hpos := hasserts.mp hfirst
        rcases Nat.eq_zero_or_pos var with hzero | hpositive
        · refine Or.inr fun hlen => ?_
          have := Option.some.inj hlen
          omega
        · exact Or.inl hpositive
      · intro hcondition
        have hpos : 0 < var + len := by
          rcases hcondition with hpositive | hlen
          · omega
          · have : len ≠ 0 := fun hzero => hlen (by rw [hzero])
            omega
        refine ⟨hasserts.mpr hpos, ?_⟩
        split
        · exact htail.mpr (Or.inl hpos)
        · intro s hs
          cases hs
    · obtain rfl := hnumber htype
      rw [h.run_out hcolumn hop htype (by omega), if_pos rfl, firstText_cons_of_ne htype, htail]
      exact ⟨fun hboth => hboth.2,
        fun hcondition => ⟨h.asserts_of_ne hcolumn hop htype (by omega), hcondition⟩⟩

theorem Wrote.asserts_iff {schema : RowSchema} {n : Nat} {fields' : List (Column × Nat)}
    {w : SuperChunkWriter} (h : Wrote schema n (fields ++ fields') w)
    (hfields : ∀ field ∈ fields, field.1.Readable ∧ (field.1.type ≠ .variable → field.2 = 0))
    (error : String) :
    (∀ s ∈ (SuperChunkReader.reset w.currentChunk.chunk error).trace
      ((SuperChunkReader.reset w.currentChunk.chunk error).performed (fields.map Prod.fst)),
        s.2.Asserts s.1) ↔ firstText fields ≠ some 0 := by
  have hstart : ReaderAt (SuperChunkReader.reset w.currentChunk.chunk error)
      w.currentChunk.chunk.ptr w.currentChunk.chunk.size 0 := ⟨rfl, rfl, rfl⟩
  have hfits := h.sound.fits
  rw [h.sound.chunkSize, SuperChunk.used, h.offset, h.variableOffset, fieldsWidth_append,
    fieldsPayload_append] at hfits
  rw [hstart.performed_asserts_iff hfields h.positions.left (by omega) (by omega)]
  simp

end Reads

/-! ## The rows of a chunk -/

section Rows

variable {columns : List Column} {row : RowWrite} {rows : List RowWrite}

theorem map_fst_zipWith {β : Type} {R : Column → β → Prop} {values : List β}
    (h : List.Forall₂ R columns values) (f : Column → β → Nat) :
    (List.zipWith (fun column value => (column, f column value)) columns values).map Prod.fst =
      columns := by
  induction h with
  | nil => rfl
  | cons _ _ ih => rw [List.zipWith_cons_cons, List.map_cons, ih]

theorem map_fst_fields (h : row.Suits columns) :
    (row.fields columns).map Prod.fst = columns := by
  cases row with
  | writeRow row => exact map_fst_zipWith (RowFits.cells h) payloadWritten
  | fieldCalls calls => exact map_fst_zipWith h fun _ call => call.payload

theorem map_fst_rows (hrows : ∀ row ∈ rows, row.Suits columns) :
    (rows.flatMap (·.fields columns)).map Prod.fst =
      (List.replicate rows.length columns).flatten := by
  induction rows with
  | nil => rfl
  | cons row rows ih =>
    obtain ⟨hrow, hrest⟩ := List.forall_mem_cons.mp hrows
    rw [List.flatMap_cons, List.map_append, map_fst_fields hrow, ih hrest, List.length_cons,
      List.replicate_succ, List.flatten_cons]

theorem fieldsWidth_rows (hrows : ∀ row ∈ rows, row.Suits columns) :
    fieldsWidth (rows.flatMap (·.fields columns)) = rows.length * rowWidth columns := by
  induction rows with
  | nil => rw [List.length_nil, Nat.zero_mul]; rfl
  | cons row rows ih =>
    obtain ⟨hrow, hrest⟩ := List.forall_mem_cons.mp hrows
    have hwidth : fieldsWidth (row.fields columns) = rowWidth columns := by
      conv_rhs => rw [← map_fst_fields hrow]
      rw [fieldsWidth, rowWidth, List.map_map]
      rfl
    rw [List.flatMap_cons, fieldsWidth_append, hwidth, ih hrest, List.length_cons, Nat.succ_mul,
      Nat.add_comm]

/-- The fields of a row are those that `ChunkToTSV` can read. -/
theorem RowWrite.Suits.readable (h : row.Suits columns)
    (hsupported : ∀ column ∈ columns, column.type ≠ .unsupported) :
    ∀ field ∈ row.fields columns,
      field.1.Readable ∧ (field.1.type ≠ .variable → field.2 = 0) := by
  cases row with
  | writeRow row =>
    have hcells := RowFits.cells h
    unfold RowWrite.fields
    clear h
    induction hcells with
    | nil =>
      intro field hfield
      cases hfield
    | cons hcell _ ih =>
      obtain ⟨hcolumn, hrest⟩ := List.forall_mem_cons.mp hsupported
      refine List.forall_mem_cons.mpr ⟨⟨⟨hcolumn, ?_⟩, payloadWritten_of_ne⟩, ih hrest⟩
      intro htype
      obtain ⟨h0, hmax⟩ := hcell.size htype
      exact ⟨h0, Int.lt_trans hmax (by decide)⟩
  | fieldCalls calls =>
    have hcalls : List.Forall₂ FieldCall.Suits columns calls := h
    unfold RowWrite.fields
    clear h
    induction hcalls with
    | nil =>
      intro field hfield
      cases hfield
    | @cons column call columns calls hcall _ ih =>
      obtain ⟨hcolumn, hrest⟩ := List.forall_mem_cons.mp hsupported
      refine List.forall_mem_cons.mpr ⟨⟨⟨hcolumn, ?_⟩, ?_⟩, ih hrest⟩
      · intro htype
        cases call with
        | writeFixed val dataSize fieldSize padWithZero =>
          obtain ⟨-, hsize, h0, hle, hlt, -⟩ := hcall
          rw [hsize] at hle hlt
          exact ⟨Int.le_trans h0 hle, hlt⟩
        | writeVariable val len => exact absurd (htype.symm.trans hcall.1) (by decide)
        | writeInt64 | writeInt32 | writeDouble => exact absurd htype hcall.1
      · intro htype
        cases call with
        | writeVariable val len => exact absurd hcall.1 htype
        | writeInt64 | writeInt32 | writeDouble | writeFixed => rfl

theorem toNat_bmod (k : Nat) (h : k < 2 ^ 64) : (Int.bmod k (2 ^ 64)).toNat ≤ k ∧
    (k < 2 ^ 63 → (Int.bmod k (2 ^ 64)).toNat = k) := by
  rw [Int.bmod]
  omega

/-- The number of rows, as the `int64_t` that `ChunkToTSV` counts to. -/
theorem toNat_toInt64_rowCount (n : Nat) :
    (toInt64 (UInt64.ofNat n)).toNat ≤ n ∧
      (n < 2 ^ 63 → (toInt64 (UInt64.ofNat n)).toNat = n) := by
  have hlt := (UInt64.ofNat n).toNat_lt
  have hmod : (UInt64.ofNat n).toNat = n % 2 ^ 64 := UInt64.toNat_ofNat'
  obtain ⟨hle, heq⟩ := toNat_bmod _ hlt
  unfold toInt64
  constructor
  · exact Nat.le_trans hle (hmod ▸ Nat.mod_le n _)
  · intro hn
    rw [heq (by omega)]
    omega

/-- A schema with a variable column does not have that many rows in a chunk, and
without one there is no text. -/
theorem firstText_take (hrows : ∀ row ∈ rows, row.Suits columns) {n : Nat}
    (hn : rows.length < 2 ^ 63 → n = rows.length)
    (hwidth : rows.length * rowWidth columns < 2 ^ 64) :
    firstText ((rows.take n).flatMap (·.fields columns)) =
      firstText (rows.flatMap (·.fields columns)) := by
  rcases Nat.lt_or_ge rows.length (2 ^ 63) with hlt | hge
  · rw [hn hlt, List.take_length]
  · have hvariable : ∀ column ∈ columns, column.type ≠ .variable := by
      intro column hcolumn htype
      have hle : columnWidth column ≤ rowWidth columns :=
        List.le_sum_of_mem (List.mem_map_of_mem hcolumn)
      rw [columnWidth_variable htype] at hle
      have := Nat.mul_le_mul hge hle
      omega
    have hnone : ∀ some' : List RowWrite, (∀ row ∈ some', row.Suits columns) →
        firstText (some'.flatMap (·.fields columns)) = none := by
      intro some' hsome
      apply firstText_eq_none
      rw [map_fst_rows hsome]
      intro column hcolumn
      obtain ⟨l, hl, hmem⟩ := List.mem_flatten.mp hcolumn
      rw [List.eq_of_mem_replicate hl] at hmem
      exact hvariable column hmem
    rw [hnone _ hrows, hnone _ fun row hrow => hrows row (List.mem_of_mem_take hrow)]

end Rows

/-- **Exactly when a Debug build does not abort** on a chunk of accepted rows,
while they are written and while `ChunkToTSV` reads them: no text is written, or
the first one that is written is not empty. -/
theorem chunk_asserts_iff (schema : RowSchema)
    (hsupported : ∀ column ∈ schema.columnInfo, column.type ≠ .unsupported) (ptr : Mem)
    (size id : UInt64) (partition : UInt32) (rows : List RowWrite)
    (hrows : ∀ row ∈ rows, row.Suits schema.columnInfo) (w : SuperChunkWriter)
    (hwritten : runRows rows
      (SuperChunkWriter.reset (newChunk ptr size id partition) schema) = some w)
    (error : String) :
    (RowsAssert rows (SuperChunkWriter.reset (newChunk ptr size id partition) schema) ∧
      ∀ s ∈ (SuperChunkReader.reset w.currentChunk.chunk error).trace
        ((SuperChunkReader.reset w.currentChunk.chunk error).tsvOps schema
          (toInt64 w.currentChunk.chunk.rowCount)), s.2.Asserts s.1) ↔
      firstText (rows.flatMap (·.fields schema.columnInfo)) ≠ some 0 := by
  obtain ⟨hwrites, hwrote⟩ := wrote_runRows hrows (Wrote.reset schema ptr size id partition)
  have hall := hwrote w hwritten
  rw [List.nil_append, Nat.zero_add] at hall
  have hwidth := hall.offset
  rw [fieldsWidth_rows hrows] at hwidth
  obtain ⟨hcount, hsmall⟩ := toNat_toInt64_rowCount rows.length
  rw [hall.rowCount, SuperChunkReader.tsvOps]
  generalize (toInt64 (UInt64.ofNat rows.length)).toNat = n at hcount hsmall ⊢
  have htake : ∀ row ∈ rows.take n, row.Suits schema.columnInfo :=
    fun row hrow => hrows row (List.mem_of_mem_take hrow)
  have hsplit : rows.flatMap (·.fields schema.columnInfo) =
      (rows.take n).flatMap (·.fields schema.columnInfo) ++
        (rows.drop n).flatMap (·.fields schema.columnInfo) := by
    rw [← List.flatMap_append, List.take_append_drop]
  rw [hsplit] at hall
  have hreads := hall.asserts_iff ?_ error
  · rw [map_fst_rows htake, List.length_take, Nat.min_eq_left hcount, firstText_take hrows hsmall
      (by rw [← hwidth]; exact UInt64.toNat_lt _)] at hreads
    exact ⟨fun hboth => hreads.mp hboth.2, fun hcondition => ⟨hwrites, hreads.mpr hcondition⟩⟩
  · intro field hfield
    obtain ⟨row, hrow, hmem⟩ := List.mem_flatMap.mp hfield
    exact (htake row hrow).readable hsupported field hmem

/-- A column of texts. -/
def textSchema : RowSchema := ⟨[⟨.variable, 0, "text"⟩], by decide⟩

/-- The writer after `NULL` in a chunk of 16 bytes: both numbers of the field are
zero. -/
def nullText : SuperChunkWriter :=
  (SuperChunkWriter.reset (newChunk (fun _ => 1) 16 0 0) textSchema).writeVariableNull.writeRowEnd

/-- **A chunk that aborts**: `NULL` in a variable column of the first row. -/
theorem nullText_aborts :
    ¬ ∀ (schema : RowSchema), (∀ column ∈ schema.columnInfo, column.type ≠ .unsupported) →
      ∀ (ptr : Mem) (size id : UInt64) (partition : UInt32) (rows : List RowWrite),
        (∀ row ∈ rows, row.Suits schema.columnInfo) → ∀ w : SuperChunkWriter,
          runRows rows (SuperChunkWriter.reset (newChunk ptr size id partition) schema) = some w →
            ∀ error,
              RowsAssert rows (SuperChunkWriter.reset (newChunk ptr size id partition) schema) ∧
              ∀ s ∈ (SuperChunkReader.reset w.currentChunk.chunk error).trace
                ((SuperChunkReader.reset w.currentChunk.chunk error).tsvOps schema
                  (toInt64 w.currentChunk.chunk.rowCount)), s.2.Asserts s.1 := by
  intro h
  have hrow : RowFits textSchema.columnInfo [⟨none, 0⟩] :=
    ⟨.cons ⟨nofun, nofun⟩ .nil, by decide⟩
  obtain ⟨-, hreads⟩ := h textSchema (by decide) (fun _ => 1) 16 0 0 [.writeRow [⟨none, 0⟩]]
    (List.forall_mem_singleton.mpr hrow) nullText rfl ""
  have hread : (SuperChunkReader.reset nullText.currentChunk.chunk "").ReadVariableAsserts :=
    hreads _ (List.mem_cons_self ..)
  exact (hread (by decide +kernel)).1 (by decide +kernel)

/-- A text of two bytes by calls, and `NULL` by `WriteRow`. -/
theorem chunk_asserts_iff_textAndNull :
    ∃ w, runRows [.fieldCalls [.writeVariable (some [104, 105]) 2], .writeRow [⟨none, 0⟩]]
        (SuperChunkWriter.reset (newChunk (fun _ => 1) 64 0 0) textSchema) = some w ∧
      ∀ s ∈ (SuperChunkReader.reset w.currentChunk.chunk "").trace
        ((SuperChunkReader.reset w.currentChunk.chunk "").tsvOps textSchema
          (toInt64 w.currentChunk.chunk.rowCount)), s.2.Asserts s.1 := by
  have hrow : RowFits textSchema.columnInfo [⟨none, 0⟩] :=
    ⟨.cons ⟨nofun, nofun⟩ .nil, by decide⟩
  have hcalls : List.Forall₂ FieldCall.Suits textSchema.columnInfo
      [.writeVariable (some [104, 105]) 2] := .cons ⟨rfl, by decide, nofun⟩ .nil
  obtain ⟨w, hw⟩ : ∃ w, runRows
      [.fieldCalls [.writeVariable (some [104, 105]) 2], .writeRow [⟨none, 0⟩]]
      (SuperChunkWriter.reset (newChunk (fun _ => 1) 64 0 0) textSchema) = some w :=
    Option.isSome_iff_exists.mp (by decide +kernel)
  refine ⟨w, hw, ((chunk_asserts_iff textSchema (by decide) _ _ _ _ _ ?_ w hw "").mpr ?_).2⟩
  · exact List.forall_mem_cons.mpr ⟨hcalls, List.forall_mem_singleton.mpr hrow⟩
  · decide

end SasLibclient
