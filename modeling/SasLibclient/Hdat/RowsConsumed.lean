import SasLibclient.Hdat.RowsAccepted

/-!
# What `WriteRow` consumes

Every write moves the offset, `variable_offset` and `consumed_size` by the
lengths that it writes (`Grows`). An accepted row moves them by `rowSize`, and
the offset alone by the width of the schema, so that row `i` of a chunk starts
at `i` times that width.
-/

namespace SasLibclient

open Bytes

/-! ## The single writes -/

namespace SuperChunk

/-- How far a write moves the offset, `variable_offset` and `consumed_size`. -/
structure Grows (s s' : SuperChunk) (fixed var used : Nat) : Prop where
  header : s'.chunk.header = s.chunk.header
  rowCount : s'.chunk.rowCount = s.chunk.rowCount
  offset : s'.offset = s.offset + UInt64.ofNat fixed
  variableOffset : s'.chunk.variableOffset = s.chunk.variableOffset + UInt64.ofNat var
  consumedSize : s'.chunk.consumedSize = s.chunk.consumedSize + UInt64.ofNat used

variable {s s' s'' : SuperChunk} {fixed fixed' var var' used used' : Nat}

theorem Grows.trans (h : Grows s s' fixed var used) (h' : Grows s' s'' fixed' var' used') :
    Grows s s'' (fixed + fixed') (var + var') (used + used') where
  header := h'.header.trans h.header
  rowCount := h'.rowCount.trans h.rowCount
  offset := by rw [h'.offset, h.offset, UInt64.add_assoc, ← UInt64.ofNat_add]
  variableOffset := by
    rw [h'.variableOffset, h.variableOffset, UInt64.add_assoc, ← UInt64.ofNat_add]
  consumedSize := by rw [h'.consumedSize, h.consumedSize, UInt64.add_assoc, ← UInt64.ofNat_add]

theorem grows_incrVariableOffset (len : UInt64) (s : SuperChunk) :
    Grows s (s.incrVariableOffset len) 0 len.toNat 0 where
  header := rfl
  rowCount := rfl
  offset := (UInt64.add_zero _).symm
  variableOffset := by
    rw [UInt64.ofNat_toNat]
    rfl
  consumedSize := (UInt64.add_zero _).symm

theorem grows_writeAt (offset : UInt64) (src : List UInt8) (s : SuperChunk) :
    Grows s (s.writeAt offset src) 0 0 src.length where
  header := header_writeAt ..
  rowCount := writeAt_rowCount ..
  offset := by
    rw [writeAt_offset]
    exact (UInt64.add_zero _).symm
  variableOffset := by
    rw [writeAt_variableOffset]
    exact (UInt64.add_zero _).symm
  consumedSize := by
    unfold writeAt
    split
    · rename_i hnil
      rw [hnil]
      exact (UInt64.add_zero _).symm
    · rfl

theorem grows_write (src : List UInt8) (s : SuperChunk) :
    Grows s (s.write src) src.length 0 src.length :=
  have h := grows_writeAt s.offset src s
  ⟨h.header, h.rowCount, write_offset src s, h.variableOffset, h.consumedSize⟩

theorem grows_pad (len : UInt64) (fill : Option UInt8) (s : SuperChunk) :
    Grows s (s.pad len fill) len.toNat 0 len.toNat where
  header := rfl
  rowCount := rfl
  offset := by
    rw [UInt64.ofNat_toNat]
    rfl
  variableOffset := (UInt64.add_zero _).symm
  consumedSize := by
    rw [UInt64.ofNat_toNat]
    rfl

theorem grows_writeTyped (n val : Nat) (s : SuperChunk) : Grows s (s.writeTyped n val) n 0 n where
  header := rfl
  rowCount := rfl
  offset := rfl
  variableOffset := (UInt64.add_zero _).symm
  consumedSize := rfl

end SuperChunk

/-! ## The columns of a row -/

/-- The bytes of a cell in the variable-length section. -/
def payloadWritten (column : Column) (cell : Cell) : Nat :=
  match column.type, cell.value with
  | .variable, some _ => cell.length.toNat
  | _, _ => 0

theorem payloadWritten_of_ne (h : column.type ≠ .variable) : payloadWritten column cell = 0 := by
  unfold payloadWritten
  split
  · exact absurd ‹_› h
  · rfl

/-- The bytes of a row in the variable-length section. -/
def rowWritten (columns : List Column) (row : List Cell) : Nat :=
  (List.zipWith payloadWritten columns row).sum

namespace SuperChunkWriter

/-- What writing columns does to the writer. -/
structure Grows (w w' : SuperChunkWriter) (fixed var : Nat) : Prop where
  rowSchema : w'.rowSchema = w.rowSchema
  chunkSize : w'.chunkSize = w.chunkSize
  chunk : w.currentChunk.Grows w'.currentChunk fixed var (fixed + var)

variable {column : Column} {cell : Cell} {w w' : SuperChunkWriter}

theorem Grows.onChunk {f : SuperChunk → SuperChunk} {fixed var : Nat} (w : SuperChunkWriter)
    (h : w.currentChunk.Grows (f w.currentChunk) fixed var (fixed + var)) :
    Grows w (w.onChunk f) fixed var :=
  ⟨rfl, rfl, h⟩

theorem grows_write (w : SuperChunkWriter) {bytes : List UInt8} (hlen : bytes.length = 8) :
    Grows w (w.onChunk fun s => s.write bytes) 8 0 :=
  .onChunk w (hlen ▸ SuperChunk.grows_write bytes _)

theorem grows_write8Typed (w : SuperChunkWriter) (val : UInt64) :
    Grows w (w.onChunk fun s => s.write8Typed val) 8 0 :=
  .onChunk w (SuperChunk.grows_writeTyped 8 _ _)

theorem grows_write4Typed (w : SuperChunkWriter) (val : UInt32) :
    Grows w (w.onChunk fun s => (s.write4Typed val).pad 4 none) 8 0 :=
  .onChunk w ((SuperChunk.grows_writeTyped 4 _ _).trans (SuperChunk.grows_pad 4 none _))

theorem grows_write4 (w : SuperChunkWriter) {bytes : List UInt8} (hlen : bytes.length = 4) :
    Grows w (w.onChunk fun s => (s.write bytes).pad 4 none) 8 0 := by
  have h := (SuperChunk.grows_write bytes w.currentChunk).trans (SuperChunk.grows_pad 4 none _)
  rw [hlen] at h
  exact .onChunk w h

theorem grows_writeFixed (w : SuperChunkWriter) (value : List UInt8) {dataSize fieldSize : UInt64}
    (padWithZero : Bool) (hle : dataSize ≤ sizeofAligned8 fieldSize) :
    Grows w (w.writeFixed value dataSize fieldSize padWithZero)
      (sizeofAligned8 fieldSize).toNat 0 := by
  have h := (SuperChunk.grows_write (bytesAt value dataSize.toNat) w.currentChunk).trans
    (SuperChunk.grows_pad (sizeofAligned8 fieldSize - dataSize)
      (some (if padWithZero then 0 else 32)) _)
  rw [length_bytesAt, UInt64.toNat_sub_of_le _ _ hle,
    Nat.add_sub_cancel' (UInt64.le_iff_toNat_le.mp hle)] at h
  exact .onChunk w h

theorem grows_writeVariable (w : SuperChunkWriter) (value : List UInt8) (len : UInt64) :
    Grows w (w.writeVariable value len) 16 len.toNat := by
  let s₁ := w.currentChunk.incrVariableOffset len
  let s₂ := s₁.write8Typed s₁.chunk.variableOffset
  let s₃ := s₂.write8Typed len
  have h : w.currentChunk.Grows (s₃.writeAt (w.chunkSize - s₃.chunk.variableOffset)
      (bytesAt value len.toNat)) (0 + 8 + 8 + 0) (len.toNat + 0 + 0 + 0)
      (0 + 8 + 8 + (bytesAt value len.toNat).length) :=
    (((SuperChunk.grows_incrVariableOffset len _).trans
      (SuperChunk.grows_writeTyped 8 _ s₁)).trans
      (SuperChunk.grows_writeTyped 8 _ s₂)).trans (SuperChunk.grows_writeAt _ _ s₃)
  rw [length_bytesAt] at h
  exact .onChunk w h

/-- **A column** moves the offset by its width and `variable_offset` by its
payload. -/
theorem grows_writeColumn (h : CellFits column cell) (hok : w.writeColumn column cell = .ok w') :
    Grows w w' (columnWidth column) (payloadWritten column cell) := by
  cases writeColumn_cases hok with
  | eight bytes val hwidth hvariable hlen _ _ =>
    rw [hwidth, payloadWritten_of_ne hvariable]
    exact grows_write w hlen
  | four bytes val hwidth hvariable hlen _ _ =>
    rw [hwidth, payloadWritten_of_ne hvariable]
    exact grows_write4 w hlen
  | fixed value hcolumn hvalue =>
    obtain ⟨h0, hmax⟩ := h.size hcolumn
    have haligned := toNat_sizeofAligned8_size h0 (by omega)
    have hdata := h.data hcolumn (by rw [hvalue]; exact Option.some_ne_none value)
    have hle : cell.length ≤ sizeofAligned8 (UInt64.ofInt column.size) :=
      UInt64.le_iff_toNat_le.mpr (by rw [haligned]; omega)
    have hgrows := grows_writeFixed w value false hle
    rw [haligned] at hgrows
    rw [columnWidth, payloadWritten, hcolumn]
    exact hgrows
  | fixedNull hcolumn hvalue =>
    obtain ⟨h0, hmax⟩ := h.size hcolumn
    have haligned := toNat_sizeofAligned8_size h0 (by omega)
    have hmod : column.size.bmod (2 ^ 32) = column.size :=
      Int.bmod_eq_of_le (by omega) (by omega)
    have hpad := SuperChunk.grows_pad (sizeofAligned8 (UInt64.ofInt column.size)) (some 0)
      w.currentChunk
    rw [haligned] at hpad
    rw [columnWidth, payloadWritten, hcolumn, writeFixedNull, hmod]
    exact .onChunk w hpad
  | «variable» value hcolumn hvalue =>
    rw [columnWidth, payloadWritten, hcolumn, hvalue]
    exact grows_writeVariable w value cell.length
  | variableNull hcolumn hvalue =>
    rw [columnWidth, payloadWritten, hcolumn, hvalue]
    exact grows_writeVariable w [] 0

theorem Grows.trans {w'' : SuperChunkWriter} {fixed fixed' var var' : Nat}
    (h : Grows w w' fixed var) (h' : Grows w' w'' fixed' var') :
    Grows w w'' (fixed + fixed') (var + var') where
  rowSchema := h'.rowSchema.trans h.rowSchema
  chunkSize := h'.chunkSize.trans h.chunkSize
  chunk := by
    have hchunk := h.chunk.trans h'.chunk
    have hused : fixed + var + (fixed' + var') = fixed + fixed' + (var + var') := by omega
    rw [hused] at hchunk
    exact hchunk

theorem grows_writeColumns {columns : List Column} {row : List Cell}
    (h : List.Forall₂ CellFits columns row) (hok : writeColumns columns row w = .ok w') :
    Grows w w' (rowWidth columns) (rowWritten columns row) := by
  induction h generalizing w with
  | nil =>
    obtain rfl := Except.ok.inj hok
    exact ⟨rfl, rfl, rfl, rfl, (UInt64.add_zero _).symm, (UInt64.add_zero _).symm,
      (UInt64.add_zero _).symm⟩
  | @cons column cell columns row hcell _ ih =>
    rw [writeColumns, List.headD_cons, List.tail_cons] at hok
    cases hcolumn : w.writeColumn column cell with
    | error e =>
      rw [hcolumn] at hok
      cases hok
    | ok w₁ =>
      rw [hcolumn] at hok
      have hgrows := (grows_writeColumn hcell hcolumn).trans (ih hok)
      simpa only [rowWidth, rowWritten, List.map_cons, List.zipWith_cons_cons, List.sum_cons]
        using hgrows

/-- The assertion of `HasEnoughSpace`, and what `Reset` made of `m_chunk_size`. -/
structure Sound (w : SuperChunkWriter) : Prop where
  chunkSize : w.chunkSize = w.currentChunk.chunk.size
  fits : w.currentChunk.used ≤ w.chunkSize.toNat

theorem Sound.hasEnoughSpace_iff (h : Sound w) (requested : UInt64) :
    w.hasEnoughSpace requested = true ↔
      w.currentChunk.used + requested.toNat ≤ w.chunkSize.toNat :=
  SuperChunkWriter.hasEnoughSpace_iff h.fits requested

theorem Sound.reset {chunk : Chunk} (h : chunk.variableOffset.toNat ≤ chunk.size.toNat)
    (schema : RowSchema) : Sound (reset chunk schema) := by
  constructor
  · rfl
  · show (0 : UInt64).toNat + chunk.variableOffset.toNat ≤ chunk.size.toNat
    rw [UInt64.toNat_zero, Nat.zero_add]
    exact h

/-- Writes that fit do not overflow. -/
theorem Grows.toNat {fixed var : Nat} (h : Grows w w' fixed var) (hs : Sound w)
    (hfits : w.currentChunk.used + (fixed + var) ≤ w.chunkSize.toNat) :
    Sound w' ∧ w'.currentChunk.offset.toNat = w.currentChunk.offset.toNat + fixed ∧
      w'.currentChunk.chunk.variableOffset.toNat =
        w.currentChunk.chunk.variableOffset.toNat + var := by
  have hlt := w.chunkSize.toNat_lt
  simp only [SuperChunk.used] at hfits
  have hoffset : w'.currentChunk.offset.toNat = w.currentChunk.offset.toNat + fixed := by
    rw [h.chunk.offset]
    exact toNat_add_ofNat (k := w.chunkSize.toNat) (by omega) hlt
  have hvariable : w'.currentChunk.chunk.variableOffset.toNat =
      w.currentChunk.chunk.variableOffset.toNat + var := by
    rw [h.chunk.variableOffset]
    exact toNat_add_ofNat (k := w.chunkSize.toNat) (by omega) hlt
  refine ⟨⟨?_, ?_⟩, hoffset, hvariable⟩
  · have hsize := congrArg Prod.fst h.chunk.header
    rw [h.chunkSize, hs.chunkSize]
    exact hsize.symm
  · simp only [SuperChunk.used]
    rw [h.chunkSize]
    omega

end SuperChunkWriter

/-! ## A row -/

open SuperChunkWriter

variable {columns : List Column} {row : List Cell} {w w' : SuperChunkWriter}

theorem writeColumns_converts (h : List.Forall₂ Converts columns row) (w : SuperChunkWriter) :
    ∃ w', writeColumns columns row w = .ok w' := by
  induction h generalizing w with
  | nil => exact ⟨w, rfl⟩
  | cons hcell _ ih =>
    obtain ⟨w₁, hw₁⟩ := hcell.writeColumn_ok w
    obtain ⟨w', hw'⟩ := ih w₁
    refine ⟨w', ?_⟩
    rw [writeColumns, List.headD_cons, List.tail_cons, hw₁]
    exact hw'

theorem Converts.of_writeColumn {column : Column} {cell : Cell}
    (h : w.writeColumn column cell = .ok w') : Converts column cell := by
  unfold SuperChunkWriter.writeColumn at h
  constructor
  · intro htype
    rw [htype] at h
    cases h
  · intro htype value hvalue
    rw [htype, hvalue] at h
    obtain ⟨d, hd, -⟩ := writeConverted_ok h
    exact ⟨d, hd⟩
  · intro htype value hvalue
    rw [htype, hvalue] at h
    obtain ⟨d, hd, -⟩ := writeConverted_ok h
    exact ⟨d, hd⟩

theorem converts_of_writeColumns (hlength : columns.length = row.length)
    (h : writeColumns columns row w = .ok w') : List.Forall₂ Converts columns row := by
  induction columns generalizing row w with
  | nil =>
    obtain rfl := List.length_eq_zero_iff.mp hlength.symm
    exact .nil
  | cons column columns ih =>
    cases row with
    | nil => cases hlength
    | cons cell row =>
      rw [writeColumns, List.headD_cons, List.tail_cons] at h
      cases hcolumn : w.writeColumn column cell with
      | ok w₁ =>
        rw [hcolumn] at h
        exact .cons (.of_writeColumn hcolumn) (ih (Nat.succ.inj hlength) h)
      | error e =>
        rw [hcolumn] at h
        cases h

/-- A row as `Advance` leaves it: the length of a `NULL` is 0. -/
structure RowFetched (columns : List Column) (row : List Cell) : Prop extends
    RowFits columns row where
  nulls : List.Forall₂ (fun column cell => column.type = .variable → cell.value = none →
    cell.length = 0) columns row
  converts : List.Forall₂ Converts columns row

theorem payloadWritten_le (column : Column) (cell : Cell) :
    payloadWritten column cell ≤ payloadLength column cell := by
  unfold payloadWritten payloadLength
  cases column.type with
  | «variable» =>
    cases cell.value with
    | none => exact Nat.zero_le _
    | some value => exact Nat.le_refl _
  | _ => exact Nat.le_refl _

theorem rowWritten_le (columns : List Column) (row : List Cell) :
    rowWritten columns row ≤ rowPayload columns row := by
  induction columns generalizing row with
  | nil => exact Nat.le_refl _
  | cons column columns ih =>
    cases row with
    | nil => exact Nat.le_refl _
    | cons cell row =>
      have hcell := payloadWritten_le column cell
      have hrest := ih row
      simp only [rowWritten, rowPayload, List.zipWith_cons_cons, List.sum_cons] at hrest ⊢
      omega

theorem RowFits.le_rowSize {schema : RowSchema} (h : RowFits schema.columnInfo row) :
    rowWidth schema.columnInfo + rowWritten schema.columnInfo row ≤ (rowSize schema row).toNat := by
  have hle := rowWritten_le schema.columnInfo row
  rw [toNat_rowSize h, rowNeed_eq h.cells]
  omega

/-- Without a length for `NULL`s all payloads are written. -/
theorem rowWritten_eq_rowPayload (h : List.Forall₂ (fun column cell => column.type = .variable →
    cell.value = none → cell.length = 0) columns row) :
    rowWritten columns row = rowPayload columns row := by
  induction h with
  | nil => rfl
  | @cons column cell columns row hnull _ ih =>
    have hcell : payloadWritten column cell = payloadLength column cell := by
      unfold payloadWritten payloadLength
      cases hcolumn : column.type with
      | «variable» =>
        cases hvalue : cell.value with
        | none =>
          rw [hnull hcolumn hvalue]
          rfl
        | some value => rfl
      | _ => rfl
    simp only [rowWritten, rowPayload, List.zipWith_cons_cons, List.sum_cons] at ih ⊢
    rw [hcell, ih]

theorem RowFetched.rowWritten_eq (h : RowFetched columns row) :
    rowWritten columns row = rowPayload columns row :=
  rowWritten_eq_rowPayload h.nulls

/-- **`rowSize` is what the row takes.** -/
theorem RowFetched.toNat_rowSize {schema : RowSchema} (h : RowFetched schema.columnInfo row) :
    (rowSize schema row).toNat =
      rowWidth schema.columnInfo + rowWritten schema.columnInfo row := by
  rw [SasLibclient.toNat_rowSize h.toRowFits, rowNeed_eq h.cells, h.rowWritten_eq]

/-! ### What `WriteRow` leaves -/

namespace SuperChunkWriter

/-- The writer that the columns leave, also when one of them throws. -/
def columnsLeave : List Column → List Cell → SuperChunkWriter → SuperChunkWriter
  | [], _, w => w
  | column :: columns, cells, w =>
    match w.writeColumn column (cells.headD ⟨none, 0⟩) with
    | .ok w' => columnsLeave columns cells.tail w'
    | .error _ => w

/-- The writer that `WriteRow` leaves, also when it throws. -/
def rowLeaves (row : List Cell) (w : SuperChunkWriter) : SuperChunkWriter :=
  if !w.hasEnoughSpace (rowSize w.rowSchema row) then
    w
  else
    match writeColumns w.rowSchema.columnInfo row w with
    | .ok w' => w'.writeRowEnd
    | .error _ => columnsLeave w.rowSchema.columnInfo row w

/-- When `WriteRow` returns, it leaves the writer that the model returns. -/
theorem rowLeaves_ok {b : Bool} (h : w.writeRow row = .ok (b, w')) : rowLeaves row w = w' := by
  unfold writeRow at h
  unfold rowLeaves
  dsimp only at h
  by_cases hspace : (!w.hasEnoughSpace (rowSize w.rowSchema row)) = true
  · rw [if_pos hspace] at h ⊢
    split at h
    · cases h
    · exact (Prod.mk.inj (Except.ok.inj h)).2
  · rw [if_neg hspace] at h ⊢
    cases hcolumns : writeColumns w.rowSchema.columnInfo row w with
    | ok w₁ =>
      rw [hcolumns] at h
      exact (Prod.mk.inj (Except.ok.inj h)).2
    | error e =>
      rw [hcolumns] at h
      cases h

theorem rowLeaves_tooSmall {what : String}
    (h : w.writeRow row = .error (.invalidArgument what)) : rowLeaves row w = w := by
  unfold writeRow at h
  unfold rowLeaves
  dsimp only at h
  split at h
  · rename_i hspace
    rw [if_pos hspace]
  · split at h
    · cases h
    · rename_i e hcolumns
      obtain rfl := Except.error.inj h
      obtain ⟨e', he, -⟩ := writeColumns_error hcolumns
      cases he

end SuperChunkWriter

/-- What `WriteRow` does with a row: it is accepted exactly when `rowSize` fits,
then takes exactly `rowSize` bytes, and a row that is not accepted changes
nothing. -/
structure RowConsumed (schema : RowSchema) (row : List Cell) (w : SuperChunkWriter) : Prop where
  accepted : (∃ w', w.writeRow row = .ok (true, w')) ↔
    w.currentChunk.used + (rowSize schema row).toNat ≤ w.chunkSize.toNat
  used : ∀ w', w.writeRow row = .ok (true, w') →
    w'.currentChunk.used = w.currentChunk.used + (rowSize schema row).toNat
  offset : ∀ w', w.writeRow row = .ok (true, w') →
    w'.currentChunk.offset.toNat = w.currentChunk.offset.toNat + rowWidth schema.columnInfo
  rejected : ∀ w', w.writeRow row = .ok (false, w') → w' = w ∧ rowLeaves row w = w
  tooSmall : ∀ what, w.writeRow row = .error (.invalidArgument what) → rowLeaves row w = w

/-- An accepted row is its columns and `WriteRowEnd`. -/
theorem writeRow_true (h : w.writeRow row = .ok (true, w')) :
    w.hasEnoughSpace (rowSize w.rowSchema row) = true ∧
      ∃ w₁, writeColumns w.rowSchema.columnInfo row w = .ok w₁ ∧ w' = w₁.writeRowEnd := by
  unfold SuperChunkWriter.writeRow at h
  dsimp only at h
  split at h
  · split at h
    · cases h
    · cases h
  · rename_i hspace
    split at h
    · rename_i w₁ hcolumns
      exact ⟨by simpa using hspace, w₁, hcolumns, (Prod.mk.inj (Except.ok.inj h)).2.symm⟩
    · cases h

/-- What an accepted row leaves. -/
structure RowAdded (schema : RowSchema) (row : List Cell) (w w' : SuperChunkWriter) : Prop where
  sound : Sound w'
  rowSchema : w'.rowSchema = w.rowSchema
  offset : w'.currentChunk.offset.toNat =
    w.currentChunk.offset.toNat + rowWidth schema.columnInfo
  variableOffset : w'.currentChunk.chunk.variableOffset.toNat =
    w.currentChunk.chunk.variableOffset.toNat + rowWritten schema.columnInfo row
  consumedSize : w'.currentChunk.chunk.consumedSize = w.currentChunk.chunk.consumedSize +
    UInt64.ofNat (rowWidth schema.columnInfo + rowWritten schema.columnInfo row)
  rowCount : w'.currentChunk.chunk.rowCount = w.currentChunk.chunk.rowCount + 1

theorem writeRow_added {schema : RowSchema} (hs : Sound w) (hschema : w.rowSchema = schema)
    (hrow : RowFits schema.columnInfo row) (hok : w.writeRow row = .ok (true, w')) :
    RowAdded schema row w w' := by
  obtain ⟨hspace, w₁, hcolumns, rfl⟩ := writeRow_true hok
  have hsize := hrow.le_rowSize
  rw [hs.hasEnoughSpace_iff, hschema] at hspace
  rw [hschema] at hcolumns
  have hgrows := grows_writeColumns hrow.cells hcolumns
  obtain ⟨hsound, hoffset, hvariable⟩ := hgrows.toNat hs (by omega)
  constructor
  · exact ⟨hsound.chunkSize, hsound.fits⟩
  · exact hgrows.rowSchema
  · exact hoffset
  · exact hvariable
  · exact hgrows.chunk.consumedSize
  · show w₁.currentChunk.chunk.rowCount + 1 = _
    rw [hgrows.chunk.rowCount]

/-- **One row**, for every writer. -/
theorem writeRow_consumed {schema : RowSchema} (hs : Sound w) (hschema : w.rowSchema = schema)
    (hrow : RowFetched schema.columnInfo row) : RowConsumed schema row w := by
  have hspace := hs.hasEnoughSpace_iff (rowSize schema row)
  constructor
  · rw [← hspace]
    constructor
    · rintro ⟨w', hok⟩
      rw [← hschema]
      exact (writeRow_true hok).1
    · intro henough
      obtain ⟨w₁, hcolumns⟩ := writeColumns_converts hrow.converts w
      refine ⟨w₁.writeRowEnd, ?_⟩
      unfold SuperChunkWriter.writeRow
      rw [hschema]
      simp [henough, hcolumns]
  · intro w' hok
    have hadded := writeRow_added hs hschema hrow.toRowFits hok
    rw [hrow.toNat_rowSize, SuperChunk.used, hadded.offset, hadded.variableOffset, SuperChunk.used]
    omega
  · intro w' hok
    exact (writeRow_added hs hschema hrow.toRowFits hok).offset
  · intro w' hok
    have hleaves := rowLeaves_ok hok
    rw [writeRow_false hok] at hleaves
    exact ⟨writeRow_false hok, hleaves⟩
  · intro what hok
    exact rowLeaves_tooSmall hok

/-- The payloads of the rows. -/
def rowsWritten (columns : List Column) (rows : List (List Cell)) : Nat :=
  (rows.map (rowWritten columns)).sum

/-- What accepted rows leave. -/
structure RowsAdded (schema : RowSchema) (rows : List (List Cell)) (w w' : SuperChunkWriter) :
    Prop where
  sound : Sound w'
  rowSchema : w'.rowSchema = w.rowSchema
  offset : w'.currentChunk.offset.toNat =
    w.currentChunk.offset.toNat + rows.length * rowWidth schema.columnInfo
  variableOffset : w'.currentChunk.chunk.variableOffset.toNat =
    w.currentChunk.chunk.variableOffset.toNat + rowsWritten schema.columnInfo rows
  consumedSize : w'.currentChunk.chunk.consumedSize = w.currentChunk.chunk.consumedSize +
    UInt64.ofNat (rows.length * rowWidth schema.columnInfo + rowsWritten schema.columnInfo rows)

/-- **The rows of a chunk**, one behind the other. -/
theorem writeRows_added {schema : RowSchema} {rows : List (List Cell)} (hs : Sound w)
    (hschema : w.rowSchema = schema) (hrows : ∀ row ∈ rows, RowFits schema.columnInfo row)
    (hok : writeRows rows w = some w') : RowsAdded schema rows w w' := by
  induction rows generalizing w with
  | nil =>
    obtain rfl := Option.some.inj hok
    refine ⟨hs, rfl, ?_, rfl, ?_⟩
    · rw [List.length_nil, Nat.zero_mul, Nat.add_zero]
    · rw [List.length_nil, Nat.zero_mul]
      exact (UInt64.add_zero _).symm
  | cons row rows ih =>
    obtain ⟨hrow, hrest⟩ := List.forall_mem_cons.mp hrows
    rw [writeRows] at hok
    split at hok
    · rename_i w₁ hwrite
      have hadded := writeRow_added hs hschema hrow hwrite
      have hnext := ih hadded.sound (hadded.rowSchema.trans hschema) hrest hok
      constructor
      · exact hnext.sound
      · exact hnext.rowSchema.trans hadded.rowSchema
      · rw [hnext.offset, hadded.offset, List.length_cons, Nat.succ_mul]
        omega
      · rw [hnext.variableOffset, hadded.variableOffset, rowsWritten, rowsWritten, List.map_cons,
          List.sum_cons]
        omega
      · rw [hnext.consumedSize, hadded.consumedSize, UInt64.add_assoc, ← UInt64.ofNat_add,
          List.length_cons, Nat.succ_mul, rowsWritten, rowsWritten, List.map_cons, List.sum_cons]
        congr 2
        omega
    · cases hok

end SasLibclient
