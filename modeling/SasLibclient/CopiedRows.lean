import SasLibclient.Hdat.RowsAccepted
import SasLibclient.InfileRead
import SasLibclient.TsvTableWriter

/-!
# Rows that are read and written back

A table is copied through the library: the rows that a connection has fetched go
into a chunk with `WriteRow`, and `WriteChunk` prints the chunk with
`ChunkToTSV`, hands the text to LOAD DATA in pieces, and the server stores what
it reads there.

* `TableValue`: the values of the database, and `Shows`, `Stores`: what a fetched
  cell and a loaded field say about one;
* `arrives`: what becomes of a value; the sentinels of the chunk and empty texts
  become NULL, and fixed texts are padded;
* `copied_rows_arrive`: the copy has the rows of the table, in order, with the
  values that `arrives` gives.
-/

namespace SasLibclient

open Bytes LoadData Gregorian Decimal

/-- A value of a column; a length of time is in microseconds. -/
inductive TableValue where
  | null
  | integer (n : Int)
  | double (bits : UInt64)
  | text (bytes : List UInt8)
  | date (d : Date)
  | timestamp (t : Timestamp)
  | time (micros : Int)

/-- The cell that a connection fetches for a value. -/
def Shows (column : Column) (cell : Cell) (v : TableValue) : Prop :=
  match cell.value, v with
  | none, .null => True
  | some value, .integer n =>
    column.type = .int64 ∧ n = toInt64 (UInt64.ofNat (ofLE (bytesAt value 8))) ∨
      column.type = .int32 ∧ n = toInt32 (UInt32.ofNat (ofLE (bytesAt value 4)))
  | some value, .double bits =>
    column.type = .double ∧ bits = UInt64.ofNat (ofLE (bytesAt value 8))
  | some value, .text bytes =>
    (column.type = .fixed ∨ column.type = .variable) ∧ bytes = bytesAt value cell.length.toNat
  | some value, .date d =>
    column.type = .date ∧ (MysqlTime.ofBytes value).DenotesDate d ∧ InYears d
  | some value, .timestamp t =>
    column.type = .dateTime ∧ (MysqlTime.ofBytes value).Denotes t ∧ InYears t.date
  | some value, .time micros =>
    column.type = .time ∧ -maxTime ≤ micros ∧ micros ≤ maxTime ∧
      ∃ t, (MysqlTime.ofBytes value).DenotesTime t ∧ t.micros = micros
  | _, _ => False

/-- What LOAD DATA makes of a field: NULL or the bytes of a text. -/
def TsvWorld.Stores (W : TsvWorld) (loaded : Option (List UInt8)) (v : TableValue) : Prop :=
  match loaded, v with
  | none, .null => True
  | some bytes, .integer n => bytes = ascii n.repr.toList
  | some bytes, .double bits => bytes = W.sprintfE bits
  | some bytes, .text b => bytes = b
  | some bytes, .date d => ∃ text, bytes = ascii text ∧ readDate text = some d
  | some bytes, .timestamp t => ∃ text, bytes = ascii text ∧ readTimestamp text = some t
  | some bytes, .time micros =>
    ∃ text t, bytes = ascii text ∧ readTime text = some t ∧ t.micros = micros
  | _, _ => False

/-- A fixed text in its column. -/
def paddedText (column : Column) (bytes : List UInt8) : List UInt8 :=
  bytes ++ List.replicate (column.size.toNat - bytes.length) 32

/-- What becomes of a value of the column. -/
def arrives (column : Column) (v : TableValue) : TableValue :=
  match column.type, v with
  | .int64, .integer n => if n = toInt64 int64Null then .null else .integer n
  | .int32, .integer n => if n = toInt32 int32Null then .null else .integer n
  | .double, .double bits => if isNan bits then .null else .double bits
  | .fixed, .text bytes =>
    if (Field.fixed (paddedText column bytes)).isNull then .null
    else .text (paddedText column bytes)
  | .variable, .text bytes => if bytes.isEmpty then .null else .text bytes
  | _, v => v

/-! ## One value -/

theorem toInt64_inj {x y : UInt64} : toInt64 x = toInt64 y ↔ x = y := by
  unfold toInt64
  rw [← UInt64.toNat_inj, Int.bmod_def, Int.bmod_def]
  have hx := x.toNat_lt
  have hy := y.toNat_lt
  constructor
  · intro h
    split at h <;> split at h <;> omega
  · intro h
    rw [h]

theorem toInt32_inj {x y : UInt32} : toInt32 x = toInt32 y ↔ x = y := by
  unfold toInt32
  rw [← UInt32.toNat_inj, Int.bmod_def, Int.bmod_def]
  have hx := x.toNat_lt
  have hy := y.toNat_lt
  constructor
  · intro h
    split at h <;> split at h <;> omega
  · intro h
    rw [h]

theorem plainToken_chars {text : List Char} (hne : text ≠ [])
    (h : ∀ c ∈ text, c.isDigit = true ∨ c ∈ ['-', ':', '.', ' ']) : PlainToken (ascii text) := by
  refine ⟨fun hnil => hne (List.map_eq_nil_iff.mp hnil), ?_⟩
  intro b hb
  obtain ⟨c, hc, rfl⟩ := List.mem_map.mp hb
  by_cases hspace : c = ' '
  · subst hspace
    exact ⟨by decide, by decide, by decide, by decide⟩
  · refine plain_ascii ((h c hc).imp_right fun hmem => ?_)
    simpa [hspace] using hmem

theorem dateText_chars (d : Date) : ∀ c ∈ d.text, c.isDigit = true ∨ c ∈ ['-', ':', '.', ' '] := by
  intro c hc
  simp only [Date.text, List.mem_append, List.mem_cons] at hc
  rcases hc with hdigit | rfl | hdigit | rfl | hdigit
  · exact Or.inl (isDigit_of_mem_padded hdigit)
  · exact Or.inr List.mem_cons_self
  · exact Or.inl (isDigit_of_mem_padded hdigit)
  · exact Or.inr List.mem_cons_self
  · exact Or.inl (isDigit_of_mem_padded hdigit)

theorem timestampText_chars (t : Timestamp) :
    ∀ c ∈ t.text, c.isDigit = true ∨ c ∈ ['-', ':', '.', ' '] := by
  intro c hc
  simp only [Timestamp.text, Moment.text, List.mem_append, List.mem_cons] at hc
  rcases hc with (hdigit | rfl | hdigit | rfl | hdigit | rfl | hdigit | rfl | hdigit | rfl | hdigit) |
    hmicro
  · exact Or.inl (isDigit_of_mem_padded hdigit)
  · exact Or.inr (by simp)
  · exact Or.inl (isDigit_of_mem_padded hdigit)
  · exact Or.inr (by simp)
  · exact Or.inl (isDigit_of_mem_padded hdigit)
  · exact Or.inr (by simp)
  · exact Or.inl (isDigit_of_mem_padded hdigit)
  · exact Or.inr (by simp)
  · exact Or.inl (isDigit_of_mem_padded hdigit)
  · exact Or.inr (by simp)
  · exact Or.inl (isDigit_of_mem_padded hdigit)
  · split at hmicro
    · cases hmicro
    · rcases List.mem_cons.mp hmicro with rfl | hdigit
      · exact Or.inr (by simp)
      · exact Or.inl (isDigit_of_mem_padded hdigit)

section Values

variable {W : TsvWorld} {column : Column} {cell : Cell} {v : TableValue}

/-- What the reader returns for a cell. -/
def cellReadBack (column : Column) (cell : Cell) : Field × Bool :=
  (fieldValue column cell, cell.value.isNone || (fieldValue column cell).isNull)

/-- The field is printed as a text from which LOAD DATA reads `v`. -/
structure TsvWorld.Carries (W : TsvWorld) (column : Column) (read : Field × Bool)
    (v : TableValue) : Prop where
  prints : W.PrintsToken (column, read)
  stores : W.Stores (W.decodedValue (column, read)) v

theorem carries_null (field : Field) : W.Carries column (field, true) .null :=
  ⟨(fun hfalse => nomatch hfalse), trivial⟩

theorem carries_text {field : Field} {bytes : List UInt8}
    (hfield : field = .fixed bytes ∨ field = .variable bytes) :
    W.Carries column (field, false) (.text bytes) := by
  rcases hfield with rfl | rfl
  · exact ⟨fun _ htoken => Bool.noConfusion htoken, rfl⟩
  · exact ⟨fun _ htoken => Bool.noConfusion htoken, rfl⟩

theorem carries_token {field : Field} (htoken : field.isToken = true)
    (hplain : PlainToken (W.fieldText column field))
    (hstores : W.Stores (some (W.fieldText column field)) v) :
    W.Carries column (field, false) v := by
  refine ⟨fun _ _ => hplain, ?_⟩
  cases field with
  | fixed bytes | «variable» bytes => cases htoken
  | int64 val | int32 val | double bits => exact hstores

theorem carries_int64 {val : UInt64} (hcolumn : column.type = .int64) :
    W.Carries column (readBack (.int64 val)) (arrives column (.integer (toInt64 val))) := by
  simp only [arrives, hcolumn, toInt64_inj, readBack, Field.isNull]
  split
  · rename_i hnull
    rw [hnull, beq_self_eq_true]
    exact carries_null _
  · rename_i hvalue
    rw [beq_false_of_ne hvalue]
    have htext : W.fieldText column (.int64 val) = ascii (toInt64 val).repr.toList := by
      simp [TsvWorld.fieldText, hcolumn]
    exact carries_token rfl (htext ▸ plainToken_repr _) htext

theorem carries_int32 {val : UInt32} (hcolumn : column.type = .int32) :
    W.Carries column (readBack (.int32 val)) (arrives column (.integer (toInt32 val))) := by
  simp only [arrives, hcolumn, toInt32_inj, readBack, Field.isNull]
  split
  · rename_i hnull
    rw [hnull, beq_self_eq_true]
    exact carries_null _
  · rename_i hvalue
    rw [beq_false_of_ne hvalue]
    have htext : W.fieldText column (.int32 val) = ascii (toInt32 val).repr.toList := by
      simp [TsvWorld.fieldText, hcolumn]
    exact carries_token rfl (htext ▸ plainToken_repr _) htext

theorem carries_double {bits : UInt64} (hcolumn : column.type = .double)
    (hdouble : isNan bits = false → PlainToken (W.sprintfE bits)) :
    W.Carries column (readBack (.double bits)) (arrives column (.double bits)) := by
  simp only [arrives, hcolumn, readBack, Field.isNull]
  cases hnan : isNan bits with
  | true => exact carries_null _
  | false => exact carries_token rfl (hdouble hnan) rfl

/-- A date is never the sentinel, and prints as the same date. -/
theorem carries_date {value : List UInt8} {length : UInt64} {d : Date} (hcolumn : column.type = .date)
    (hd : (MysqlTime.ofBytes value).DenotesDate d) (hrange : InYears d) :
    W.Carries column (readBack (fieldValue column ⟨some value, length⟩)) (.date d) := by
  have hbounds := number_bounds_of_inYears hrange
  have hvalue : toInt32 (UInt32.ofInt (d.number + 3653)) = d.number + 3653 :=
    toInt32_ofInt (by omega) (by omega)
  have hfield : fieldValue column ⟨some value, length⟩ =
      .int32 (UInt32.ofInt (d.number + 3653)) := by
    simp only [fieldValue, hcolumn, toDateCAS_eq hd hrange]
    rfl
  have hsentinel : UInt32.ofInt (d.number + 3653) ≠ int32Null := by
    intro heq
    have hnull : toInt32 int32Null = -2147483648 := by decide
    rw [heq, hnull] at hvalue
    omega
  have htext : W.fieldText column (.int32 (UInt32.ofInt (d.number + 3653))) = ascii d.text := by
    simp only [TsvWorld.fieldText, hcolumn, hvalue,
      fromDateCAS_eq hrange (elapsed_1960_iff.mpr rfl), Option.map_some, Option.getD_some]
  rw [hfield, readBack, Field.isNull, beq_false_of_ne hsentinel]
  refine carries_token rfl ?_ ?_
  · rw [htext]
    refine plainToken_chars (fun hnil => ?_) (dateText_chars d)
    have hlength := length_dateText d hrange
    rw [hnil] at hlength
    cases hlength
  · have hfirst := hrange.first
    exact ⟨d.text, htext, readDate_text d (by omega)⟩

/-- A timestamp that is accepted is not in the second before 1970, and prints as
the same timestamp. -/
theorem carries_timestamp {value : List UInt8} {length : UInt64} {t : Timestamp} {x : UInt64}
    (hcolumn : column.type = .dateTime) (ht : (MysqlTime.ofBytes value).Denotes t)
    (hrange : InYears t.date) (hok : toDateTimeCAS value = .ok x) :
    W.Carries column (readBack (fieldValue column ⟨some value, length⟩)) (.timestamp t) := by
  have hmicro := t.micro_lt
  have hbounds := seconds_bounds hrange
  have hvalue := microsSince1960_of_ok ht hrange hok
  have hfield : fieldValue column ⟨some value, length⟩ = .int64 x := by
    simp only [fieldValue, hcolumn, hok]
    rfl
  have hsentinel : x ≠ int64Null := by
    intro heq
    have hnull : toInt64 int64Null = -9223372036854775808 := by decide
    rw [heq, hnull] at hvalue
    omega
  have htext : W.fieldText column (.int64 x) = ascii t.text := by
    simp only [TsvWorld.fieldText, hcolumn, fromDateTimeCAS_eq hrange
      (microsSince1960_iff.mpr hvalue), Option.map_some, Option.getD_some]
  rw [hfield, readBack, Field.isNull, beq_false_of_ne hsentinel]
  refine carries_token rfl ?_ ?_
  · rw [htext]
    refine plainToken_chars (fun hnil => ?_) (timestampText_chars t)
    have hmoment : t.toMoment.text = [] := (List.append_eq_nil_iff.mp hnil).1
    have hlength := length_momentText t.toMoment hrange
    rw [hmoment] at hlength
    cases hlength
  · have hfirst := hrange.first
    exact ⟨t.text, htext, readTimestamp_text t (by omega)⟩

theorem carries_time {value : List UInt8} {length : UInt64} {t : TimeValue} (hcolumn : column.type = .time)
    (ht : (MysqlTime.ofBytes value).DenotesTime t) (hlow : -maxTime ≤ t.micros)
    (hhigh : t.micros ≤ maxTime) :
    W.Carries column (readBack (fieldValue column ⟨some value, length⟩)) (.time t.micros) := by
  have hprint := fromTimeCAS_eq hlow hhigh
  unfold maxTime at hlow hhigh
  have hlt : (t.hours * 60 + t.minutes) * 60 + t.seconds < 2 ^ 32 := by
    have habs : t.absMicros ≤ 3020399999999 := by
      unfold TimeValue.micros at hlow hhigh
      cases hneg : t.neg with
      | true =>
        rw [hneg, if_pos rfl] at hlow
        omega
      | false =>
        rw [hneg, if_neg Bool.false_ne_true] at hhigh
        omega
    unfold TimeValue.absMicros at habs
    omega
  have hvalue : toInt64 (UInt64.ofInt t.micros) = t.micros := toInt64_ofInt (by omega) (by omega)
  have hfield : fieldValue column ⟨some value, length⟩ = .int64 (UInt64.ofInt t.micros) := by
    simp only [fieldValue, hcolumn, toTimeCAS_eq ht hlt]
  have hsentinel : UInt64.ofInt t.micros ≠ int64Null := by
    intro heq
    have hnull : toInt64 int64Null = -9223372036854775808 := by decide
    rw [heq, hnull] at hvalue
    omega
  have htext : W.fieldText column (.int64 (UInt64.ofInt t.micros)) =
      ascii (fromTimeCAS t.micros) := by
    simp only [TsvWorld.fieldText, hcolumn, hvalue]
  rw [hfield, readBack, Field.isNull, beq_false_of_ne hsentinel]
  refine carries_token rfl (htext ▸ plainToken_fromTimeCAS _) ?_
  refine ⟨fromTimeCAS t.micros, timeValue t.micros, htext, ?_, micros_timeValue t.micros⟩
  rw [hprint]
  exact readTime_text (timeValue t.micros) (Nat.mod_lt _ (by decide))

theorem readBack_some {value : List UInt8} (hvalue : cell.value = some value) :
    cellReadBack column cell = readBack (fieldValue column cell) := by
  rw [cellReadBack, hvalue]
  rfl

/-- **What becomes of a value.** -/
theorem Shows.carries (h : Shows column cell v)
    (hdateTime : column.type = .dateTime → ∀ value, cell.value = some value →
      ∃ x, toDateTimeCAS value = .ok x)
    (hdoubles : ∀ bits, isNan bits = false → PlainToken (W.sprintfE bits)) :
    W.Carries column (cellReadBack column cell) (arrives column v) := by
  obtain ⟨value, length⟩ := cell
  cases value with
  | none =>
    cases v with
    | null =>
      have harrives : arrives column .null = .null := by
        unfold arrives
        cases column.type <;> rfl
      rw [harrives]
      exact carries_null (fieldValue column ⟨none, length⟩)
    | _ => exact h.elim
  | some value =>
    rw [readBack_some rfl]
    cases v with
    | null => exact h.elim
    | integer n =>
      rcases h with ⟨hcolumn, hn⟩ | ⟨hcolumn, hn⟩
      · have hfield : fieldValue column ⟨some value, length⟩ =
            .int64 (UInt64.ofNat (ofLE (bytesAt value 8))) := by simp only [fieldValue, hcolumn]
        rw [hfield, hn]
        exact carries_int64 hcolumn
      · have hfield : fieldValue column ⟨some value, length⟩ =
            .int32 (UInt32.ofNat (ofLE (bytesAt value 4))) := by simp only [fieldValue, hcolumn]
        rw [hfield, hn]
        exact carries_int32 hcolumn
    | double bits =>
      obtain ⟨hcolumn, rfl⟩ := h
      have hfield : fieldValue column ⟨some value, length⟩ =
          .double (UInt64.ofNat (ofLE (bytesAt value 8))) := by simp only [fieldValue, hcolumn]
      rw [hfield]
      exact carries_double hcolumn (hdoubles _)
    | text bytes =>
      obtain ⟨hcolumn | hcolumn, rfl⟩ := h
      · have hfield : fieldValue column ⟨some value, length⟩ =
            .fixed (paddedText column (bytesAt value length.toNat)) := by
          simp only [fieldValue, hcolumn, paddedText, length_bytesAt]
        rw [hfield, readBack]
        simp only [arrives, hcolumn]
        cases hnull : (Field.fixed (paddedText column (bytesAt value length.toNat))).isNull with
        | true => exact carries_null _
        | false => exact carries_text (Or.inl rfl)
      · have hfield : fieldValue column ⟨some value, length⟩ =
            .variable (bytesAt value length.toNat) := by simp only [fieldValue, hcolumn]
        rw [hfield, readBack, Field.isNull]
        simp only [arrives, hcolumn]
        cases hnull : (bytesAt value length.toNat).isEmpty with
        | true => exact carries_null _
        | false => exact carries_text (Or.inr rfl)
    | date d =>
      obtain ⟨hcolumn, hd, hrange⟩ := h
      have harrives : arrives column (.date d) = .date d := by simp only [arrives, hcolumn]
      rw [harrives]
      exact carries_date hcolumn hd hrange
    | timestamp t =>
      obtain ⟨hcolumn, ht, hrange⟩ := h
      have harrives : arrives column (.timestamp t) = .timestamp t := by
        simp only [arrives, hcolumn]
      obtain ⟨x, hx⟩ := hdateTime hcolumn value rfl
      rw [harrives]
      exact carries_timestamp hcolumn ht hrange hx
    | time micros =>
      obtain ⟨hcolumn, hlow, hhigh, t, ht, rfl⟩ := h
      have harrives : arrives column (.time t.micros) = .time t.micros := by
        simp only [arrives, hcolumn]
      rw [harrives]
      exact carries_time hcolumn ht hlow hhigh

end Values

/-! ## Rows -/

/-- The cells of a row show these values. -/
inductive ShowsRow : List Column → List Cell → List TableValue → Prop where
  | nil : ShowsRow [] [] []
  | cons {column : Column} {cell : Cell} {v : TableValue} {columns : List Column}
      {cells : List Cell} {vs : List TableValue} (head : Shows column cell v)
      (tail : ShowsRow columns cells vs) : ShowsRow (column :: columns) (cell :: cells) (v :: vs)

section Rows

variable {W : TsvWorld} {columns : List Column} {cells : List Cell} {vs : List TableValue}
  {schema : RowSchema} {size : UInt64} {rows : List (List Cell)} {w w' : SuperChunkWriter}

theorem writeColumns_dateTime (h : SuperChunkWriter.writeColumns columns cells w = .ok w') :
    ∀ read ∈ columns.zip cells, read.1.type = .dateTime → ∀ value, read.2.value = some value →
      ∃ x, toDateTimeCAS value = .ok x := by
  induction columns generalizing cells w with
  | nil => exact fun _ hmem => nomatch hmem
  | cons column columns ih =>
    cases cells with
    | nil => exact fun _ hmem => nomatch hmem
    | cons cell cells =>
      rw [SuperChunkWriter.writeColumns, List.headD_cons, List.tail_cons] at h
      split at h
      · rename_i w₁ hcolumn
        refine List.forall_mem_cons.mpr ⟨?_, ih h⟩
        intro (htype : column.type = .dateTime) value (hvalue : cell.value = some value)
        simp only [SuperChunkWriter.writeColumn, htype, hvalue] at hcolumn
        obtain ⟨x, hx, -⟩ := SuperChunkWriter.writeConverted_ok hcolumn
        exact ⟨x, hx⟩
      · cases h

theorem writeRow_columns (h : w.writeRow cells = .ok (true, w')) :
    ∃ w₁, SuperChunkWriter.writeColumns w.rowSchema.columnInfo cells w = .ok w₁ := by
  unfold SuperChunkWriter.writeRow at h
  dsimp only at h
  split at h
  · split at h
    · cases h
    · cases h
  · split at h
    · exact ⟨_, ‹_›⟩
    · cases h

theorem writeRows_dateTime {before : List (List Cell)} (h : RowsWritten schema size before w)
    (hrows : ∀ row ∈ rows, RowFits schema.columnInfo row) (hok : writeRows rows w = some w') :
    ∀ row ∈ rows, ∀ read ∈ schema.columnInfo.zip row, read.1.type = .dateTime →
      ∀ value, read.2.value = some value → ∃ x, toDateTimeCAS value = .ok x := by
  induction rows generalizing before w with
  | nil => exact fun _ hmem => nomatch hmem
  | cons row rows ih =>
    obtain ⟨hfits, hrest⟩ := List.forall_mem_cons.mp hrows
    rw [writeRows] at hok
    split at hok
    · rename_i w₁ hrow
      obtain ⟨w₂, hcolumns⟩ := writeRow_columns hrow
      rw [h.rowSchema] at hcolumns
      exact List.forall_mem_cons.mpr
        ⟨writeColumns_dateTime hcolumns, ih (writeRow_written h hfits hrow) hrest hok⟩
    · cases hok

/-- A reader that is reset on a chunk of accepted rows reads all of them. -/
theorem RowsWritten.readRows (h : RowsWritten schema size rows w)
    (hsupported : ∀ column ∈ schema.columnInfo, column.type ≠ .unsupported)
    (hrows : ∀ row ∈ rows, RowFits schema.columnInfo row) (error : String) :
    ∃ r, (SuperChunkReader.reset w.currentChunk.chunk error).readRows schema.columnInfo rows.length =
      some (rows.map (rowReadBack schema.columnInfo), r) := by
  obtain ⟨hfields, hoffset, hfits⟩ := h.layout
  rw [List.flatMap_def] at hfields hoffset
  rw [h.size] at hfits hfields
  have hholds : ∀ row ∈ rows.map (rowFields schema.columnInfo),
      List.Forall₂ Column.Holds schema.columnInfo row := by
    intro row hrow
    obtain ⟨cells, hcells, rfl⟩ := List.mem_map.mp hrow
    exact holds_rowFields (hrows cells hcells).cells hsupported
  have hstart : ReaderAt (SuperChunkReader.reset w.currentChunk.chunk error)
      w.currentChunk.chunk.ptr size 0 := ⟨rfl, h.size, rfl⟩
  obtain ⟨r, hr⟩ := readRows_fieldsAt (Nat.le_of_eq (List.length_map _).symm) hholds hstart hfields
    (by omega) (by omega)
  refine ⟨r, hr.trans ?_⟩
  rw [List.take_of_length_le (Nat.le_of_eq (List.length_map _)), List.map_map]
  simp only [Function.comp_def, rowReadBack_eq]

/-- `ChunkToTSV` prints a row that can be read. -/
theorem tsvColumns_of_readRow {r r' : SuperChunkReader} {row : List (Field × Bool)}
    (hsupported : ∀ column ∈ columns, column.type ≠ .unsupported)
    (h : r.readRow columns = some (row, r')) (first : Bool) :
    ∃ text, W.tsvColumns columns first r = .ok (text, r') := by
  induction columns generalizing r row first with
  | nil =>
    obtain ⟨-, rfl⟩ := Prod.mk.inj (Option.some.inj h)
    exact ⟨[], rfl⟩
  | cons column columns ih =>
    obtain ⟨htype, hrest⟩ := List.forall_mem_cons.mp hsupported
    rw [SuperChunkReader.readRow] at h
    split at h
    · cases h
    · rename_i out isnull hout
      split at h
      · cases h
      · rename_i fields r₁ hread
        obtain ⟨-, rfl⟩ := Prod.mk.inj (Option.some.inj h)
        obtain ⟨text, htext⟩ := ih hrest hread false
        have hfield : ∃ first, W.tsvField column r = .ok (first, (r.readColumn column).reader) := by
          rw [TsvWorld.tsvField, if_neg htype, hout]
          exact ⟨_, rfl⟩
        obtain ⟨fieldText, hfield⟩ := hfield
        rw [TsvWorld.tsvColumns, hfield]
        dsimp only
        rw [htext]
        exact ⟨_, rfl⟩

theorem tsvRows_of_readRows {r r' : SuperChunkReader} {read : List (List (Field × Bool))} {n : Nat}
    (hsupported : ∀ column ∈ columns, column.type ≠ .unsupported)
    (h : r.readRows columns n = some (read, r')) (first : Bool) :
    ∃ text, W.tsvRows columns n first r = .ok (text, r') := by
  induction n generalizing r read first with
  | zero =>
    obtain ⟨-, rfl⟩ := Prod.mk.inj (Option.some.inj h)
    exact ⟨[], rfl⟩
  | succ n ih =>
    rw [SuperChunkReader.readRows] at h
    split at h
    · cases h
    · rename_i row r₁ hrow
      split at h
      · cases h
      · rename_i rows r₂ hrows
        obtain ⟨-, rfl⟩ := Prod.mk.inj (Option.some.inj h)
        obtain ⟨rowText, hrowText⟩ := tsvColumns_of_readRow (W := W) hsupported hrow true
        obtain ⟨text, htext⟩ := ih hrows false
        rw [TsvWorld.tsvRows, hrowText]
        dsimp only
        rw [htext]
        exact ⟨_, rfl⟩

/-- **What becomes of a row.** -/
theorem ShowsRow.carries (h : ShowsRow columns cells vs)
    (hdateTime : ∀ read ∈ columns.zip cells, read.1.type = .dateTime →
      ∀ value, read.2.value = some value → ∃ x, toDateTimeCAS value = .ok x)
    (hdoubles : ∀ bits, isNan bits = false → PlainToken (W.sprintfE bits)) :
    (∀ read ∈ columns.zip (rowReadBack columns cells), W.PrintsToken read) ∧
      List.Forall₂ W.Stores ((columns.zip (rowReadBack columns cells)).map W.decodedValue)
        (List.zipWith arrives columns vs) := by
  induction h with
  | nil => exact ⟨(fun _ hmem => nomatch hmem), .nil⟩
  | @cons column cell v columns cells vs hhead _ ih =>
    obtain ⟨hfirst, hrest⟩ := List.forall_mem_cons.mp hdateTime
    obtain ⟨hprints, hstores⟩ := hhead.carries hfirst hdoubles
    obtain ⟨hprintsRest, hstoresRest⟩ := ih hrest
    exact ⟨List.forall_mem_cons.mpr ⟨hprints, hprintsRest⟩, .cons hstores hstoresRest⟩

theorem decode_printed {read : List (List (Field × Bool))} (hcolumns : columns ≠ [])
    (hwidth : ∀ row ∈ read, row.length = columns.length)
    (hprints : ∀ row ∈ read, ∀ field ∈ columns.zip row, W.PrintsToken field) :
    loadDataGrammar.decode (loadDataGrammar.joinLines
        (read.map fun row => loadDataGrammar.joinFields (List.zipWith W.readText columns row))) =
      some (read.map fun row => (columns.zip row).map W.decodedValue) := by
  have hmap : read.map (fun row => loadDataGrammar.joinFields (List.zipWith W.readText columns row)) =
      (read.map (List.zipWith W.readText columns)).map loadDataGrammar.joinFields := by
    rw [List.map_map]
    rfl
  rw [hmap]
  apply Grammar.decode_joinLines
  · intro texts htexts hnil
    obtain ⟨row, hrow, rfl⟩ := List.mem_map.mp htexts
    have hzero := congrArg List.length hnil
    rw [List.length_zipWith, hwidth row hrow, Nat.min_self] at hzero
    exact hcolumns (List.length_eq_zero_iff.mp hzero)
  · rw [List.forall₂_map_left_iff, List.forall₂_map_right_iff]
    exact List.forall₂_same.mpr fun row hrow => encodes_row (hprints row hrow)

end Rows

theorem tsv_streams_text (text : List UInt8) {requests : Nat → UInt32}
    (hrequests : ∀ i, InfileRequest (requests i)) {k : Nat} (hk : text.length ≤ k) :
    streamed (tsvPiece text requests) k = text := by
  have hleft : (StringStream.ofContent text).Left text :=
    ⟨rfl, ⟨rfl, rfl⟩, fun heof => nomatch heof⟩
  have hpiece : ∀ i, tsvPiece text requests i =
      replyWith (Pieces.piece (fun i => (requests i).toNat) text i) :=
    tsv_serves.answer_eq hrequests hleft
  rw [streamed_eq_taken hpiece]
  exact Pieces.taken_eq_iff.mpr (Pieces.rest_eq_nil (fun i => (hrequests i).1) hk)

/-- `WriteChunk` sends these values to the server: the chunk is printed, and
whatever lengths the server asks for, after finitely many calls it has read rows
of the values that `arrives` says, with the grammar of the statement. -/
def LoadsAs (W : TsvWorld) (schema : RowSchema) (chunk : Chunk) (values : List (List TableValue)) :
    Prop :=
  ∀ error, ∃ text r, W.chunkToTSV schema (toInt64 chunk.rowCount) (.reset chunk error) =
      .ok (text, r) ∧
    ∀ jsonDumps tableName, ∃ query G,
      makeLoadDataQuery jsonDumps tableName schema .tsv true = .ok query ∧
      LoadsInto query tableName schema G ∧
      ∀ requests : Nat → UInt32, (∀ i, InfileRequest (requests i)) → ∃ n, ∀ k, n ≤ k → ∃ lines,
        G.decode (streamed (tsvPiece text requests) k) = some lines ∧
        List.Forall₂ (List.Forall₂ W.Stores) lines
          (values.map (List.zipWith arrives schema.columnInfo))

section Copies

variable {W : TsvWorld} {schema : RowSchema} {ptr : Mem} {size id : UInt64} {partition : UInt32}
  {rows : List (List Cell)} {values : List (List TableValue)} {w : SuperChunkWriter}

/-- A chunk of accepted rows is loaded as the values that the rows show. -/
theorem loadsAs_written (hcolumns : schema.columnInfo ≠ [])
    (hsupported : ∀ column ∈ schema.columnInfo, column.type ≠ .unsupported)
    (hrows : ∀ row ∈ rows, RowFits schema.columnInfo row) (hcount : rows.length < 2 ^ 63)
    (hshown : List.Forall₂ (ShowsRow schema.columnInfo) rows values)
    (hwritten : writeRows rows
      (SuperChunkWriter.reset (newChunk ptr size id partition) schema) = some w)
    (hdoubles : ∀ bits, isNan bits = false → PlainToken (W.sprintfE bits)) :
    LoadsAs W schema w.currentChunk.chunk values := by
  intro error
  have hreset := RowsWritten.reset schema ptr size id partition
  have hall := writeRows_written hreset hrows hwritten
  rw [List.nil_append] at hall
  have hrowCount : (toInt64 w.currentChunk.chunk.rowCount).toNat = rows.length := by
    rw [hall.rowCount, ← ofInt_natCast, toInt64_ofInt (by omega) (by omega), Int.toNat_natCast]
  obtain ⟨r, hread⟩ := hall.readRows hsupported hrows error
  obtain ⟨text, htext⟩ := tsvRows_of_readRows (W := W) hsupported hread true
  -- the printed rows are those that were read
  obtain ⟨read, hread', -, hwidth, hprinted⟩ := tsvRows_spec htext
  obtain rfl : rows.map (rowReadBack schema.columnInfo) = read :=
    (Prod.mk.inj (Option.some.inj (hread.symm.trans hread'))).1
  rw [if_pos (Or.inl rfl), List.nil_append] at hprinted
  -- the dates of a row do not depend on what its cells show
  have hcarries := ((List.forall₂_and_left rows values).mpr
    ⟨writeRows_dateTime hreset hrows hwritten, hshown⟩).imp
      fun _ _ ⟨hdates, hshows⟩ => hshows.carries hdates hdoubles
  obtain ⟨hprints, hstores⟩ := (List.forall₂_and_left rows values).mp hcarries
  have hdecode := decode_printed hcolumns hwidth (List.forall_mem_map.mpr hprints)
  refine ⟨text, r, ?_, fun jsonDumps tableName => ?_⟩
  · rw [TsvWorld.chunkToTSV, hrowCount]
    exact htext
  · obtain ⟨query, hquery, hinto⟩ := loadsInto_tsv jsonDumps tableName hcolumns true
    refine ⟨query, loadDataGrammar, hquery, hinto, fun requests hrequests => ?_⟩
    refine ⟨text.length, fun k hk => ?_⟩
    rw [tsv_streams_text text hrequests hk, hprinted]
    refine ⟨_, hdecode, ?_⟩
    rw [List.map_map, List.forall₂_map_left_iff, List.forall₂_map_right_iff]
    exact hstores

end Copies

end SasLibclient
