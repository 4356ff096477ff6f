import SasLibclient.Hdat.RowsWritten

/-!
# Rows of a result set (`s2_connection.cpp`, `utils.cpp`)

The client library gives every field in two forms: in the bytes of a bound
buffer, which `AdvanceBinary` keeps, and as text, which `AdvanceText` converts
with `sscanf`. `FieldsToRowSchema` makes the schema of a query from its fields.
-/

namespace SasLibclient

/-- `fields[i].type`; types that no `switch` names are `other`. -/
inductive FieldType where
  | string
  | varString
  | longBlob
  | mediumBlob
  | blob
  | tinyBlob
  | long
  | longLong
  | double
  | datetime
  | date
  | time
  | newdate
  | datetime2
  | other
  deriving DecidableEq, Repr

/-- `MYSQL_FIELD` -/
structure MysqlField where
  name : String
  type : FieldType
  length : UInt64
  deriving DecidableEq, Repr

/-- A field that is not `NULL`: the bytes of the bound buffer and those of
`row[i]`. -/
structure FieldData where
  native : List UInt8
  text : List UInt8
  deriving DecidableEq, Repr

/-- The formats `%d`, `%lld` and `%lf`. -/
inductive ScanFormat where
  | d
  | lld
  | lf
  deriving DecidableEq, Repr

/-- A field as `AdvanceBinary` leaves it. -/
def binaryCell : Option FieldData → Cell
  | none => ⟨none, 0⟩
  | some data => ⟨some data.native, UInt64.ofNat data.native.length⟩

/-- A field as `AdvanceText` leaves it: the bytes that `sscanf` stored, and for
dates nothing but the length that was in the array before. -/
def textCell (sscanf : ScanFormat → List UInt8 → List UInt8) (uninitialized : UInt64)
    (type : FieldType) : Option FieldData → Cell
  | none => ⟨none, 0⟩
  | some data =>
    match type with
    | .string | .varString | .longBlob | .mediumBlob | .blob | .tinyBlob =>
      ⟨some data.text, UInt64.ofNat data.text.length⟩
    | .long => ⟨some (sscanf .d data.text), 4⟩
    | .longLong => ⟨some (sscanf .lld data.text), 8⟩
    | .double => ⟨some (sscanf .lf data.text), 8⟩
    | .datetime | .date | .time | .newdate | .datetime2 => ⟨none, uninitialized⟩
    | .other => ⟨none, uninitialized⟩

/-- One turn of the loop of `FieldsToRowSchema`, without original names. -/
def fieldToColumn (field : MysqlField) : Column :=
  match field.type with
  | .long => ⟨.int32, 4, field.name⟩
  | .longLong => ⟨.int64, 8, field.name⟩
  | .double => ⟨.double, 8, field.name⟩
  | .string => ⟨.fixed, field.length.toInt64.toInt, field.name⟩
  | .varString | .longBlob | .mediumBlob | .blob | .tinyBlob => ⟨.variable, 0, field.name⟩
  | .datetime => ⟨.dateTime, 8, field.name⟩
  | .date => ⟨.date, 4, field.name⟩
  | .time => ⟨.time, 8, field.name⟩
  | _ => ⟨.unsupported, 0, field.name⟩

/-- `FieldsToRowSchema` -/
def fieldsToRowSchema (fields : List MysqlField) (h : fields.length < 2 ^ 32) : RowSchema where
  columnInfo := fields.map fieldToColumn
  numColumns_lt := by
    rw [List.length_map]
    exact h

/-! ## Both forms of a field -/

def FieldData.Agrees (sscanf : ScanFormat → List UInt8 → List UInt8) (type : FieldType)
    (data : FieldData) : Prop :=
  match type with
  | .long => sscanf .d data.text = data.native ∧ data.native.length = 4
  | .longLong => sscanf .lld data.text = data.native ∧ data.native.length = 8
  | .double => sscanf .lf data.text = data.native ∧ data.native.length = 8
  | .datetime | .date | .time | .newdate | .datetime2 | .other => True
  | _ => data.text = data.native

/-- The supported types other than `DATE` and `DATETIME`. -/
def FieldType.isNonDate : FieldType → Bool
  | .datetime | .date | .newdate | .datetime2 | .other => false
  | _ => true

section TextCell

variable {sscanf : ScanFormat → List UInt8 → List UInt8} (uninitialized : UInt64)
  {field : MysqlField} {data : Option FieldData}

/-- `AdvanceText` leaves what `AdvanceBinary` does, but it loses a `TIME`. -/
theorem textCell_cases (htype : field.type.isNonDate = true)
    (hagrees : ∀ d, data = some d → d.Agrees sscanf field.type) :
    textCell sscanf uninitialized field.type data = binaryCell data ∨
      ((fieldToColumn field).type = .time ∧
        textCell sscanf uninitialized field.type data = ⟨none, uninitialized⟩) := by
  cases data with
  | none => exact Or.inl rfl
  | some d =>
    have hd := hagrees d rfl
    cases hfield : field.type with
    | long | longLong | double =>
      left
      rw [hfield] at hd
      obtain ⟨hscan, hlength⟩ := hd
      simp only [textCell, binaryCell, hscan, hlength]
      rfl
    | string | varString | longBlob | mediumBlob | blob | tinyBlob =>
      left
      rw [hfield] at hd
      have htext : d.text = d.native := hd
      simp only [textCell, binaryCell, htext]
    | time =>
      right
      exact ⟨by rw [fieldToColumn, hfield], rfl⟩
    | datetime | date | newdate | datetime2 | other =>
      rw [hfield] at htype
      cases htype

theorem columnNeed_textCell (htype : field.type.isNonDate = true)
    (hagrees : ∀ d, data = some d → d.Agrees sscanf field.type) :
    columnNeed (fieldToColumn field) (textCell sscanf uninitialized field.type data) =
      columnNeed (fieldToColumn field) (binaryCell data) ∧
    payloadLength (fieldToColumn field) (textCell sscanf uninitialized field.type data) =
      payloadLength (fieldToColumn field) (binaryCell data) := by
  rcases textCell_cases uninitialized htype hagrees with hsame | ⟨htime, -⟩
  · rw [hsame]
    exact ⟨rfl, rfl⟩
  · simp [columnNeed, payloadLength, htime]

theorem CellFits.textCell (htype : field.type.isNonDate = true)
    (hagrees : ∀ d, data = some d → d.Agrees sscanf field.type)
    (hfits : CellFits (fieldToColumn field) (binaryCell data)) :
    CellFits (fieldToColumn field) (textCell sscanf uninitialized field.type data) := by
  rcases textCell_cases uninitialized htype hagrees with hsame | ⟨htime, hlost⟩
  · rw [hsame]
    exact hfits
  · rw [hlost]
    refine ⟨hfits.size, ?_⟩
    intro _ hvalue
    exact absurd rfl hvalue

end TextCell

/-- A column of these types is supported, and `WriteRow` converts no date. -/
theorem fieldToColumn_of_isNonDate {field : MysqlField} (h : field.type.isNonDate = true) :
    (fieldToColumn field).type ≠ .unsupported ∧ (fieldToColumn field).type ≠ .date ∧
      (fieldToColumn field).type ≠ .dateTime := by
  unfold fieldToColumn
  cases htype : field.type with
  | datetime | date | newdate | datetime2 | other =>
    rw [htype] at h
    cases h
  | _ => simp

/-! ## Rows -/

/-- A row of the result set as `AdvanceBinary` leaves it in
`m_last_fetched_row` and `m_last_fetched_lengths`. -/
def binaryRow (row : List (Option FieldData)) : List Cell := row.map binaryCell

def textRow (sscanf : ScanFormat → List UInt8 → List UInt8) (uninitialized : UInt64)
    (fields : List MysqlField) (row : List (Option FieldData)) : List Cell :=
  List.zipWith (fun field => textCell sscanf uninitialized field.type) fields row

/-- The row has a field for each of `fields`, and its two forms present the same
values. -/
def RowAgrees (sscanf : ScanFormat → List UInt8 → List UInt8) (fields : List MysqlField)
    (row : List (Option FieldData)) : Prop :=
  List.Forall₂ (fun field data => ∀ d, data = some d → d.Agrees sscanf field.type) fields row

theorem RowAgrees.textRow_fits {sscanf : ScanFormat → List UInt8 → List UInt8}
    (uninitialized : UInt64) {fields : List MysqlField} {row : List (Option FieldData)}
    (h : RowAgrees sscanf fields row) (htypes : ∀ field ∈ fields, field.type.isNonDate = true)
    (hfits : RowFits (fields.map fieldToColumn) (binaryRow row)) :
    RowFits (fields.map fieldToColumn) (textRow sscanf uninitialized fields row) ∧
      rowNeed (fields.map fieldToColumn) (textRow sscanf uninitialized fields row) =
        rowNeed (fields.map fieldToColumn) (binaryRow row) := by
  obtain ⟨hcells, hpayload⟩ := hfits
  suffices hsame : List.Forall₂ CellFits (fields.map fieldToColumn)
      (textRow sscanf uninitialized fields row) ∧
      rowNeed (fields.map fieldToColumn) (textRow sscanf uninitialized fields row) =
        rowNeed (fields.map fieldToColumn) (binaryRow row) ∧
      rowPayload (fields.map fieldToColumn) (textRow sscanf uninitialized fields row) =
        rowPayload (fields.map fieldToColumn) (binaryRow row) by
    obtain ⟨htext, hneed, hpayload'⟩ := hsame
    exact ⟨⟨htext, by rw [hpayload']; exact hpayload⟩, hneed⟩
  clear hpayload
  induction h with
  | nil => exact ⟨List.Forall₂.nil, rfl, rfl⟩
  | @cons field data fields row hagrees _ ih =>
    obtain ⟨htype, htypes⟩ := List.forall_mem_cons.mp htypes
    simp only [binaryRow, List.map_cons, List.forall₂_cons] at hcells
    obtain ⟨hcell, hrest⟩ := hcells
    obtain ⟨htext, hneed, hpayload⟩ := ih htypes hrest
    obtain ⟨hneed₁, hpayload₁⟩ := columnNeed_textCell uninitialized htype hagrees
    simp only [textRow, binaryRow, rowNeed, rowPayload] at htext hneed hpayload
    simp only [textRow, binaryRow, rowNeed, rowPayload, List.map_cons, List.zipWith_cons_cons,
      List.sum_cons]
    refine ⟨List.Forall₂.cons (hcell.textCell uninitialized htype hagrees) htext, ?_, ?_⟩
    · rw [hneed₁, hneed]
    · rw [hpayload₁, hpayload]

end SasLibclient
