import SasLibclient.ResultSet
import SasLibclient.Text.Decimal

/-!
# The two ways to fetch a row (`s2_connection.cpp`)

The server sends a value as text or in its binary form, and `AdvanceText` and
`AdvanceBinary` leave it in `m_last_fetched_row`. They leave the same, except
that `AdvanceText` drops the dates and times.
-/

namespace SasLibclient

open Bytes

/-- A value that is not `NULL`, of a column of the result. -/
inductive SqlValue where
  | integer (i : Int)
  | double (bits : UInt64)
  | bytes (value : List UInt8)
  | temporal (time : MysqlTime)
  deriving DecidableEq, Repr

def ascii (text : List Char) : List UInt8 := text.map fun c => UInt8.ofNat c.toNat

/-- An `int` of `n` bytes. -/
def intBytes (n : Nat) (i : Int) : List UInt8 := toLE n (i % 256 ^ n).toNat

/-- The range of an `int` of `n` bytes. -/
def InIntRange (n : Nat) (i : Int) : Prop := -(256 ^ n) ≤ 2 * i ∧ 2 * i < 256 ^ n

instance (n : Nat) (i : Int) : Decidable (InIntRange n i) :=
  inferInstanceAs (Decidable (_ ∧ _))

/-- The client library presents the value of a column of this type in both
forms. `renders` are the texts that the server sends for a double. -/
def FieldData.Presents (renders : UInt64 → List UInt8 → Prop) (data : FieldData) :
    FieldType → SqlValue → Prop
  | .long, .integer i =>
    InIntRange 4 i ∧ data.text = ascii i.repr.toList ∧ data.native = intBytes 4 i
  | .longLong, .integer i =>
    InIntRange 8 i ∧ data.text = ascii i.repr.toList ∧ data.native = intBytes 8 i
  | .double, .double bits => renders bits data.text ∧ data.native = toLE 8 bits.toNat
  | .string, .bytes value | .varString, .bytes value | .longBlob, .bytes value
  | .mediumBlob, .bytes value | .blob, .bytes value | .tinyBlob, .bytes value =>
    data.text = value ∧ data.native = value
  | .datetime, .temporal time | .date, .temporal time | .time, .temporal time
  | .newdate, .temporal time | .datetime2, .temporal time => MysqlTime.ofBytes data.native = time
  | _, _ => False

/-- A column of the result in one row; `none` is `NULL`. -/
structure ColumnValue where
  field : MysqlField
  value : Option SqlValue

/-- What the client library gives for the column. -/
def ColumnValue.Presented (renders : UInt64 → List UInt8 → Prop) (column : ColumnValue)
    (data : Option FieldData) : Prop :=
  match column.value, data with
  | none, none => True
  | some value, some data => data.Presents renders column.field.type value
  | _, _ => False

/-- What `sscanf` does with the texts that the server sends. -/
structure Scans (renders : UInt64 → List UInt8 → Prop)
    (sscanf : ScanFormat → List UInt8 → List UInt8) : Prop where
  d : ∀ i, InIntRange 4 i → sscanf .d (ascii i.repr.toList) = intBytes 4 i
  lld : ∀ i, InIntRange 8 i → sscanf .lld (ascii i.repr.toList) = intBytes 8 i
  lf : ∀ bits text, renders bits text → sscanf .lf text = toLE 8 bits.toNat

def FieldType.isTemporal : FieldType → Bool
  | .datetime | .date | .time | .newdate | .datetime2 => true
  | _ => false

/-- Both cells are `NULL`, or they have the same bytes. -/
structure Cell.Equivalent (a b : Cell) : Prop where
  null : a.value = none ↔ b.value = none
  value : a.value = b.value
  length : a.length = b.length

/-- The rows are equivalent column by column, and `WriteRow` does the same with
both. -/
def EquivalentRows (a b : List Cell) : Prop :=
  List.Forall₂ Cell.Equivalent a b ∧ ∀ w : SuperChunkWriter, w.writeRow a = w.writeRow b

section Cells

variable {renders : UInt64 → List UInt8 → Prop} {sscanf : ScanFormat → List UInt8 → List UInt8}
  {column : ColumnValue} {data : Option FieldData}

/-- A column that is no date or time, or `NULL`. -/
theorem textCell_eq_binaryCell (hscans : Scans renders sscanf) (uninitialized : UInt64)
    (hdata : column.Presented renders data)
    (hkept : column.field.type.isTemporal = true → column.value = none) :
    textCell sscanf uninitialized column.field.type data = binaryCell data := by
  unfold ColumnValue.Presented at hdata
  split at hdata
  · rfl
  · rename_i value data hvalue
    have hnot : ¬ column.field.type.isTemporal = true := by
      intro htemporal
      rw [hkept htemporal] at hvalue
      cases hvalue
    cases htype : column.field.type with
    | long =>
      rw [htype] at hdata
      cases value with
      | integer i =>
        obtain ⟨hrange, htext, hnative⟩ := hdata
        simp only [textCell, binaryCell, htext, hscans.d i hrange, hnative, intBytes, length_toLE]
        rfl
      | double bits => cases hdata
      | bytes value => cases hdata
      | temporal time => cases hdata
    | longLong =>
      rw [htype] at hdata
      cases value with
      | integer i =>
        obtain ⟨hrange, htext, hnative⟩ := hdata
        simp only [textCell, binaryCell, htext, hscans.lld i hrange, hnative, intBytes, length_toLE]
        rfl
      | double bits => cases hdata
      | bytes value => cases hdata
      | temporal time => cases hdata
    | double =>
      rw [htype] at hdata
      cases value with
      | double bits =>
        obtain ⟨hrenders, hnative⟩ := hdata
        simp only [textCell, binaryCell, hscans.lf bits _ hrenders, hnative, length_toLE]
        rfl
      | integer i => cases hdata
      | bytes value => cases hdata
      | temporal time => cases hdata
    | string | varString | longBlob | mediumBlob | blob | tinyBlob =>
      rw [htype] at hdata
      cases value with
      | bytes value =>
        obtain ⟨htext, hnative⟩ := hdata
        simp only [textCell, binaryCell, htext, hnative]
      | integer i => cases hdata
      | double bits => cases hdata
      | temporal time => cases hdata
    | datetime | date | time | newdate | datetime2 =>
      rw [htype] at hnot
      exact absurd rfl hnot
    | other =>
      rw [htype] at hdata
      cases value <;> cases hdata
  · cases hdata

/-- A date or time that is not `NULL` is `NULL` after `AdvanceText`. -/
theorem not_equivalent_temporal (sscanf : ScanFormat → List UInt8 → List UInt8)
    (uninitialized : UInt64) (hdata : column.Presented renders data)
    (htemporal : column.field.type.isTemporal = true) (hvalue : column.value ≠ none) :
    ¬ (textCell sscanf uninitialized column.field.type data).Equivalent (binaryCell data) := by
  unfold ColumnValue.Presented at hdata
  split at hdata
  · rename_i hnone
    exact absurd hnone hvalue
  · rename_i value data _
    intro hequivalent
    have hlost : (textCell sscanf uninitialized column.field.type (some data)).value = none := by
      cases htype : column.field.type with
      | datetime | date | time | newdate | datetime2 => rfl
      | _ =>
        rw [htype] at htemporal
        cases htemporal
    have hnull := hequivalent.null.mp hlost
    cases hnull
  · cases hdata

end Cells

section Rows

variable {renders : UInt64 → List UInt8 → Prop} {sscanf : ScanFormat → List UInt8 → List UInt8}
  {columns : List ColumnValue} {row : List (Option FieldData)}

theorem equivalent_refl (a : Cell) : a.Equivalent a := ⟨Iff.rfl, rfl, rfl⟩

theorem textRow_eq_binaryRow (hscans : Scans renders sscanf) (uninitialized : UInt64)
    (hrow : List.Forall₂ (ColumnValue.Presented renders) columns row)
    (hkept : ∀ column ∈ columns, column.field.type.isTemporal = true → column.value = none) :
    textRow sscanf uninitialized (columns.map ColumnValue.field) row = binaryRow row := by
  induction hrow with
  | nil => rfl
  | @cons column data columns row hdata _ ih =>
    obtain ⟨hcolumn, hcolumns⟩ := List.forall_mem_cons.mp hkept
    have hrest := ih hcolumns
    rw [textRow, binaryRow] at hrest
    rw [textRow, binaryRow, List.map_cons, List.zipWith_cons_cons, List.map_cons, hrest,
      textCell_eq_binaryCell hscans uninitialized hdata hcolumn]

theorem kept_of_equivalent (uninitialized : UInt64)
    (hrow : List.Forall₂ (ColumnValue.Presented renders) columns row)
    (hequivalent : List.Forall₂ Cell.Equivalent
      (textRow sscanf uninitialized (columns.map ColumnValue.field) row) (binaryRow row)) :
    ∀ column ∈ columns, column.field.type.isTemporal = true → column.value = none := by
  induction hrow with
  | nil => simp
  | @cons column data columns row hdata _ ih =>
    rw [textRow, binaryRow, List.map_cons, List.zipWith_cons_cons, List.map_cons,
      List.forall₂_cons] at hequivalent
    obtain ⟨hcell, hrest⟩ := hequivalent
    refine List.forall_mem_cons.mpr ⟨?_, ih hrest⟩
    intro htemporal
    by_contra hvalue
    exact not_equivalent_temporal sscanf uninitialized hdata htemporal hvalue hcell

/-- **When both ways of fetching agree**: on the rows in which every date and
time is `NULL`. -/
theorem fetched_rows_equivalent_iff (hscans : Scans renders sscanf) (uninitialized : UInt64)
    (hrow : List.Forall₂ (ColumnValue.Presented renders) columns row) :
    EquivalentRows (textRow sscanf uninitialized (columns.map ColumnValue.field) row)
        (binaryRow row) ↔
      ∀ column ∈ columns, column.field.type.isTemporal = true → column.value = none := by
  constructor
  · exact fun h => kept_of_equivalent uninitialized hrow h.1
  · intro hkept
    rw [textRow_eq_binaryRow hscans uninitialized hrow hkept]
    refine ⟨?_, fun _ => rfl⟩
    exact List.forall₂_same.mpr fun a _ => equivalent_refl a

end Rows

/-! ## A row of each kind -/

/-- `%d` and `%lld` of a decimal number, and `%lf` of the texts of two doubles. -/
def scanText (format : ScanFormat) (text : List UInt8) : List UInt8 :=
  match format with
  | .d => intBytes 4 (Decimal.readInt (text.map fun b => Char.ofNat b.toNat)).1
  | .lld => intBytes 8 (Decimal.readInt (text.map fun b => Char.ofNat b.toNat)).1
  | .lf => toLE 8 (if text = ascii ['1', '.', '5'] then 0x3ff8000000000000 else 0)

/-- The texts of the doubles 0 and 1.5. -/
def RendersDouble (bits : UInt64) (text : List UInt8) : Prop :=
  (bits = 0 ∧ text = ascii ['0']) ∨ (bits = 0x3ff8000000000000 ∧ text = ascii ['1', '.', '5'])

theorem ascii_chars {text : List Char} (h : ∀ c ∈ text, c = '-' ∨ c.isDigit = true) :
    (ascii text).map (fun b => Char.ofNat b.toNat) = text := by
  induction text with
  | nil => rfl
  | cons c text ih =>
    obtain ⟨hc, htext⟩ := List.forall_mem_cons.mp h
    have hlt : c.toNat < 256 := by
      rcases hc with rfl | hdigit
      · decide
      · have hle := (Char.isDigit_iff_toNat.mp hdigit).2
        have hnine : '9'.toNat = 57 := rfl
        omega
    have hchar : Char.ofNat (UInt8.ofNat c.toNat).toNat = c := by
      rw [UInt8.toNat_ofNat', Nat.mod_eq_of_lt hlt, Char.ofNat_toNat]
    rw [ascii, List.map_cons, List.map_cons, hchar, ← ascii, ih htext]

theorem readInt_ascii (i : Int) :
    (Decimal.readInt ((ascii i.repr.toList).map fun b => Char.ofNat b.toNat)).1 = i := by
  have hread := Decimal.readInt_repr (i := i) Decimal.endsNumber_nil
  rw [List.append_nil] at hread
  rw [ascii_chars fun _ => Decimal.isDigit_of_mem_repr, hread]

theorem scanText_scans : Scans RendersDouble scanText where
  d i _ := congrArg (intBytes 4) (readInt_ascii i)
  lld i _ := congrArg (intBytes 8) (readInt_ascii i)
  lf bits text h := by
    rcases h with ⟨rfl, rfl⟩ | ⟨rfl, rfl⟩
    · exact congrArg (toLE 8) (if_neg (by decide))
    · exact congrArg (toLE 8) (if_pos rfl)

/-- An `INT`, a `DOUBLE`, a text and a date that is `NULL`. -/
def presentedColumns : List ColumnValue :=
  [⟨⟨"id", .long, 11⟩, some (.integer (-5))⟩,
    ⟨⟨"price", .double, 22⟩, some (.double 0x3ff8000000000000)⟩,
    ⟨⟨"text", .varString, 255⟩, some (.bytes [104, 105])⟩,
    ⟨⟨"day", .date, 10⟩, none⟩]

def presentedRow : List (Option FieldData) :=
  [some ⟨[251, 255, 255, 255], [45, 53]⟩,
    some ⟨[0, 0, 0, 0, 0, 0, 248, 63], [49, 46, 53]⟩,
    some ⟨[104, 105], [104, 105]⟩,
    none]

theorem fetched_rows_equivalent_example : EquivalentRows
    (textRow scanText 0 (presentedColumns.map ColumnValue.field) presentedRow)
    (binaryRow presentedRow) := by
  have hrow : List.Forall₂ (ColumnValue.Presented RendersDouble) presentedColumns presentedRow := by
    refine .cons ⟨by decide, by decide, by decide⟩ (.cons ⟨Or.inr ⟨rfl, rfl⟩, by decide⟩
      (.cons ⟨rfl, rfl⟩ (.cons trivial .nil)))
  exact (fetched_rows_equivalent_iff scanText_scans 0 hrow).mpr (by decide)

/-- The date 2 January 2020. -/
def presentedDate : FieldData where
  native := toLE 4 2020 ++ toLE 4 1 ++ toLE 4 2 ++ toLE 28 0
  text := ascii ['2', '0', '2', '0', '-', '0', '1', '-', '0', '2']

/-- A date with a value is `NULL` after `AdvanceText`. -/
theorem text_fetch_loses_date :
    (ColumnValue.mk ⟨"day", .date, 10⟩ (some (.temporal ⟨2020, 1, 2, 0, 0, 0, 0, false⟩))).Presented
        RendersDouble (some presentedDate) ∧
      ¬ EquivalentRows (textRow scanText 0 [⟨"day", .date, 10⟩] [some presentedDate])
        (binaryRow [some presentedDate]) := by
  constructor
  · show MysqlTime.ofBytes presentedDate.native = _
    decide
  · rintro ⟨hcells, -⟩
    obtain ⟨hcell, -⟩ := List.forall₂_cons.mp hcells
    exact absurd (hcell.null.mp rfl) (by simp [binaryCell])

end SasLibclient
