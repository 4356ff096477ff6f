import SasLibclient.FetchPaths
import SasLibclient.Hdat.DatePrinting
import SasLibclient.Hdat.RoundTrip
import SasLibclient.Sql.LoadDataQuery
import SasLibclient.Text.LoadData

/-!
# `TsvTableWriter` (`tsv_table_writer.cpp`)

`ChunkToTSV` prints the fields of a chunk with tabs between them and newlines
between the rows. With the grammar of the statement of `MakeLoadDataQuery` the
rows are read back: the exact bytes of the variable and fixed fields, the tokens
of the others, and NULL for the fields that are null.
-/

namespace SasLibclient

open Bytes LoadData

/-- What the C library contributes to the text. -/
structure TsvWorld where
  /-- `sprintf` of a double with `%.17e` -/
  sprintfE : UInt64 → List UInt8
  /-- the array that `strftime` leaves when it has no room -/
  undefinedArray : List UInt8

/-- `\N` -/
def tsvNull : List UInt8 := [backslash, 78]

/-- What a field that is not null is printed as; strings go through
`std::quoted`. -/
def TsvWorld.fieldText (W : TsvWorld) (column : Column) : Field → List UInt8
  | .int64 val =>
    match column.type with
    | .dateTime => ((fromDateTimeCAS (toInt64 val)).map ascii).getD W.undefinedArray
    | .time => ascii (fromTimeCAS (toInt64 val))
    | _ => ascii (toInt64 val).repr.toList
  | .int32 val =>
    match column.type with
    | .date => ((fromDateCAS (toInt32 val)).map ascii).getD W.undefinedArray
    | _ => ascii (toInt32 val).repr.toList
  | .double bits => W.sprintfE bits
  | .fixed bytes | .variable bytes => Quoting.quote doubleQuote backslash bytes

/-- One column of one row: the text, and the reader after it; an error is the
return value false. -/
def TsvWorld.tsvField (W : TsvWorld) (column : Column) (r : SuperChunkReader) :
    Except SuperChunkReader (List UInt8 × SuperChunkReader) :=
  if column.type = .unsupported then
    .error r
  else
    match (r.readColumn column).out with
    | none => .error (r.readColumn column).reader
    | some (out, isnull) =>
      .ok (if isnull then tsvNull
        else W.fieldText column (out.toField r.currentChunk.chunk.ptr column),
        (r.readColumn column).reader)

/-- The loop over the columns; `first` is `col_num == 0`. -/
def TsvWorld.tsvColumns (W : TsvWorld) : List Column → Bool → SuperChunkReader →
    Except SuperChunkReader (List UInt8 × SuperChunkReader)
  | [], _, r => .ok ([], r)
  | column :: columns, first, r =>
    match W.tsvField column r with
    | .error r => .error r
    | .ok (text, r) =>
      match tsvColumns W columns false r with
      | .error r => .error r
      | .ok (rest, r) => .ok ((if first then [] else [tab]) ++ text ++ rest, r)

/-- The loop over the rows; `first` is `row_num == 0`. -/
def TsvWorld.tsvRows (W : TsvWorld) (columns : List Column) : Nat → Bool → SuperChunkReader →
    Except SuperChunkReader (List UInt8 × SuperChunkReader)
  | 0, _, r => .ok ([], r)
  | n + 1, first, r =>
    match W.tsvColumns columns true r with
    | .error r => .error r
    | .ok (text, r) =>
      match tsvRows W columns n false r with
      | .error r => .error r
      | .ok (rest, r) => .ok ((if first then [] else [newline]) ++ text ++ rest, r)

/-- `ChunkToTSV`; `row_count` is an `int64_t`. -/
def TsvWorld.chunkToTSV (W : TsvWorld) (schema : RowSchema) (rowCount : Int)
    (r : SuperChunkReader) : Except SuperChunkReader (List UInt8 × SuperChunkReader) :=
  W.tsvRows schema.columnInfo rowCount.toNat true r

/-! ## The texts of the fields -/

def TsvWorld.readText (W : TsvWorld) (column : Column) (read : Field × Bool) : List UInt8 :=
  if read.2 then tsvNull else W.fieldText column read.1

section Printing

variable {W : TsvWorld} {columns : List Column} {first : Bool} {r r' : SuperChunkReader}
  {text : List UInt8} {n : Nat}

theorem readText_eq (column : Column) (field : Field) (isnull : Bool) :
    (if isnull then tsvNull else W.fieldText column field) = W.readText column (field, isnull) :=
  rfl

/-- A row is printed as the fields that `SuperChunkReader` reads. -/
theorem tsvColumns_spec (h : W.tsvColumns columns first r = .ok (text, r')) :
    ∃ row, r.readRow columns = some (row, r') ∧ row.length = columns.length ∧
      text = (if first ∨ columns = [] then [] else [tab]) ++
        loadDataGrammar.joinFields (List.zipWith W.readText columns row) := by
  induction columns generalizing first r text with
  | nil =>
    obtain ⟨rfl, rfl⟩ := Prod.mk.inj (Except.ok.inj h)
    exact ⟨[], rfl, rfl, by simp [Grammar.joinFields]⟩
  | cons column columns ih =>
    rw [TsvWorld.tsvColumns] at h
    cases hfield : W.tsvField column r with
    | error r₁ => simp [hfield] at h
    | ok result =>
      obtain ⟨fieldText, r₁⟩ := result
      simp only [hfield] at h
      cases hrest : W.tsvColumns columns false r₁ with
      | error r₂ => simp [hrest] at h
      | ok result =>
        obtain ⟨rest, r₂⟩ := result
        simp only [hrest, Except.ok.injEq, Prod.mk.injEq] at h
        obtain ⟨rfl, rfl⟩ := h
        obtain ⟨row, hrow, hlength, rfl⟩ := ih hrest
        unfold TsvWorld.tsvField at hfield
        split at hfield
        · cases hfield
        · cases hout : (r.readColumn column).out with
          | none => simp [hout] at hfield
          | some out =>
            obtain ⟨out, isnull⟩ := out
            simp only [hout, Except.ok.injEq, Prod.mk.injEq] at hfield
            obtain ⟨rfl, rfl⟩ := hfield
            refine ⟨(out.toField r.currentChunk.chunk.ptr column, isnull) :: row, ?_, ?_, ?_⟩
            · rw [SuperChunkReader.readRow, hout]
              dsimp only
              rw [hrow]
            · rw [List.length_cons, List.length_cons, hlength]
            · rw [readText_eq, List.zipWith_cons_cons]
              cases hcolumns : columns with
              | nil =>
                simp [Grammar.joinFields]
              | cons column' columns =>
                rw [hcolumns] at hlength
                cases row with
                | nil => cases hlength
                | cons read row => simp [Grammar.joinFields, loadDataGrammar]

/-- The rows are printed as the rows that `SuperChunkReader` reads. -/
theorem tsvRows_spec (h : W.tsvRows columns n first r = .ok (text, r')) :
    ∃ rows, r.readRows columns n = some (rows, r') ∧ rows.length = n ∧
      (∀ row ∈ rows, row.length = columns.length) ∧
      text = (if first ∨ rows = [] then [] else [newline]) ++
        loadDataGrammar.joinLines
          (rows.map fun row => loadDataGrammar.joinFields (List.zipWith W.readText columns row)) := by
  induction n generalizing first r text with
  | zero =>
    obtain ⟨rfl, rfl⟩ := Prod.mk.inj (Except.ok.inj h)
    exact ⟨[], rfl, rfl, by simp, by simp [Grammar.joinLines]⟩
  | succ n ih =>
    rw [TsvWorld.tsvRows] at h
    cases hrow : W.tsvColumns columns true r with
    | error r₁ => simp [hrow] at h
    | ok result =>
      obtain ⟨rowText, r₁⟩ := result
      simp only [hrow] at h
      cases hrest : W.tsvRows columns n false r₁ with
      | error r₂ => simp [hrest] at h
      | ok result =>
        obtain ⟨rest, r₂⟩ := result
        simp only [hrest, Except.ok.injEq, Prod.mk.injEq] at h
        obtain ⟨rfl, rfl⟩ := h
        obtain ⟨rows, hrows, hlength, hwidth, rfl⟩ := ih hrest
        obtain ⟨row, hread, hcolumns, rfl⟩ := tsvColumns_spec hrow
        refine ⟨row :: rows, ?_, ?_, ?_, ?_⟩
        · rw [SuperChunkReader.readRows, hread]
          dsimp only
          rw [hrows]
        · rw [List.length_cons, hlength]
        · intro row' hrow'
          rcases List.mem_cons.mp hrow' with rfl | hmem
          · exact hcolumns
          · exact hwidth row' hmem
        · cases rows with
          | nil => simp [Grammar.joinLines]
          | cons row' rows => simp [Grammar.joinLines, loadDataGrammar]

end Printing

/-! ## The lines that LOAD DATA reads -/

structure PlainToken (text : List UInt8) : Prop where
  nonempty : text ≠ []
  plain : ∀ c ∈ text, loadDataGrammar.Plain c

def Field.isToken : Field → Bool
  | .fixed _ | .variable _ => false
  | _ => true

/-- A number or a date that is not null is printed as a token. -/
def TsvWorld.PrintsToken (W : TsvWorld) (read : Column × Field × Bool) : Prop :=
  read.2.2 = false → read.2.1.isToken = true → PlainToken (W.fieldText read.1 read.2.1)

structure TsvWorld.Decoded (W : TsvWorld) (read : Column × Field × Bool)
    (value : Option (List UInt8)) : Prop where
  null : value = none ↔ read.2.2 = true
  string : ∀ bytes, read.2.1 = .variable bytes ∨ read.2.1 = .fixed bytes → read.2.2 = false →
    value = some bytes
  token : read.2.1.isToken = true → read.2.2 = false →
    value = some (W.fieldText read.1 read.2.1)

def TsvWorld.decodedValue (W : TsvWorld) (read : Column × Field × Bool) : Option (List UInt8) :=
  if read.2.2 then none
  else
    match read.2.1 with
    | .fixed bytes | .variable bytes => some bytes
    | field => some (W.fieldText read.1 field)

theorem decoded_decodedValue (W : TsvWorld) (read : Column × Field × Bool) :
    W.Decoded read (W.decodedValue read) := by
  obtain ⟨column, field, isnull⟩ := read
  unfold TsvWorld.decodedValue
  cases isnull with
  | true =>
    refine ⟨iff_of_true rfl rfl, ?_, ?_⟩
    · intro _ _ hfalse
      cases hfalse
    · intro _ hfalse
      cases hfalse
  | false =>
    cases field with
    | fixed bytes =>
      refine ⟨by simp, ?_, ?_⟩
      · rintro bytes' (h | h) _
        · cases h
        · exact congrArg some (Field.fixed.inj h)
      · intro htoken
        cases htoken
    | «variable» bytes =>
      refine ⟨by simp, ?_, ?_⟩
      · rintro bytes' (h | h) _
        · exact congrArg some (Field.variable.inj h)
        · cases h
      · intro htoken
        cases htoken
    | int64 val | int32 val | double bits =>
      refine ⟨by simp, ?_, fun _ _ => rfl⟩
      rintro bytes (h | h) _
      · cases h
      · cases h

theorem encodes_readText {W : TsvWorld} {column : Column} {read : Field × Bool}
    (h : W.PrintsToken (column, read)) :
    loadDataGrammar.Encodes (W.readText column read) (W.decodedValue (column, read)) := by
  obtain ⟨field, isnull⟩ := read
  cases isnull with
  | true => exact Grammar.encodes_null
  | false =>
    cases field with
    | fixed bytes | «variable» bytes => exact Grammar.encodes_quote bytes
    | int64 val | int32 val | double bits =>
      have htoken := h rfl rfl
      exact Grammar.encodes_plain htoken.nonempty htoken.plain

def TsvWorld.DecodedLine (W : TsvWorld) (columns : List Column) (row : List (Field × Bool))
    (line : List (Option (List UInt8))) : Prop :=
  line.length = columns.length ∧ List.Forall₂ W.Decoded (columns.zip row) line

section Decoding

variable {W : TsvWorld} {columns : List Column} {row : List (Field × Bool)}

theorem encodes_row (h : ∀ read ∈ columns.zip row, W.PrintsToken read) :
    List.Forall₂ loadDataGrammar.Encodes (List.zipWith W.readText columns row)
      ((columns.zip row).map W.decodedValue) := by
  induction columns generalizing row with
  | nil => exact .nil
  | cons column columns ih =>
    cases row with
    | nil => exact .nil
    | cons read row =>
      refine .cons (encodes_readText (h _ List.mem_cons_self)) (ih ?_)
      intro read' hread'
      exact h read' (List.mem_cons_of_mem _ hread')

theorem decodedLine_map (hlength : row.length = columns.length) :
    W.DecodedLine columns row ((columns.zip row).map W.decodedValue) := by
  refine ⟨by rw [List.length_map, List.length_zip, hlength, Nat.min_self], ?_⟩
  rw [List.forall₂_map_right_iff]
  exact List.forall₂_same.mpr fun read _ => decoded_decodedValue W read

/-- **The output of `ChunkToTSV`** is read back by LOAD DATA: `row_count` lines
with the fields that the reader returned. -/
theorem chunkToTSV_decodes (W : TsvWorld) (jsonDumps : Json → String) (tableName : String)
    (treatZeroLenAsNull : Bool) {schema : RowSchema} {rowCount : Int}
    {r r' : SuperChunkReader} {text : List UInt8} (hcolumns : schema.columnInfo ≠ [])
    (hcount : 0 ≤ rowCount) (h : W.chunkToTSV schema rowCount r = .ok (text, r')) :
    ∃ query G rows,
      makeLoadDataQuery jsonDumps tableName schema .tsv treatZeroLenAsNull = .ok query ∧
      LoadsInto query tableName schema G ∧
      r.readRows schema.columnInfo rowCount.toNat = some (rows, r') ∧
      ((∀ row ∈ rows, ∀ read ∈ schema.columnInfo.zip row, W.PrintsToken read) →
        ∃ lines, G.decode text = some lines ∧ (lines.length : Int) = rowCount ∧
          List.Forall₂ (W.DecodedLine schema.columnInfo) rows lines) := by
  obtain ⟨query, hquery, hinto⟩ := loadsInto_tsv jsonDumps tableName hcolumns treatZeroLenAsNull
  obtain ⟨rows, hread, hlength, hwidth, rfl⟩ := tsvRows_spec h
  refine ⟨query, loadDataGrammar, rows, hquery, hinto, hread, ?_⟩
  intro htokens
  refine ⟨rows.map fun row => (schema.columnInfo.zip row).map W.decodedValue, ?_, ?_, ?_⟩
  · have hmap : rows.map (fun row => loadDataGrammar.joinFields
        (List.zipWith W.readText schema.columnInfo row)) =
        (rows.map (List.zipWith W.readText schema.columnInfo)).map loadDataGrammar.joinFields := by
      rw [List.map_map]
      rfl
    rw [if_pos (Or.inl rfl), List.nil_append, hmap]
    apply Grammar.decode_joinLines
    · intro texts htexts
      obtain ⟨row, hrow, rfl⟩ := List.mem_map.mp htexts
      intro hnil
      have hzero := congrArg List.length hnil
      rw [List.length_zipWith, hwidth row hrow, Nat.min_self] at hzero
      exact hcolumns (List.length_eq_zero_iff.mp hzero)
    · rw [List.forall₂_map_left_iff, List.forall₂_map_right_iff]
      exact List.forall₂_same.mpr fun row hrow => encodes_row (htokens row hrow)
  · rw [List.length_map, hlength, Int.toNat_of_nonneg hcount]
  · rw [List.forall₂_map_right_iff]
    exact List.forall₂_same.mpr fun row hrow => decodedLine_map (hwidth row hrow)

end Decoding

/-! ## Numbers are tokens -/

theorem plain_ascii {c : Char} (h : c.isDigit = true ∨ c ∈ ['-', ':', '.']) :
    loadDataGrammar.Plain (UInt8.ofNat c.toNat) := by
  rcases h with hdigit | hmem
  · have hbounds : 48 ≤ c.toNat ∧ c.toNat ≤ 57 := by
      simpa [Char.isDigit, UInt32.le_iff_toNat_le] using hdigit
    have hne : ∀ b : UInt8, b.toNat < 48 ∨ 57 < b.toNat → UInt8.ofNat c.toNat ≠ b := by
      rintro b hb rfl
      rw [UInt8.toNat_ofNat'] at hb
      omega
    exact ⟨hne tab (by decide), hne newline (by decide), hne doubleQuote (by decide),
      hne backslash (by decide)⟩
  · simp only [List.mem_cons, List.not_mem_nil, or_false] at hmem
    rcases hmem with rfl | rfl | rfl <;> exact ⟨by decide, by decide, by decide, by decide⟩

theorem plainToken_ascii {text : List Char} (hne : text ≠ [])
    (h : ∀ c ∈ text, c.isDigit = true ∨ c ∈ ['-', ':', '.']) : PlainToken (ascii text) := by
  refine ⟨fun hnil => hne (List.map_eq_nil_iff.mp hnil), ?_⟩
  intro b hb
  obtain ⟨c, hc, rfl⟩ := List.mem_map.mp hb
  exact plain_ascii (h c hc)

theorem plainToken_repr (i : Int) : PlainToken (ascii i.repr.toList) := by
  apply plainToken_ascii
  · intro hnil
    rw [Decimal.repr_toList] at hnil
    split at hnil
    · exact Nat.toDigits_ne_nil hnil
    · cases hnil
  · intro c hc
    rcases Decimal.isDigit_of_mem_repr hc with rfl | hdigit
    · exact Or.inr List.mem_cons_self
    · exact Or.inl hdigit

theorem plainToken_fromTimeCAS (t : Int) : PlainToken (ascii (fromTimeCAS t)) := by
  have hrepr : ∀ (i : Int), ∀ c ∈ i.repr.toList, c.isDigit = true ∨ c ∈ ['-', ':', '.'] := by
    intro i c hc
    rcases Decimal.isDigit_of_mem_repr hc with rfl | hdigit
    · exact Or.inr List.mem_cons_self
    · exact Or.inl hdigit
  apply plainToken_ascii
  · simp [fromTimeCAS]
  · intro c hc
    unfold fromTimeCAS at hc
    simp only [List.mem_append, List.mem_singleton] at hc
    rcases hc with ((((((hsign | hc) | rfl) | hc) | rfl) | hc) | rfl) | hc
    · split at hsign
      · cases hsign
      · rw [List.mem_singleton.mp hsign]
        exact Or.inr List.mem_cons_self
    · exact hrepr _ c hc
    · exact Or.inr (by simp)
    · exact hrepr _ c hc
    · exact Or.inr (by simp)
    · exact hrepr _ c hc
    · exact Or.inr (by simp)
    · exact Or.inl (Decimal.isDigit_of_mem_padded hc)

/-- A chunk with one row: 7, and a text of a tab and a quote. -/
def tabAndQuote : Chunk where
  ptr := fun a => [7, 0, 0, 0, 0, 0, 0, 0, 2, 0, 0, 0, 0, 0, 0, 0, 2, 0, 0, 0, 0, 0, 0, 0, 9, 34].getD
    a 0
  size := 26
  rowCount := 1
  consumedSize := 26
  variableOffset := 2
  id := 0
  partitionId := 0

def idAndNote : RowSchema := ⟨[⟨.int64, 8, "id"⟩, ⟨.variable, 0, "note"⟩], by decide⟩

def oneDouble : TsvWorld := ⟨fun _ => ascii ['0'], []⟩

theorem chunkToTSV_decodes_text :
    ∃ query G text r' lines, makeLoadDataQuery (fun _ => "") "a\x60b" idAndNote .tsv true = .ok query ∧
      LoadsInto query "a\x60b" idAndNote G ∧
      oneDouble.chunkToTSV idAndNote 1 (.reset tabAndQuote "") = .ok (text, r') ∧
      G.decode text = some lines ∧ (lines.length : Int) = 1 := by
  have hread : (SuperChunkReader.reset tabAndQuote "").readRows idAndNote.columnInfo 1 =
      some ([[(.int64 7, false), (.variable [9, 34], false)]], _) := rfl
  have htext : oneDouble.chunkToTSV idAndNote 1 (.reset tabAndQuote "") =
      .ok ([55, 9, 34, 9, 92, 34, 34], _) := rfl
  obtain ⟨query, G, rows, hquery, hinto, hrows, hlines⟩ :=
    chunkToTSV_decodes oneDouble (fun _ => "") "a\x60b" true (by decide) (by decide) htext
  obtain ⟨rfl, -⟩ := Prod.mk.inj (Option.some.inj (hread.symm.trans hrows))
  obtain ⟨lines, hdecode, hlength, -⟩ := hlines (by
    intro row hrow read hmem hnull htoken
    rw [List.mem_singleton.mp hrow] at hmem
    rcases List.mem_cons.mp hmem with rfl | hmem
    · exact plainToken_repr (toInt64 7)
    · rw [List.mem_singleton.mp hmem] at htoken
      cases htoken)
  exact ⟨query, G, _, _, lines, hquery, hinto, htext, hdecode, hlength⟩

end SasLibclient
