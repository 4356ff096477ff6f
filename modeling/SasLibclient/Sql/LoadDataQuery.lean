import SasLibclient.FetchPaths
import SasLibclient.S2ClientError
import SasLibclient.Sql.SortKeys
import SasLibclient.Text.LoadData

/-!
# The LOAD DATA statement (`utils.cpp`)

`MakeLoadDataQuery` names the table, its columns and the format of the data. For
TSV the columns and the delimiters are read back from the text, whatever the
names are (`readLoadData_tsv`); what the text does not say has the default of
LOAD DATA. For AVRO, `MakeColumnsAvro` maps the fields of the records to columns,
or to variables from which the SET part computes the columns, and
`MakeAvroJsonSchema` declares the fields.
-/

namespace SasLibclient

open Quoting Tokens LoadData

/-! ## The AVRO parts -/

def makeAvroFieldName (i : Nat) : String := "col_" ++ i.repr

def makeAvroVarName (i : Nat) : String := "@var_" ++ i.repr

/-- What a column is computed from when it is mapped to a variable; `none` when
it is mapped directly. -/
def avroExpression (treatZeroLenAsNull : Bool) (var : String) : ColumnType → Option String
  | .int64 => some (" = IF(" ++ var ++ " != -9223372036854775808," ++ var ++ ",NULL)")
  | .int32 => some (" = IF(" ++ var ++ " != -2147483648," ++ var ++ ",NULL)")
  | .dateTime => some (" = ADDDATE(\"1960-01-01\", INTERVAL " ++ var ++ " MICROSECOND)")
  | .time =>
    some ("= IF(" ++ var ++ "= -9223372036854775808,NULL,CONCAT(IF(" ++ var ++
      "> 0, '', '-'),ADDTIME(SEC_TO_TIME(FLOOR(ABS(" ++ var ++
      "/1000000))),CONCAT('00:00:00.',LPAD(ABS(" ++ var ++ ") % 1000000 :> TEXT, 6, '0')))))")
  | .date => some (" = ADDDATE(\"1960-01-01\", INTERVAL " ++ var ++ " DAY)")
  | .fixed | .variable =>
    if treatZeroLenAsNull then some (" = IF(LENGTH(" ++ var ++ ") = 0, NULL," ++ var ++ ")")
    else none
  | .double | .unsupported => none

/-- The turn of the loop for column `i`; `parts` are `mappingFieldsPart` and
`computingColumnsPart`. -/
def avroColumn (treatZeroLenAsNull : Bool) (i : Nat) (column : Column) (parts : String × String) :
    String × String :=
  let mapping := if 0 < i then parts.1 ++ "," else parts.1
  match avroExpression treatZeroLenAsNull (makeAvroVarName i) column.type with
  | some expression =>
    (mapping ++ (makeAvroVarName i ++ " <- %::" ++ makeAvroFieldName i),
      (if 0 < parts.2.length then parts.2 ++ "," else parts.2 ++ "SET ") ++
        (quotedName column.name ++ expression))
  | none => (mapping ++ (quotedName column.name ++ " <- %::" ++ makeAvroFieldName i), parts.2)

/-- The loop from column `i` on. -/
def avroColumns (treatZeroLenAsNull : Bool) :
    Nat → List Column → String × String → String × String
  | _, [], parts => parts
  | i, column :: columns, parts =>
    avroColumns treatZeroLenAsNull (i + 1) columns (avroColumn treatZeroLenAsNull i column parts)

def makeColumnsAvro (schema : RowSchema) (treatZeroLenAsNull : Bool) : String × String :=
  avroColumns treatZeroLenAsNull 0 schema.columnInfo ("", "")

/-- The JSON values that the schema has. -/
inductive Json where
  | string (value : String)
  | array (items : List Json)
  | object (members : List (String × Json))

def avroType : ColumnType → Option String
  | .int64 | .dateTime | .time => some "long"
  | .int32 | .date => some "int"
  | .double => some "double"
  | .variable | .fixed => some "bytes"
  | .unsupported => none

/-- The fields from column `i` on; the number in the message is the type. -/
def avroFields : Nat → List Column → Except S2ClientError (List Json)
  | _, [] => .ok []
  | i, column :: columns =>
    match avroType column.type with
    | none => .error ⟨s2cErrorInvArg, "Unsupported data type: 8"⟩
    | some type =>
      match avroFields (i + 1) columns with
      | .error e => .error e
      | .ok fields =>
        .ok (.object [("name", .string (makeAvroFieldName i)), ("type", .string type)] :: fields)

def makeAvroJsonSchema (schema : RowSchema) : Except S2ClientError Json :=
  match avroFields 0 schema.columnInfo with
  | .error e => .error e
  | .ok fields =>
    .ok (.object [("type", .string "record"), ("name", .string "schema_name"),
      ("fields", .array fields)])

inductive WriteBufferType where
  | tsv
  | avro
  deriving DecidableEq, Repr

/-- `MakeLoadDataQuery`; a schema has a first column. `jsonDumps` is the function
of jansson. -/
def makeLoadDataQuery (jsonDumps : Json → String) (tableName : String) (schema : RowSchema)
    (format : WriteBufferType) (treatZeroLenAsNull : Bool) : Except S2ClientError String :=
  let result := "LOAD DATA LOCAL INFILE 'placeholder' INTO TABLE " ++ quotedName tableName ++ " "
  match format with
  | .tsv =>
    .ok (result ++ (" (" ++ String.intercalate "," (schema.columnInfo.map fun column =>
      quotedName column.name) ++ ") ") ++ " FIELDS OPTIONALLY ENCLOSED BY '\"'")
  | .avro =>
    let columnsPair := makeColumnsAvro schema treatZeroLenAsNull
    match makeAvroJsonSchema schema with
    | .error e => .error e
    | .ok document =>
      .ok (result ++ " FORMAT AVRO " ++ "(" ++ columnsPair.1 ++ ")" ++ " SCHEMA " ++ "'" ++
        jsonDumps document ++ "'" ++ " " ++ columnsPair.2)

/-! ## Reading the delimiters -/

/-- The delimiters of the fields and the lines. -/
structure Delimiters where
  field : List Char
  line : List Char
  quote : List Char
  /-- fields without quotes are read, too -/
  optionally : Bool
  escape : List Char
  deriving DecidableEq, Repr

/-- Those of a statement that names none. -/
def Delimiters.default : Delimiters where
  field := ['\t']
  line := ['\n']
  quote := []
  optionally := false
  escape := ['\\']

/-- The options of a clause in their order, and what their strings set. -/
abbrev Options := List (List Token × (List Char → Delimiters → Delimiters))

def fieldOptions : Options :=
  [([.word "TERMINATED".toList, .word "BY".toList], fun text d => { d with field := text }),
    ([.word "OPTIONALLY".toList, .word "ENCLOSED".toList, .word "BY".toList],
      fun text d => { d with quote := text, optionally := true }),
    ([.word "ENCLOSED".toList, .word "BY".toList], fun text d => { d with quote := text }),
    ([.word "ESCAPED".toList, .word "BY".toList], fun text d => { d with escape := text })]

def lineOptions : Options :=
  [([.word "TERMINATED".toList, .word "BY".toList], fun text d => { d with line := text })]

/-- The options that the tokens begin with, and what follows them. -/
def readOptions : Options → Delimiters × List Token → Delimiters × List Token
  | [], found => found
  | option :: options, (d, ts) =>
    match expect option.1 ts with
    | some (.string text :: rest) => readOptions options (option.2 text d, rest)
    | _ => readOptions options (d, ts)

/-- A clause, if it is there. -/
def readClause (keyword : String) (options : Options) (found : Delimiters × List Token) :
    Delimiters × List Token :=
  match expect [.word keyword.toList] found.2 with
  | some rest => readOptions options (found.1, rest)
  | none => found

/-- A LOAD DATA statement for delimited text. -/
structure LoadDataStatement where
  table : List Char
  columns : List (List Char)
  delimiters : Delimiters
  deriving DecidableEq, Repr

def loadDataWords : List Token :=
  [.word "LOAD".toList, .word "DATA".toList, .word "LOCAL".toList, .word "INFILE".toList,
    .string "placeholder".toList, .word "INTO".toList, .word "TABLE".toList]

/-- The statement with these tokens, all of which must be read. -/
def loadDataOf (ts : List Token) : Option LoadDataStatement := do
  match ← expect loadDataWords ts with
  | .name table :: ts =>
    let (columns, ts) ← readParens ts
    let (delimiters, ts) :=
      readClause "LINES" lineOptions (readClause "FIELDS" fieldOptions (Delimiters.default, ts))
    if ts = [] then some ⟨table, columns, delimiters⟩ else none
  | _ => none

def readLoadData (query : String) : Option LoadDataStatement := loadDataOf (tokens query.toList)

/-! ## The grammar -/

def tab : UInt8 := 9
def newline : UInt8 := 10
def doubleQuote : UInt8 := 34
def backslash : UInt8 := 92

/-- The escaped characters of LOAD DATA. -/
def unescapeByte (c : UInt8) : UInt8 :=
  if c = 48 then 0
  else if c = 98 then 8
  else if c = 110 then 10
  else if c = 114 then 13
  else if c = 116 then 9
  else if c = 90 then 26
  else c

/-- A delimiter of one ASCII character. -/
def delimiterByte : List Char → Option UInt8
  | [c] => if c.toNat < 128 then some (UInt8.ofNat c.toNat) else none
  | _ => none

/-- The grammar of delimiters that can be told apart; fields may have quotes. -/
def Delimiters.grammar (d : Delimiters) : Option (Grammar UInt8) := do
  let field ← delimiterByte d.field
  let line ← delimiterByte d.line
  let quote ← delimiterByte d.quote
  let escape ← delimiterByte d.escape
  if d.optionally then Grammar.make? field line quote escape 78 unescapeByte else none

/-- The grammar of the statement that is made for TSV. -/
def loadDataGrammar : Grammar UInt8 where
  field := tab
  line := newline
  quote := doubleQuote
  escape := backslash
  null := 78
  unescape := unescapeByte
  field_ne_line := by decide
  quote_ne_field := by decide
  quote_ne_line := by decide
  escape_ne_field := by decide
  escape_ne_line := by decide
  escape_ne_quote := by decide
  unescape_quote := by decide
  unescape_escape := by decide

/-! ## The statement for TSV -/

/-- What the statement for TSV says. -/
def tsvDelimiters : Delimiters := { Delimiters.default with quote := ['"'], optionally := true }

theorem grammar_tsvDelimiters : tsvDelimiters.grammar = some loadDataGrammar := rfl

theorem tokens_columns (schema : RowSchema) (rest : List Char) :
    tokens ((String.intercalate "," (schema.columnInfo.map fun column =>
        quotedName column.name)).toList ++ ')' :: rest) =
      nameList (schema.columnInfo.map fun column => column.name.toList) ++
        .symbol ')' :: tokens rest := by
  have hended : ∀ item ∈ schema.columnInfo.map (fun column => (quotedName column.name).toList),
      (run .blank item).2.ended = true := by
    intro item hitem
    obtain ⟨column, -, rfl⟩ := List.mem_map.mp hitem
    rw [quotedName_toList, backtick_eq]
    exact ended_quote _
  obtain ⟨htokens, hend⟩ := tokens_intercalate hended
  rw [String.toList_intercalate, comma_toList, List.map_map]
  dsimp only [Function.comp_def]
  rw [tokens_append_boundary hend ⟨_, _, rfl, by decide⟩, htokens, List.map_map, nameList,
    List.map_map]
  congr 2
  apply List.map_congr_left
  intro column _
  dsimp only [Function.comp_apply]
  rw [quotedName_toList, backtick_eq, tokens_quote]

theorem loadDataOf_tsv {columns : List (List Char)} (hcolumns : columns ≠ [])
    (table : List Char) :
    loadDataOf (loadDataWords ++ .name table :: .symbol '(' :: (nameList columns ++ .symbol ')' ::
      [.word "FIELDS".toList, .word "OPTIONALLY".toList, .word "ENCLOSED".toList,
        .word "BY".toList, .string ['"']])) = some ⟨table, columns, tsvDelimiters⟩ := by
  unfold loadDataOf
  rw [expect_append, Option.bind_eq_bind, Option.bind_some]
  dsimp only
  rw [readParens_nameList hcolumns]
  rfl

/-- **The statement for TSV** names the table, all columns, and quotes that may
be missing; the other delimiters are the defaults. -/
theorem readLoadData_tsv (jsonDumps : Json → String) (tableName : String) {schema : RowSchema}
    (hcolumns : schema.columnInfo ≠ []) (treatZeroLenAsNull : Bool) :
    ∃ query, makeLoadDataQuery jsonDumps tableName schema .tsv treatZeroLenAsNull = .ok query ∧
      readLoadData query = some ⟨tableName.toList,
        schema.columnInfo.map fun column => column.name.toList, tsvDelimiters⟩ := by
  have hwords : run .blank "LOAD DATA LOCAL INFILE 'placeholder' INTO TABLE ".toList =
      (loadDataWords, .blank) := rfl
  have hopen : ∀ rest, tokens (' ' :: ' ' :: '(' :: rest) = .symbol '(' :: tokens rest :=
    fun _ => rfl
  have hfields : tokens (' ' :: " FIELDS OPTIONALLY ENCLOSED BY '\"'".toList) =
      [.word "FIELDS".toList, .word "OPTIONALLY".toList, .word "ENCLOSED".toList,
        .word "BY".toList, .string ['"']] := rfl
  have hblank : " ".toList = [' '] := rfl
  have hparen : " (".toList = [' ', '('] := rfl
  have hclose : ") ".toList = [')', ' '] := rfl
  refine ⟨_, rfl, ?_⟩
  simp only [readLoadData, String.toList_append, List.append_assoc]
  rw [tokens_append_blank hwords, quotedName_toList, backtick_eq, hblank, hparen, hclose]
  simp only [List.cons_append, List.nil_append]
  rw [tokens_name_append _ ⟨_, _, rfl, by decide⟩, hopen, tokens_columns, hfields]
  exact loadDataOf_tsv (fun h => hcolumns (List.map_eq_nil_iff.mp h)) _

/-- The statement loads text of this grammar into the columns of the table. -/
def LoadsInto (query tableName : String) (schema : RowSchema) (G : Grammar UInt8) : Prop :=
  ∃ statement, readLoadData query = some statement ∧ statement.table = tableName.toList ∧
    statement.columns = schema.columnInfo.map (fun column => column.name.toList) ∧
    statement.delimiters.grammar = some G

theorem loadsInto_tsv (jsonDumps : Json → String) (tableName : String) {schema : RowSchema}
    (hcolumns : schema.columnInfo ≠ []) (treatZeroLenAsNull : Bool) :
    ∃ query, makeLoadDataQuery jsonDumps tableName schema .tsv treatZeroLenAsNull = .ok query ∧
      LoadsInto query tableName schema loadDataGrammar := by
  obtain ⟨query, hquery, hread⟩ :=
    readLoadData_tsv jsonDumps tableName hcolumns treatZeroLenAsNull
  exact ⟨query, hquery, _, hread, rfl, rfl, grammar_tsvDelimiters⟩

end SasLibclient
