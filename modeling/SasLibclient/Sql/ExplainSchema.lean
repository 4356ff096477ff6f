import Mathlib.Algebra.Group.Int.Defs
import SasLibclient.Sql.ExplainOperations
import SasLibclient.Text.Decimal
import SasLibclient.Text.Search

/-!
# The schema in a query plan (`utils.cpp`)

`ExplainRowSchema` takes the columns of a query from the row of the result table
in its plan. `ExplainToRowSchema` cuts the list of columns with searches in the
whole row, and `ShowColumnsToRowSchemaHelper` reads the name, the type and the
size of every piece.
-/

namespace SasLibclient

open Search

/-- A `std::string`. A character is one byte, and its length is at most
`max_size()`. -/
structure StdString where
  chars : List Char
  length_lt : chars.length < 2 ^ 63

/-- The failures of the parser: exceptions of the standard library, errors of
`ExplainRowSchema`, and a write behind the array of columns. -/
inductive ExplainFailure where
  | invalidArgument
  | outOfRange
  | s2 (e : S2ClientError)
  | pastTheArray
  deriving DecidableEq, Repr

/-- `std::string::npos` -/
def npos : UInt64 := 0xFFFFFFFFFFFFFFFF

/-- The result of a search. -/
def position : Option Nat → UInt64
  | some i => UInt64.ofNat i
  | none => npos

namespace StdString

variable (s : StdString)

/-- `find`, for a character and for a text. -/
def find (needle : List Char) (pos : UInt64) : UInt64 :=
  position (findFrom needle s.chars pos.toNat)

/-- `operator[]`, with the terminator at the end. -/
def charAt (pos : UInt64) : Char := s.chars.getD pos.toNat '\x00'

def substr (pos count : UInt64) : Except ExplainFailure (List Char) :=
  if s.chars.length < pos.toNat then
    .error .outOfRange
  else
    .ok ((s.chars.drop pos.toNat).take count.toNat)

/-- `strndup(s.c_str() + pos, n)` -/
def strndup (pos n : UInt64) : List Char :=
  ((s.chars.drop pos.toNat).take n.toNat).takeWhile fun c => c != '\x00'

end StdString

/-- `std::transform` with `tolower`. -/
def lower (text : List Char) : List Char := text.map Char.toLower

def isSpace (c : Char) : Bool :=
  c == ' ' || c == '\t' || c == '\n' || c == '\x0b' || c == '\x0c' || c == '\r'

/-- The sign that `strtol` reads, and the text after it. -/
def stoiSign : List Char → Bool × List Char
  | '-' :: text => (true, text)
  | '+' :: text => (false, text)
  | text => (false, text)

def stoi (text : List Char) : Except ExplainFailure Int :=
  let number := stoiSign (text.dropWhile isSpace)
  if number.2.takeWhile Char.isDigit = [] then
    .error .invalidArgument
  else
    let absolute : Int := (Decimal.readNat number.2).1
    let value := if number.1 then -absolute else absolute
    if -2 ^ 31 ≤ value ∧ value < 2 ^ 31 then .ok value else .error .outOfRange

/-- The offsets of one column in the row. -/
structure FieldDefSplit where
  nameStart : UInt64
  nameEnd : UInt64
  typeStart : UInt64
  typeEnd : UInt64
  fieldEnd : UInt64
  deriving DecidableEq, Repr

/-! ## `ExplainToRowSchema` -/

/-- The inner loop: a backtick with another one after it is a part of the name. -/
def skipBackticks (s : StdString) : Nat → UInt64 → Option UInt64
  | 0, _ => none
  | fuel + 1, nameLastBacktick =>
    if s.charAt (nameLastBacktick + 1) = backtick then
      skipBackticks s fuel (s.find [backtick] (nameLastBacktick + 2))
    else
      some nameLastBacktick

/-- The body of the outer loop; `none` when the inner loop takes more turns than
the fuel. -/
def nextFieldDef (s : StdString) (fuel : Nat) (endIdx fieldEndIdx : UInt64) :
    Option FieldDefSplit :=
  let nameStart := s.find [backtick] fieldEndIdx + 1
  (skipBackticks s fuel (s.find [backtick] nameStart)).map fun nameLastBacktick =>
    let nameEnd := nameLastBacktick - 1
    let typeStart := nameEnd + 3
    let typeEnd := s.find [' '] typeStart
    let fieldEnd := s.find [','] typeEnd
    ⟨nameStart, nameEnd, typeStart, typeEnd, if fieldEnd = npos then endIdx else fieldEnd⟩

/-- The outer loop, with the fuel of the inner one and its own number of turns. -/
def fieldDefs (s : StdString) (fuel : Nat) : Nat → UInt64 → UInt64 → Option (List FieldDefSplit)
  | 0, _, _ => none
  | turns + 1, endIdx, fieldEndIdx =>
    if fieldEndIdx < endIdx then
      (nextFieldDef s fuel endIdx fieldEndIdx).bind fun split =>
        (fieldDefs s fuel turns endIdx split.fieldEnd).map fun splits => split :: splits
    else
      some []

def showColumnsIdx (s : StdString) : UInt64 := s.find " show_columns:[".toList 0

def startIdx (s : StdString) : UInt64 := s.find ['['] (showColumnsIdx s)

def endIdx (s : StdString) : UInt64 := s.find "NULL] ".toList (showColumnsIdx s)

/-- The columns that the two loops of `ExplainToRowSchema` cut out. -/
def splitShowColumns (s : StdString) (fuel : Nat) : Option (List FieldDefSplit) :=
  fieldDefs s fuel fuel (endIdx s) (startIdx s)

/-! ## `ShowColumnsToRowSchemaHelper` -/

/-- Where the size of a type comes from. -/
inductive TypeSize where
  | bytes (n : Int)
  | binary
  | char
  deriving DecidableEq, Repr

structure TypeName where
  name : String
  type : ColumnType
  size : TypeSize
  deriving DecidableEq, Repr

/-- The comparisons of the helper, in their order. -/
def typeNames : List TypeName :=
  [⟨"bigint", .int64, .bytes 8⟩,
    ⟨"int", .int32, .bytes 4⟩,
    ⟨"double", .double, .bytes 8⟩,
    ⟨"datetime", .dateTime, .bytes 8⟩,
    ⟨"date", .date, .bytes 4⟩,
    ⟨"time", .time, .bytes 8⟩,
    ⟨"binary", .fixed, .binary⟩,
    ⟨"char", .fixed, .char⟩,
    ⟨"varchar", .variable, .bytes 0⟩,
    ⟨"varbinary", .variable, .bytes 0⟩,
    ⟨"longtext", .variable, .bytes 0⟩,
    ⟨"longblob", .variable, .bytes 0⟩,
    ⟨"mediumblob", .variable, .bytes 0⟩,
    ⟨"blob", .variable, .bytes 0⟩,
    ⟨"tinyblob", .variable, .bytes 0⟩,
    ⟨"mediumtext", .variable, .bytes 0⟩,
    ⟨"text", .variable, .bytes 0⟩,
    ⟨"tinytext", .variable, .bytes 0⟩]

/-- `!col_type.compare(0, n, name, 0, n)`, for one name after the other. -/
def findTypeName (colType : List Char) : Option TypeName :=
  typeNames.find? fun typeName => typeName.name.toList.isPrefixOf colType

/-- A `Column` of the new array. A size that is not assigned stays as the array
had it. -/
structure ExplainedColumn where
  type : ColumnType
  size : Option Int
  name : List Char
  deriving DecidableEq, Repr

/-- The number between the parentheses of a type, whose name has `nameLength`
characters. -/
def sizeInParens (s : StdString) (split : FieldDefSplit) (nameLength : UInt64) :
    Except ExplainFailure Int := do
  let digits ← s.substr (split.typeStart + (nameLength + 1))
    (split.typeEnd - split.typeStart - (nameLength + 2))
  stoi digits

/-- The product of two `int`s. -/
def intProduct (a b : Int) : Int := Int.bmod (a * b) (2 ^ 32)

def charSize (collationPart : List Char) : Int :=
  if (findFrom "utf8mb4".toList (lower collationPart) 0).isSome then 4 else 3

def explainedSize (s : StdString) (split : FieldDefSplit) :
    TypeSize → Except ExplainFailure Int
  | .bytes n => .ok n
  | .binary => sizeInParens s split 6
  | .char => do
    let sizeInChar ← sizeInParens s split 4
    let collationPart ← s.substr split.typeEnd (split.fieldEnd - split.typeEnd + 1)
    pure (intProduct sizeInChar (charSize collationPart))

/-- One turn of the loop of the helper. -/
def explainedColumn (s : StdString) (split : FieldDefSplit) :
    Except ExplainFailure ExplainedColumn := do
  let name := s.strndup split.nameStart (split.nameEnd - split.nameStart + 1)
  let colType ← s.substr split.typeStart (split.typeEnd - split.typeStart + 1)
  match findTypeName (lower colType) with
  | none => pure ⟨.unsupported, none, name⟩
  | some typeName => do
    let size ← explainedSize s split typeName.size
    pure ⟨typeName.type, some size, name⟩

/-- The loop of the helper over an array of `room` columns. -/
def explainedColumns (s : StdString) : Nat → List FieldDefSplit →
    Except ExplainFailure (List ExplainedColumn)
  | _, [] => .ok []
  | 0, _ :: _ => .error .pastTheArray
  | room + 1, split :: splits => do
    let column ← explainedColumn s split
    let columns ← explainedColumns s room splits
    pure (column :: columns)

structure ExplainedSchema where
  numColumns : UInt32
  columnInfo : List ExplainedColumn
  deriving DecidableEq, Repr

def showColumnsToRowSchemaHelper (s : StdString) (splits : List FieldDefSplit) :
    Except ExplainFailure ExplainedSchema := do
  let numColumns := UInt32.ofNat splits.length
  let columnInfo ← explainedColumns s numColumns.toNat splits
  pure ⟨numColumns, columnInfo⟩

/-- `ExplainToRowSchema`, with the fuel for its loops. -/
def explainToRowSchema (s : StdString) (fuel : Nat) :
    Option (Except ExplainFailure ExplainedSchema) :=
  (splitShowColumns s fuel).map (showColumnsToRowSchemaHelper s)

/-! ## `ExplainRowSchema` -/

/-- The text of the rows that are read, for the message. -/
def explainText (rows : List StdString) : String :=
  String.join (rows.map fun row => String.ofList row.chars ++ "\n\t")

/-- `ExplainRowSchema`, from the rows of the plan on. -/
def explainRowSchema (query : String) (rows : List StdString) (fuel : Nat) :
    Option (Except ExplainFailure ExplainedSchema) :=
  match rows.find? fun row => isResultTable (String.ofList row.chars) with
  | none =>
    some (.error (.s2 ⟨s2cErrorUnknownFailure, "Invalid EXPLAIN result from query: " ++ query ++
      "\nResult is:\n\t" ++ explainText rows⟩))
  | some row =>
    (explainToRowSchema row fuel).map fun parsed => do
      let schema ← parsed
      if schema.numColumns = 0 then
        .error (.s2 ⟨s2cErrorUnknownFailure,
          "Unable to parse EXPLAIN result to get row schema: " ++ String.ofList row.chars⟩)
      else
        pure schema

/-- **A plan without a row of a result table**: `ExplainRowSchema` throws, and
`CheckExplainOperations` accepts it. -/
theorem explainRowSchema_noTable (query : String) {rows : List StdString} (fuel : Nat)
    (h : ∀ row ∈ rows, isResultTable (String.ofList row.chars) = false) :
    (∃ message, explainRowSchema query rows fuel =
        some (.error (.s2 ⟨s2cErrorUnknownFailure, message⟩))) ∧
      checkExplainOperations (rows.map fun row => String.ofList row.chars) = true := by
  constructor
  · have hnone : (rows.find? fun row => isResultTable (String.ofList row.chars)) = none := by
      rw [List.find?_eq_none]
      intro row hrow
      rw [h row hrow]
      exact Bool.false_ne_true
    rw [explainRowSchema, hnone]
    exact ⟨_, rfl⟩
  · refine checkExplainOperations_skip ?_
    intro text htext
    obtain ⟨row, hrow, rfl⟩ := List.mem_map.mp htext
    exact h row hrow

end SasLibclient
