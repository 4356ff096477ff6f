import SasLibclient.Sql.LoadDataQuery
import SasLibclient.Sql.ReadQuery
import SasLibclient.Text.TokenLists

/-!
# The AVRO statement (`utils.cpp`)

`avro_assigns_once` reads both parts of the statement that `MakeLoadDataQuery`
makes for AVRO: every column is assigned once, from the field that is declared
for it.
-/

namespace SasLibclient

open Quoting Tokens

/-! ## Reading the statement -/

/-- What an item of the mapping part assigns. -/
inductive Target where
  | column (name : List Char)
  | «variable» (name : List Char)
  deriving DecidableEq, Repr

/-- `target <- %::field` -/
structure Mapping where
  target : Target
  field : List Char
  deriving DecidableEq, Repr

/-- `column = expression`, with the variables of the expression in order. -/
structure Assignment where
  column : List Char
  used : List (List Char)
  deriving DecidableEq, Repr

def readTarget : Token → Option Target
  | .name text => some (.column text)
  | .variable text => some (.variable text)
  | _ => none

def readMapping : List Token → Option Mapping
  | token :: ts => do
    let target ← readTarget token
    match ← expect [.symbol '<', .symbol '-', .symbol '%', .symbol ':', .symbol ':'] ts with
    | [.word field] => some ⟨target, field⟩
    | _ => none
  | [] => none

/-- The items of the mapping part. -/
def readMappings (text : List Char) : Option (List Mapping) :=
  (splitItems (tokens text)).mapM readMapping

def readAssignment : List Token → Option Assignment
  | .name column :: ts => (expect [.symbol '='] ts).map fun ts => ⟨column, variablesOf ts⟩
  | _ => none

/-- The items of the SET part, which may be empty. -/
def readAssignments (text : List Char) : Option (List Assignment) :=
  if text = [] then some []
  else (expect [.word "SET".toList] (tokens text)).bind fun ts =>
    (splitItems ts).mapM readAssignment

def Json.member (key : String) : Json → Option Json
  | .object members => (members.find? fun entry => entry.1 == key).map Prod.snd
  | _ => none

def Json.asString : Json → Option String
  | .string value => some value
  | _ => none

/-- The names of the fields of a record, in order. -/
def declaredFields (document : Json) : Option (List String) :=
  match document.member "fields" with
  | some (.array items) => items.mapM fun item => (item.member "name").bind Json.asString
  | _ => none

/-! ## The loop of `MakeColumnsAvro` -/

section Loop

variable (treatZeroLenAsNull : Bool)

/-- The item of a column in the mapping part. -/
def mappingItem (entry : Column × Nat) : String :=
  (match avroExpression treatZeroLenAsNull (makeAvroVarName entry.2) entry.1.type with
    | some _ => makeAvroVarName entry.2
    | none => quotedName entry.1.name) ++ " <- %::" ++ makeAvroFieldName entry.2

/-- The item of a column in the SET part. -/
def assignmentItem (entry : Column × Nat) : Option String :=
  (avroExpression treatZeroLenAsNull (makeAvroVarName entry.2) entry.1.type).map fun expression =>
    quotedName entry.1.name ++ expression

/-- The SET part with these items. -/
def setPart (items : List String) : String :=
  if items = [] then "" else "SET " ++ ",".intercalate items

theorem setPart_eq_empty_iff {items : List String} : setPart items = "" ↔ items = [] := by
  rw [setPart]
  split
  · rename_i hitems
    exact iff_of_true rfl hitems
  · rename_i hitems
    refine iff_of_false ?_ hitems
    intro hempty
    have hlength := congrArg String.length hempty
    rw [String.length_append] at hlength
    exact absurd hlength (by simp)

variable {treatZeroLenAsNull}

/-- One turn appends an item to the mapping part, and at most one to the SET part. -/
theorem avroColumn_eq (i : Nat) (column : Column) (mapped computed : List String)
    (hlength : mapped.length = i) :
    avroColumn treatZeroLenAsNull i column (",".intercalate mapped, setPart computed) =
      (",".intercalate (mapped ++ [mappingItem treatZeroLenAsNull (column, i)]),
        setPart (computed ++ (assignmentItem treatZeroLenAsNull (column, i)).toList)) := by
  have hmapping : ∀ item, (if 0 < i then ",".intercalate mapped ++ "," else ",".intercalate mapped)
      ++ item = ",".intercalate (mapped ++ [item]) := by
    intro item
    cases mapped with
    | nil => simp [← hlength]
    | cons first mapped =>
      rw [if_pos (by rw [← hlength]; exact Nat.succ_pos _),
        String.intercalate_append_of_ne_nil (List.cons_ne_nil _ _) (List.cons_ne_nil _ _),
        String.intercalate_singleton]
  have hset : ∀ item, (if 0 < (setPart computed).length then setPart computed ++ ","
      else setPart computed ++ "SET ") ++ item = setPart (computed ++ [item]) := by
    intro item
    cases computed with
    | nil => simp [setPart]
    | cons first computed =>
      have hpos : 0 < (setPart (first :: computed)).length := by
        rw [Nat.pos_iff_ne_zero, ne_eq, String.length_eq_zero_iff, setPart_eq_empty_iff]
        exact List.cons_ne_nil _ _
      rw [if_pos hpos, setPart, setPart, if_neg (List.cons_ne_nil _ _), if_neg (by simp),
        String.intercalate_append_of_ne_nil (List.cons_ne_nil _ _) (List.cons_ne_nil _ _),
        String.intercalate_singleton, ← String.append_assoc, ← String.append_assoc]
  unfold avroColumn mappingItem assignmentItem
  dsimp only
  cases avroExpression treatZeroLenAsNull (makeAvroVarName i) column.type with
  | some expression =>
    dsimp only
    rw [hmapping, hset]
    rfl
  | none =>
    dsimp only
    rw [hmapping]
    simp

theorem avroColumns_eq (i : Nat) (columns : List Column) (mapped computed : List String)
    (hlength : mapped.length = i) :
    avroColumns treatZeroLenAsNull i columns (",".intercalate mapped, setPart computed) =
      (",".intercalate (mapped ++ (columns.zipIdx i).map (mappingItem treatZeroLenAsNull)),
        setPart (computed ++ (columns.zipIdx i).filterMap (assignmentItem treatZeroLenAsNull))) := by
  induction columns generalizing i mapped computed with
  | nil => simp [avroColumns]
  | cons column columns ih =>
    rw [avroColumns, avroColumn_eq i column mapped computed hlength, ih]
    · rw [List.zipIdx_cons, List.map_cons, List.filterMap_cons, List.append_assoc,
        List.append_assoc]
      cases assignmentItem treatZeroLenAsNull (column, i) <;> rfl
    · rw [List.length_append, hlength]
      rfl

/-- **Both parts** list the items of the columns. -/
theorem makeColumnsAvro_eq (schema : RowSchema) (treatZeroLenAsNull : Bool) :
    makeColumnsAvro schema treatZeroLenAsNull =
      (",".intercalate (schema.columnInfo.zipIdx.map (mappingItem treatZeroLenAsNull)),
        setPart (schema.columnInfo.zipIdx.filterMap (assignmentItem treatZeroLenAsNull))) := by
  have hloop := @avroColumns_eq treatZeroLenAsNull 0 schema.columnInfo [] []
    rfl
  exact hloop

end Loop

/-! ## The tokens of the items -/

/-- The name of a variable without the `@`. -/
def avroVarText (i : Nat) : List Char := "var_".toList ++ i.repr.toList

/-- The literals of the expression of a type; the variable stands between them. -/
def avroLiterals : ColumnType → List String
  | .int64 => [" = IF(", " != -9223372036854775808,", ",NULL)"]
  | .int32 => [" = IF(", " != -2147483648,", ",NULL)"]
  | .dateTime => [" = ADDDATE(\"1960-01-01\", INTERVAL ", " MICROSECOND)"]
  | .time => ["= IF(", "= -9223372036854775808,NULL,CONCAT(IF(",
      "> 0, '', '-'),ADDTIME(SEC_TO_TIME(FLOOR(ABS(", "/1000000))),CONCAT('00:00:00.',LPAD(ABS(",
      ") % 1000000 :> TEXT, 6, '0')))))"]
  | .date => [" = ADDDATE(\"1960-01-01\", INTERVAL ", " DAY)"]
  | .fixed | .variable => [" = IF(LENGTH(", ") = 0, NULL,", ")"]
  | .double | .unsupported => []

section Items

variable {treatZeroLenAsNull : Bool} {var expression : String} {type : ColumnType}

theorem avroExpression_toList (h : avroExpression treatZeroLenAsNull var type = some expression) :
    expression.toList = var.toList.intercalate ((avroLiterals type).map String.toList) := by
  cases type with
  | int64 | int32 | dateTime | time | date =>
    obtain rfl := Option.some.inj h
    simp only [avroLiterals, String.toList_append, List.map_cons, List.map_nil,
      List.intercalate_cons_cons, List.intercalate_singleton, List.append_assoc]
  | fixed | «variable» =>
    unfold avroExpression at h
    dsimp only at h
    split at h
    · obtain rfl := Option.some.inj h
      simp only [avroLiterals, String.toList_append, List.map_cons, List.map_nil,
        List.intercalate_cons_cons, List.intercalate_singleton, List.append_assoc]
    · cases h
  | double | unsupported => cases h

/-- What the reader needs of the literals: they are a template that uses its
variable, behind an equals sign. -/
structure ComputesFrom (literals : List (List Char)) : Prop where
  template : Template literals
  uses : 2 ≤ literals.length
  equals : ∃ literal rest ts, literals = literal :: rest ∧ literalTokens literal = .symbol '=' :: ts

theorem computesFrom_avroLiterals
    (h : avroExpression treatZeroLenAsNull var type = some expression) :
    ComputesFrom ((avroLiterals type).map String.toList) := by
  have hliterals : ∀ literal rest, isTemplate (literal :: rest) = true → 1 ≤ rest.length →
      (literalTokens literal).head? = some (.symbol '=') → ComputesFrom (literal :: rest) := by
    intro literal rest htemplate hlength hhead
    refine ⟨template_of_isTemplate (List.cons_ne_nil _ _) htemplate, Nat.succ_le_succ hlength, ?_⟩
    obtain ⟨ts, hts⟩ : ∃ ts, literalTokens literal = .symbol '=' :: ts := by
      cases htokens : literalTokens literal with
      | nil =>
        rw [htokens] at hhead
        cases hhead
      | cons token ts =>
        rw [htokens] at hhead
        exact ⟨ts, by rw [Option.some.inj hhead]⟩
    exact ⟨literal, rest, ts, rfl, hts⟩
  cases type with
  | int64 | int32 | dateTime | time | date | fixed | «variable» =>
    exact hliterals _ _ (by decide +kernel) (by decide) (by decide +kernel)
  | double | unsupported => cases h

/-- A number behind letters and underscores. -/
theorem isWordChar_number {text : List Char} (htext : ∀ c ∈ text, isWordChar c = true) (n : Nat) :
    ∀ c ∈ text ++ n.repr.toList, isWordChar c = true := by
  intro c hc
  rcases List.mem_append.mp hc with hc | hc
  · exact htext c hc
  · rw [Nat.toList_repr] at hc
    exact isWordChar_of_isDigit (Nat.isDigit_of_mem_toDigits (by decide) (by decide) hc)

theorem run_makeAvroVarName (i : Nat) :
    run .blank (makeAvroVarName i).toList = ([], .variable (avroVarText i)) := by
  have hvar : run .blank "@var_".toList = ([], .variable "var_".toList) := rfl
  have hnone : ∀ c ∈ ([] : List Char), isWordChar c = true := nofun
  have hdigits := isWordChar_number hnone i
  rw [List.nil_append] at hdigits
  unfold makeAvroVarName
  rw [String.toList_append, run_append, hvar, run_variable hdigits]
  rfl

theorem tokens_makeAvroFieldName (i : Nat) :
    tokens (makeAvroFieldName i).toList = [.word (makeAvroFieldName i).toList] ∧
      (run .blank (makeAvroFieldName i).toList).2.ended = true := by
  have hchars : ∀ c ∈ (makeAvroFieldName i).toList, isWordChar c = true := by
    unfold makeAvroFieldName
    rw [String.toList_append]
    exact isWordChar_number (List.all_eq_true.mp rfl) i
  have hne : (makeAvroFieldName i).toList ≠ [] := by
    unfold makeAvroFieldName
    rw [String.toList_append]
    exact List.append_ne_nil_of_left_ne_nil (by decide) _
  have hrun := run_word_blank hne hchars
  rw [tokens, hrun]
  exact ⟨rfl, rfl⟩

/-- What the mapping part assigns of a column. -/
def mappingTarget (treatZeroLenAsNull : Bool) (entry : Column × Nat) : Target :=
  match avroExpression treatZeroLenAsNull (makeAvroVarName entry.2) entry.1.type with
  | some _ => .variable (avroVarText entry.2)
  | none => .column entry.1.name.toList

def mappingOf (treatZeroLenAsNull : Bool) (entry : Column × Nat) : Mapping :=
  ⟨mappingTarget treatZeroLenAsNull entry, (makeAvroFieldName entry.2).toList⟩

/-- An item that its reader reads, in a list of items. -/
structure ReadsAs {α : Type} (read : List Token → Option α) (text : List Char) (value : α) :
    Prop where
  ended : (run .blank text).2.ended = true
  ne_nil : tokens text ≠ []
  nesting : nesting 0 (tokens text) = some 0
  read : read (tokens text) = some value

/-- An arrow and a field behind a name or a variable. -/
theorem readsAs_mapping {text : List Char} {token : Token} {target : Target} (i : Nat)
    (htext : tokens text = [token]) (hended : (run .blank text).2.ended = true)
    (htarget : readTarget token = some target) :
    ReadsAs readMapping (text ++ (" <- %::".toList ++ (makeAvroFieldName i).toList))
      ⟨target, (makeAvroFieldName i).toList⟩ := by
  have harrow : run .blank " <- %::".toList =
      ([.symbol '<', .symbol '-', .symbol '%', .symbol ':', .symbol ':'], .blank) := rfl
  have hseparated : Separated " <- %::".toList := ⟨_, _, rfl, by decide⟩
  obtain ⟨hfield, hend⟩ := tokens_makeAvroFieldName i
  have htokens : tokens (text ++ (" <- %::".toList ++ (makeAvroFieldName i).toList)) =
      token :: ([.symbol '<', .symbol '-', .symbol '%', .symbol ':', .symbol ':'] ++
        [.word (makeAvroFieldName i).toList]) := by
    rw [tokens_append_boundary hended (hseparated.append _), tokens_append_blank harrow, htext,
      hfield]
    rfl
  refine ⟨?_, ?_, ?_, ?_⟩
  · rw [state_append_boundary hended (hseparated.append _), run_append, harrow]
    exact hend
  · rw [htokens]
    exact List.cons_ne_nil _ _
  · rw [htokens]
    cases token with
    | name | «variable» => rfl
    | word | string | symbol | unterminated => cases htarget
  · rw [htokens]
    simp only [readMapping, htarget, expect_append, Option.bind_eq_bind, Option.bind_some]

theorem readsAs_mappingItem (treatZeroLenAsNull : Bool) (entry : Column × Nat) :
    ReadsAs readMapping (mappingItem treatZeroLenAsNull entry).toList
      (mappingOf treatZeroLenAsNull entry) := by
  obtain ⟨column, i⟩ := entry
  unfold mappingItem mappingOf mappingTarget
  dsimp only
  cases avroExpression treatZeroLenAsNull (makeAvroVarName i) column.type with
  | some expression =>
    have hrun := run_makeAvroVarName i
    have htokens : tokens (makeAvroVarName i).toList = [.variable (avroVarText i)] := by
      rw [tokens, hrun]
      rfl
    rw [String.toList_append, String.toList_append, List.append_assoc]
    exact readsAs_mapping i htokens (by rw [hrun]; rfl) rfl
  | none =>
    rw [String.toList_append, String.toList_append, List.append_assoc, quotedName_toList]
    exact readsAs_mapping i (tokens_quote _) (ended_quote _) rfl

/-- What the SET part assigns of a column. -/
def assignmentOf (entry : Column × Nat) : Assignment :=
  ⟨entry.1.name.toList,
    List.replicate ((avroLiterals entry.1.type).length - 1) (avroVarText entry.2)⟩

theorem readsAs_assignmentItem {entry : Column × Nat} {item : String}
    (h : assignmentItem treatZeroLenAsNull entry = some item) :
    ReadsAs readAssignment item.toList (assignmentOf entry) := by
  obtain ⟨column, i⟩ := entry
  obtain ⟨expression, hexpression, rfl⟩ := Option.map_eq_some_iff.mp h
  have hliterals := computesFrom_avroLiterals hexpression
  obtain ⟨htokens, hended⟩ := hliterals.template.tokens_name (run_makeAvroVarName i)
    column.name.toList
  obtain ⟨literal, rest, ts, hfirst, hequals⟩ := hliterals.equals
  obtain ⟨tail, htail⟩ := fill_head hequals (avroVarText i) rest
  rw [← hfirst] at htail
  have htext : (quotedName column.name ++ expression).toList =
      quote nameQuote nameQuote column.name.toList ++
        (makeAvroVarName i).toList.intercalate ((avroLiterals column.type).map String.toList) := by
    rw [String.toList_append, quotedName_toList, avroExpression_toList hexpression]
    rfl
  have hused := variablesOf_fill (avroVarText i) hliterals.template.noVariable
  have hnesting := (nesting_fill 0 (avroVarText i) _).trans hliterals.template.nesting
  dsimp only at htext ⊢
  rw [htext]
  refine ⟨hended, by rw [htokens]; exact List.cons_ne_nil _ _, ?_, ?_⟩
  · rw [htokens]
    exact hnesting
  · rw [htail] at hused
    have hexpect := expect_append [.symbol '='] tail
    rw [List.singleton_append] at hexpect
    rw [htokens, htail, readAssignment, hexpect, Option.map_some, assignmentOf]
    rw [List.length_map] at hused
    rw [← hused]
    rfl

theorem ReadsAs.all {α γ : Type} {read : List Token → Option α} {entries : List γ}
    {text : γ → List Char} {value : γ → α}
    (h : ∀ entry ∈ entries, ReadsAs read (text entry) (value entry)) :
    (splitItems (tokens ([','].intercalate (entries.map text)))).mapM read =
      some (entries.map value) := by
  have hsplit : splitItems (tokens ([','].intercalate (entries.map text))) =
      (entries.map text).map tokens := by
    rw [(tokens_intercalate ?_).1]
    · apply splitItems_intercalate
      intro item hitem
      rw [List.map_map] at hitem
      obtain ⟨entry, hentry, rfl⟩ := List.mem_map.mp hitem
      exact ⟨(h entry hentry).ne_nil, (h entry hentry).nesting⟩
    · intro item hitem
      obtain ⟨entry, hentry, rfl⟩ := List.mem_map.mp hitem
      exact (h entry hentry).ended
  rw [hsplit]
  clear hsplit
  induction entries with
  | nil => rfl
  | cons entry entries ih =>
    obtain ⟨hentry, hrest⟩ := List.forall_mem_cons.mp h
    simp only [List.map_cons, List.mapM_cons, hentry.read, ih hrest, Option.bind_eq_bind,
      Option.bind_some, Option.pure_def]

end Items

/-! ## Both parts -/

section Parts

variable {schema : RowSchema} {treatZeroLenAsNull : Bool}

/-- The column is computed in the SET part. -/
def isComputed (treatZeroLenAsNull : Bool) (entry : Column × Nat) : Bool :=
  (assignmentItem treatZeroLenAsNull entry).isSome

def mappingsOf (schema : RowSchema) (treatZeroLenAsNull : Bool) : List Mapping :=
  schema.columnInfo.zipIdx.map (mappingOf treatZeroLenAsNull)

def assignmentsOf (schema : RowSchema) (treatZeroLenAsNull : Bool) : List Assignment :=
  (schema.columnInfo.zipIdx.filter (isComputed treatZeroLenAsNull)).map assignmentOf

/-- **The mapping part** is read back. -/
theorem readMappings_makeColumnsAvro (schema : RowSchema) (treatZeroLenAsNull : Bool) :
    readMappings (makeColumnsAvro schema treatZeroLenAsNull).1.toList =
      some (mappingsOf schema treatZeroLenAsNull) := by
  rw [makeColumnsAvro_eq, readMappings, String.toList_intercalate, comma_toList, List.map_map]
  exact ReadsAs.all fun entry _ => readsAs_mappingItem treatZeroLenAsNull entry

theorem filterMap_assignmentItem (entries : List (Column × Nat)) :
    entries.filterMap (assignmentItem treatZeroLenAsNull) =
      (entries.filter (isComputed treatZeroLenAsNull)).map fun entry =>
        (assignmentItem treatZeroLenAsNull entry).getD "" := by
  induction entries with
  | nil => rfl
  | cons entry entries ih =>
    rw [List.filterMap_cons, List.filter_cons, isComputed]
    cases hitem : assignmentItem treatZeroLenAsNull entry with
    | none => simpa using ih
    | some item => simpa [hitem] using ih

/-- **The SET part** is read back. -/
theorem readAssignments_makeColumnsAvro (schema : RowSchema) (treatZeroLenAsNull : Bool) :
    readAssignments (makeColumnsAvro schema treatZeroLenAsNull).2.toList =
      some (assignmentsOf schema treatZeroLenAsNull) := by
  rw [makeColumnsAvro_eq, readAssignments, filterMap_assignmentItem, assignmentsOf, setPart]
  dsimp only
  generalize hentries : schema.columnInfo.zipIdx.filter (isComputed treatZeroLenAsNull) = entries
  have hread : ∀ entry ∈ entries, ReadsAs readAssignment
      ((assignmentItem treatZeroLenAsNull entry).getD "").toList (assignmentOf entry) := by
    intro entry hentry
    rw [← hentries, List.mem_filter, isComputed, Option.isSome_iff_exists] at hentry
    obtain ⟨_, item, hitem⟩ := hentry
    rw [hitem]
    exact readsAs_assignmentItem hitem
  have hset : run .blank "SET ".toList = ([.word "SET".toList], .blank) := rfl
  by_cases hnone : entries = []
  · rw [hnone]
    rfl
  · have hne : entries.map (fun entry => (assignmentItem treatZeroLenAsNull entry).getD "") ≠ [] :=
      fun h => hnone (List.map_eq_nil_iff.mp h)
    have htext : ("SET " ++ ",".intercalate (entries.map fun entry =>
        (assignmentItem treatZeroLenAsNull entry).getD "")).toList ≠ [] := by
      rw [String.toList_append]
      exact List.append_ne_nil_of_left_ne_nil (by decide) _
    rw [if_neg hne, if_neg htext, String.toList_append, tokens_append_blank hset, expect_append,
      Option.bind_some, String.toList_intercalate, comma_toList, List.map_map]
    exact ReadsAs.all hread

/-- **The JSON document** declares the fields in order. -/
theorem declaredFields_makeAvroJsonSchema
    (h : ∀ column ∈ schema.columnInfo, column.type ≠ .unsupported) :
    ∃ document, makeAvroJsonSchema schema = .ok document ∧
      declaredFields document =
        some (schema.columnInfo.zipIdx.map fun entry => makeAvroFieldName entry.2) := by
  have hfields : ∀ (columns : List Column) (i : Nat),
      (∀ column ∈ columns, column.type ≠ .unsupported) →
      ∃ items, avroFields i columns = .ok items ∧
        items.mapM (fun item => (item.member "name").bind Json.asString) =
          some ((columns.zipIdx i).map fun entry => makeAvroFieldName entry.2) := by
    intro columns
    induction columns with
    | nil => exact fun i _ => ⟨[], rfl, rfl⟩
    | cons column columns ih =>
      intro i hcolumns
      obtain ⟨hcolumn, hrest⟩ := List.forall_mem_cons.mp hcolumns
      obtain ⟨items, hitems, hnames⟩ := ih (i + 1) hrest
      obtain ⟨type, htype⟩ : ∃ type, avroType column.type = some type := by
        cases hcase : column.type with
        | unsupported => exact absurd hcase hcolumn
        | _ => exact ⟨_, rfl⟩
      refine ⟨.object [("name", .string (makeAvroFieldName i)), ("type", .string type)] :: items, ?_, ?_⟩
      · rw [avroFields, htype, hitems]
      · rw [List.mapM_cons, hnames, List.zipIdx_cons, List.map_cons]
        rfl
  obtain ⟨items, hitems, hnames⟩ := hfields schema.columnInfo 0 h
  refine ⟨_, by rw [makeAvroJsonSchema, hitems], ?_⟩
  exact hnames

end Parts

/-! ## Every column is assigned once -/

/-- The values of the type are computed from a variable: numbers of which one
stands for NULL, dates and times, and texts when the empty one stands for NULL. -/
def ColumnType.needsVariable (treatZeroLenAsNull : Bool) : ColumnType → Bool
  | .int64 | .int32 | .dateTime | .time | .date => true
  | .fixed | .variable => treatZeroLenAsNull
  | .double | .unsupported => false

/-- The column that an item of the mapping part assigns directly. -/
def Mapping.column? (mapping : Mapping) : Option (List Char) :=
  match mapping.target with
  | .column name => some name
  | .variable _ => none

/-- The assignments that use the variable of column `i`. -/
def usesOf (assignments : List Assignment) (i : Nat) : List Assignment :=
  assignments.filter fun assignment => decide (avroVarText i ∈ assignment.used)

/-- What a statement for these columns must assign. -/
structure AssignsOnce (treatZeroLenAsNull : Bool) (columns : List Column)
    (mappings : List Mapping) (assignments : List Assignment) : Prop where
  length : mappings.length = columns.length
  /-- the targets, with the number of times each occurs -/
  targets : (mappings.filterMap Mapping.column? ++ assignments.map Assignment.column).Perm
    (columns.map fun column => column.name.toList)
  /-- item `i` reads field `i`; its column is assigned there or, when it needs a
  variable, by one assignment from its variable -/
  item : ∀ i column, columns[i]? = some column → ∃ mapping, mappings[i]? = some mapping ∧
    mapping.field = (makeAvroFieldName i).toList ∧
    if column.type.needsVariable treatZeroLenAsNull then
      mapping.target = .variable (avroVarText i) ∧
        ∃ assignment, usesOf assignments i = [assignment] ∧
          assignment.column = column.name.toList
    else
      mapping.target = .column column.name.toList ∧ usesOf assignments i = []
  /-- the variables are those that the mapping part assigns -/
  used : ∀ assignment ∈ assignments, assignment.used ≠ [] ∧ ∀ var ∈ assignment.used,
    ∃ i mapping, mappings[i]? = some mapping ∧ var = avroVarText i ∧
      mapping.target = .variable var

section Once

variable {columns : List Column} {schema : RowSchema} {treatZeroLenAsNull : Bool}

theorem avroVarText_injective {i j : Nat} (h : avroVarText i = avroVarText j) : i = j :=
  repr_injective (List.append_cancel_left h)

theorem isComputed_eq (entry : Column × Nat) :
    isComputed treatZeroLenAsNull entry =
      (avroExpression treatZeroLenAsNull (makeAvroVarName entry.2) entry.1.type).isSome :=
  Option.isSome_map

theorem isComputed_eq_needsVariable (treatZeroLenAsNull : Bool) (entry : Column × Nat) :
    isComputed treatZeroLenAsNull entry = entry.1.type.needsVariable treatZeroLenAsNull := by
  rw [isComputed_eq]
  cases entry.1.type with
  | fixed | «variable» => cases treatZeroLenAsNull <;> rfl
  | int64 | int32 | dateTime | time | date | double | unsupported => rfl

theorem mappingTarget_eq (entry : Column × Nat) :
    mappingTarget treatZeroLenAsNull entry =
      if isComputed treatZeroLenAsNull entry then .variable (avroVarText entry.2)
      else .column entry.1.name.toList := by
  rw [isComputed_eq, mappingTarget]
  cases avroExpression treatZeroLenAsNull (makeAvroVarName entry.2) entry.1.type <;> rfl

/-- A computed column uses its own variable, and no other one. -/
theorem mem_used_iff {entry : Column × Nat} (h : isComputed treatZeroLenAsNull entry = true)
    (var : List Char) : var ∈ (assignmentOf entry).used ↔ var = avroVarText entry.2 := by
  rw [isComputed_eq, Option.isSome_iff_exists] at h
  obtain ⟨expression, hexpression⟩ := h
  have huses := (computesFrom_avroLiterals hexpression).uses
  rw [List.length_map] at huses
  rw [assignmentOf, List.mem_replicate]
  constructor
  · exact fun hmem => hmem.2
  · exact fun hvar => ⟨by omega, hvar⟩

/-- Each column is the target of its mapping item or of its assignment. -/
theorem targets_perm (schema : RowSchema) (treatZeroLenAsNull : Bool) :
    ((mappingsOf schema treatZeroLenAsNull).filterMap Mapping.column? ++
      (assignmentsOf schema treatZeroLenAsNull).map Assignment.column).Perm
      (schema.columnInfo.map fun column => column.name.toList) := by
  have hnames : ∀ entries : List (Column × Nat),
      ((entries.map (mappingOf treatZeroLenAsNull)).filterMap Mapping.column? ++
        ((entries.filter (isComputed treatZeroLenAsNull)).map assignmentOf).map
          Assignment.column).Perm (entries.map fun entry => entry.1.name.toList) := by
    intro entries
    induction entries with
    | nil => exact .nil
    | cons entry entries ih =>
      have hcolumn : (mappingOf treatZeroLenAsNull entry).column? =
          if isComputed treatZeroLenAsNull entry then none else some entry.1.name.toList := by
        rw [Mapping.column?, mappingOf, mappingTarget_eq]
        cases isComputed treatZeroLenAsNull entry <;> rfl
      rw [List.map_cons, List.filterMap_cons, List.filter_cons, hcolumn, List.map_cons]
      cases isComputed treatZeroLenAsNull entry with
      | false => exact ih.cons _
      | true => exact List.perm_middle.trans (ih.cons _)
  have hzip : schema.columnInfo.zipIdx.map (fun entry => entry.1.name.toList) =
      schema.columnInfo.map fun column => column.name.toList := by
    conv_rhs => rw [← List.zipIdx_map_fst 0 schema.columnInfo, List.map_map]
    rfl
  rw [← hzip]
  exact hnames _

theorem filter_zipIdx {i : Nat} {column : Column} (h : columns[i]? = some column) (start : Nat) :
    ((columns.zipIdx start).filter fun entry => decide (entry.2 = start + i)) =
      [(column, start + i)] := by
  induction columns generalizing start i with
  | nil => cases h
  | cons first columns ih =>
    rw [List.zipIdx_cons, List.filter_cons]
    cases i with
    | zero =>
      obtain rfl := Option.some.inj h
      have hrest : ((columns.zipIdx (start + 1)).filter fun entry => decide (entry.2 = start + 0)) =
          [] := by
        rw [List.filter_eq_nil_iff]
        rintro ⟨column', j⟩ hmem
        have hle := (List.mem_zipIdx hmem).1
        simp only [decide_eq_true_eq]
        omega
      rw [hrest]
      simp
    | succ i =>
      have hne : ¬ start = start + (i + 1) := by omega
      have htail := ih (i := i) h (start + 1)
      rw [Nat.add_right_comm, Nat.add_assoc] at htail
      simpa [hne] using htail

/-- The variable of a column is used by its assignment, if it has one. -/
theorem usesOf_assignmentsOf {i : Nat} {column : Column}
    (h : schema.columnInfo[i]? = some column) :
    usesOf (assignmentsOf schema treatZeroLenAsNull) i =
      if isComputed treatZeroLenAsNull (column, i) then [assignmentOf (column, i)] else [] := by
  have hone := filter_zipIdx h 0
  rw [Nat.zero_add] at hone
  have hfilter : (schema.columnInfo.zipIdx.filter (isComputed treatZeroLenAsNull)).filter
      (fun entry => decide (avroVarText i ∈ (assignmentOf entry).used)) =
      ((schema.columnInfo.zipIdx.filter fun entry => decide (entry.2 = i)).filter
        (isComputed treatZeroLenAsNull)) := by
    rw [List.filter_filter, List.filter_filter]
    apply List.filter_congr
    intro entry _
    cases hcomputed : isComputed treatZeroLenAsNull entry with
    | false => simp
    | true =>
      have hiff : avroVarText i = avroVarText entry.2 ↔ entry.2 = i :=
        ⟨fun heq => (avroVarText_injective heq).symm, fun heq => by rw [heq]⟩
      simp only [mem_used_iff hcomputed, hiff, Bool.and_true, Bool.true_and]
  rw [usesOf, assignmentsOf, List.filter_map]
  show List.map assignmentOf ((schema.columnInfo.zipIdx.filter (isComputed treatZeroLenAsNull)).filter
    (fun entry => decide (avroVarText i ∈ (assignmentOf entry).used))) = _
  rw [hfilter, hone, List.filter_singleton]
  cases isComputed treatZeroLenAsNull (column, i) <;> rfl

/-- **The items that are read** assign every column once. -/
theorem assignsOnce (schema : RowSchema) (treatZeroLenAsNull : Bool) :
    AssignsOnce treatZeroLenAsNull schema.columnInfo (mappingsOf schema treatZeroLenAsNull)
      (assignmentsOf schema treatZeroLenAsNull) := by
  have hmapping : ∀ i column, schema.columnInfo[i]? = some column →
      (mappingsOf schema treatZeroLenAsNull)[i]? =
        some (mappingOf treatZeroLenAsNull (column, i)) := by
    intro i column hcolumn
    rw [mappingsOf, List.getElem?_map, List.getElem?_zipIdx, hcolumn, Nat.zero_add]
    rfl
  refine ⟨?_, targets_perm schema treatZeroLenAsNull, ?_, ?_⟩
  · rw [mappingsOf, List.length_map, List.length_zipIdx]
  · intro i column hcolumn
    refine ⟨_, hmapping i column hcolumn, rfl, ?_⟩
    have hneeds := isComputed_eq_needsVariable treatZeroLenAsNull (column, i)
    rw [usesOf_assignmentsOf hcolumn, mappingOf, mappingTarget_eq, ← hneeds]
    cases isComputed treatZeroLenAsNull (column, i) with
    | false => exact ⟨rfl, rfl⟩
    | true => exact ⟨rfl, _, rfl, rfl⟩
  · intro assignment hassignment
    obtain ⟨⟨column, i⟩, hentry, rfl⟩ := List.mem_map.mp hassignment
    obtain ⟨hmem, hcomputed⟩ := List.mem_filter.mp hentry
    have hcolumn := List.mem_zipIdx_iff_getElem?.mp hmem
    have hused := mem_used_iff hcomputed
    refine ⟨List.ne_nil_of_mem ((hused _).mpr rfl), ?_⟩
    intro var hvar
    obtain rfl := (hused var).mp hvar
    refine ⟨i, _, hmapping i column hcolumn, rfl, ?_⟩
    rw [mappingOf, mappingTarget_eq, hcomputed]
    rfl

end Once

/-- **The AVRO statement assigns every column exactly once**, from the field that
the JSON schema declares for it, through a variable exactly when its type needs
one; the SET part is empty when no column does, and starts with `SET ` otherwise. -/
theorem avro_assigns_once (schema : RowSchema) (treatZeroLenAsNull : Bool)
    (hsupported : ∀ column ∈ schema.columnInfo, column.type ≠ .unsupported) :
    ∃ mappings assignments document fields,
      readMappings (makeColumnsAvro schema treatZeroLenAsNull).1.toList = some mappings ∧
      readAssignments (makeColumnsAvro schema treatZeroLenAsNull).2.toList = some assignments ∧
      makeAvroJsonSchema schema = .ok document ∧ declaredFields document = some fields ∧
      (∀ jsonDumps tableName,
        makeLoadDataQuery jsonDumps tableName schema .avro treatZeroLenAsNull =
          .ok ("LOAD DATA LOCAL INFILE 'placeholder' INTO TABLE " ++ quotedName tableName ++ " " ++
            " FORMAT AVRO " ++ "(" ++ (makeColumnsAvro schema treatZeroLenAsNull).1 ++ ")" ++
            " SCHEMA " ++ "'" ++ jsonDumps document ++ "'" ++ " " ++
            (makeColumnsAvro schema treatZeroLenAsNull).2)) ∧
      mappings.map Mapping.field = fields.map String.toList ∧
      AssignsOnce treatZeroLenAsNull schema.columnInfo mappings assignments ∧
      ((makeColumnsAvro schema treatZeroLenAsNull).2 = "" ↔
        ∀ column ∈ schema.columnInfo, column.type.needsVariable treatZeroLenAsNull = false) ∧
      ((makeColumnsAvro schema treatZeroLenAsNull).2 = "" ∨
        ∃ items, items ≠ [] ∧ items.length = assignments.length ∧
          (makeColumnsAvro schema treatZeroLenAsNull).2 = "SET " ++ ",".intercalate items) := by
  obtain ⟨document, hdocument, hfields⟩ := declaredFields_makeAvroJsonSchema hsupported
  have hset : (makeColumnsAvro schema treatZeroLenAsNull).2 =
      setPart (schema.columnInfo.zipIdx.filterMap (assignmentItem treatZeroLenAsNull)) := by
    rw [makeColumnsAvro_eq]
  refine ⟨_, _, document, _, readMappings_makeColumnsAvro schema treatZeroLenAsNull,
    readAssignments_makeColumnsAvro schema treatZeroLenAsNull, hdocument, hfields, ?_, ?_,
    assignsOnce schema treatZeroLenAsNull, ?_, ?_⟩
  · intro jsonDumps tableName
    unfold makeLoadDataQuery
    dsimp only
    rw [hdocument]
  · rw [mappingsOf, List.map_map, List.map_map]
    rfl
  · rw [hset, setPart_eq_empty_iff, filterMap_assignmentItem, List.map_eq_nil_iff,
      List.filter_eq_nil_iff]
    constructor
    · intro hnone column hcolumn
      obtain ⟨i, hi⟩ := List.getElem?_of_mem hcolumn
      have hentry := hnone (column, i) (List.mem_zipIdx_iff_getElem?.mpr hi)
      rwa [isComputed_eq_needsVariable, Bool.not_eq_true] at hentry
    · intro hall entry hentry
      rw [isComputed_eq_needsVariable, Bool.not_eq_true]
      exact hall _ (List.mem_of_getElem? (List.mem_zipIdx_iff_getElem?.mp hentry))
  · rw [hset]
    by_cases hitems : schema.columnInfo.zipIdx.filterMap (assignmentItem treatZeroLenAsNull) = []
    · exact Or.inl (setPart_eq_empty_iff.mpr hitems)
    · right
      refine ⟨_, hitems, ?_, if_neg hitems⟩
      rw [filterMap_assignmentItem, assignmentsOf, List.length_map, List.length_map]

/-- A number, a double and a text with zero length as NULL. -/
def numberDoubleText : RowSchema :=
  ⟨[⟨.int64, 8, "a"⟩, ⟨.double, 8, "b,\x60"⟩, ⟨.variable, 10, "@var_0"⟩], by decide⟩

theorem avro_assigns_once_numberDoubleText :
    ∃ mappings assignments,
      readMappings (makeColumnsAvro numberDoubleText true).1.toList = some mappings ∧
      readAssignments (makeColumnsAvro numberDoubleText true).2.toList = some assignments ∧
      AssignsOnce true numberDoubleText.columnInfo mappings assignments := by
  obtain ⟨mappings, assignments, _, _, hmappings, hassignments, _, _, _, _, honce, _⟩ :=
    avro_assigns_once numberDoubleText true (by decide)
  exact ⟨mappings, assignments, hmappings, hassignments, honce⟩

end SasLibclient
