import SasLibclient.Sql.SortKeys

/-!
# Statements about tables (`utils.cpp`)

How the server takes the statements that begin and end a parallel read, and the
queries of its readers: by the words before the name of the table, and for a
query by the condition on the partition. Whatever the names are, each text is
read back as the statement that it is meant to be (`readStatement_create` and
the lemmas behind it).
-/

namespace SasLibclient

open Quoting Tokens

def makeDropResultQuery (resultTableName : String) : String :=
  "DROP RESULT TABLE " ++ quotedName resultTableName

def makeDropTableQuery (resultTableName : String) : String :=
  "DROP TABLE IF EXISTS " ++ quotedName resultTableName

/-- Result tables have names of their own. -/
inductive TableKind where
  | result
  | regular
  deriving DecidableEq, Repr

structure TableId where
  kind : TableKind
  name : List Char
  deriving DecidableEq, Repr

inductive Statement where
  | create (table : TableId)
  | drop (table : TableId)
  | dropIfExists (table : TableId)
  /-- the rows of one partition, whose number has these digits -/
  | query (table : TableId) (partition : List Char)
  deriving DecidableEq, Repr

/-- The partition of `WHERE partition_id() = p`. -/
def readPartition (ts : List Token) : Option (List Char) :=
  match expect [.word "WHERE".toList, .word "partition_id".toList, .symbol '(', .symbol ')',
    .symbol '='] ts with
  | some (.word p :: _) => some p
  | _ => none

/-- The words before the name of a table, and the statement that they begin. -/
def statementForms : List (List Token × (List Char → List Token → Option Statement)) :=
  [([.word "CREATE".toList, .word "MATERIALIZED".toList, .word "RESULT".toList,
      .word "TABLE".toList], fun name _ => some (.create ⟨.result, name⟩)),
    ([.word "CREATE".toList, .word "RESULT".toList, .word "TABLE".toList],
      fun name _ => some (.create ⟨.result, name⟩)),
    ([.word "CREATE".toList, .word "TABLE".toList], fun name _ => some (.create ⟨.regular, name⟩)),
    ([.word "DROP".toList, .word "RESULT".toList, .word "TABLE".toList],
      fun name _ => some (.drop ⟨.result, name⟩)),
    ([.word "DROP".toList, .word "TABLE".toList, .word "IF".toList, .word "EXISTS".toList],
      fun name _ => some (.dropIfExists ⟨.regular, name⟩)),
    ([.word "SELECT".toList, .symbol '*', .word "FROM".toList, .symbol ':', .symbol ':'],
      fun name ts => (readPartition ts).map (.query ⟨.result, name⟩)),
    ([.word "SELECT".toList, .symbol '*', .word "FROM".toList],
      fun name ts => (readPartition ts).map (.query ⟨.regular, name⟩))]

def statementOf (ts : List Token) : Option Statement :=
  statementForms.findSome? fun form =>
    match expect form.1 ts with
    | some (.name name :: rest) => form.2 name rest
    | _ => none

/-- The statement of a text. -/
def readStatement (text : String) : Option Statement := statementOf (tokens text.toList)

/-! ## Reading the statements back -/

def TableType.kind : TableType → TableKind
  | .aggResultTable | .aggResultTableMaterialized => .result
  | .regularTable => .regular

/-- The columns are in parentheses or behind a blank. -/
theorem partitionBy_separated (partitionByCols partitionOrderByCols : ColumnNames)
    (keyColumnName : String) (tableType : TableType) {rest : List Char} (hrest : Separated rest) :
    Separated ((partitionBy partitionByCols partitionOrderByCols keyColumnName tableType).toList ++
      rest) := by
  have hpartition : Separated " PARTITION BY (".toList := ⟨_, _, rfl, by decide⟩
  have hwith : Separated " WITH (PARTITION_ORDER_BY = (".toList := ⟨_, _, rfl, by decide⟩
  by_cases htype : tableType = .regularTable
  · rw [htype, partitionBy_regular]
    exact ⟨_, _, rfl, by decide⟩
  rw [partitionBy, if_pos htype]
  by_cases hcols : partitionByCols.number ≤ 0 ∧ partitionOrderByCols.number ≤ 0
  · rw [if_pos hcols]
    exact hrest
  rw [if_neg hcols]
  dsimp only
  by_cases hby : 0 < partitionByCols.number
  · rw [if_pos hby]
    split
    all_goals
      simp only [String.toList_append, List.append_assoc]
      exact hpartition.append _
  · rw [if_neg hby, if_pos (by omega)]
    simp only [String.toList_append, List.append_assoc]
    exact hwith.append _

/-- The words of `CREATE`. -/
def TableType.createText (tableType : TableType) : String :=
  "CREATE " ++
    match tableType with
    | .aggResultTableMaterialized => "MATERIALIZED RESULT TABLE "
    | .aggResultTable => "RESULT TABLE "
    | .regularTable => "TABLE "

def TableType.createTokens : TableType → List Token
  | .aggResultTableMaterialized =>
    [.word "CREATE".toList, .word "MATERIALIZED".toList, .word "RESULT".toList,
      .word "TABLE".toList]
  | .aggResultTable => [.word "CREATE".toList, .word "RESULT".toList, .word "TABLE".toList]
  | .regularTable => [.word "CREATE".toList, .word "TABLE".toList]

theorem run_createText (tableType : TableType) :
    run .blank tableType.createText.toList = (tableType.createTokens, .blank) := by
  cases tableType with
  | aggResultTable | aggResultTableMaterialized | regularTable => rfl

theorem statementOf_create (tableType : TableType) (name : List Char) (rest : List Token) :
    statementOf (tableType.createTokens ++ .name name :: rest) =
      some (.create ⟨tableType.kind, name⟩) := by
  cases tableType with
  | aggResultTable | aggResultTableMaterialized | regularTable => rfl

/-- **The created table** has the name that the caller gave. -/
theorem readStatement_create (resultTableName selectQuery keyColumnName : String)
    (tableType : TableType) (partitionByCols partitionOrderByCols : ColumnNames) :
    readStatement (makeCreateTableQuery resultTableName selectQuery keyColumnName tableType
      partitionByCols partitionOrderByCols) =
      some (.create ⟨tableType.kind, resultTableName.toList⟩) := by
  have has : Separated (" AS ".toList ++ selectQuery.toList) :=
    Separated.append ⟨_, _, rfl, by decide⟩ _
  have hcolumns :=
    partitionBy_separated partitionByCols partitionOrderByCols keyColumnName tableType has
  have htext : makeCreateTableQuery resultTableName selectQuery keyColumnName tableType
      partitionByCols partitionOrderByCols = tableType.createText ++ quotedName resultTableName ++
        partitionBy partitionByCols partitionOrderByCols keyColumnName tableType ++ " AS " ++
        selectQuery := rfl
  rw [readStatement, htext, String.toList_append, String.toList_append, String.toList_append,
    String.toList_append, quotedName_toList resultTableName, backtick_eq, List.append_assoc,
    List.append_assoc, List.append_assoc, tokens_append_blank (run_createText tableType),
    tokens_name_append _ hcolumns, statementOf_create]

theorem readStatement_dropResult (resultTableName : String) :
    readStatement (makeDropResultQuery resultTableName) =
      some (.drop ⟨.result, resultTableName.toList⟩) := by
  have hdrop : run .blank "DROP RESULT TABLE ".toList =
      ([.word "DROP".toList, .word "RESULT".toList, .word "TABLE".toList], .blank) := rfl
  have hform : ∀ name rest, statementOf ([.word "DROP".toList, .word "RESULT".toList,
      .word "TABLE".toList] ++ .name name :: rest) = some (.drop ⟨.result, name⟩) := fun _ _ => rfl
  unfold readStatement makeDropResultQuery
  rw [String.toList_append, quotedName_toList resultTableName, backtick_eq,
    tokens_append_blank hdrop, tokens_quote, hform]

theorem readStatement_dropTable (resultTableName : String) :
    readStatement (makeDropTableQuery resultTableName) =
      some (.dropIfExists ⟨.regular, resultTableName.toList⟩) := by
  have hdrop : run .blank "DROP TABLE IF EXISTS ".toList =
      ([.word "DROP".toList, .word "TABLE".toList, .word "IF".toList, .word "EXISTS".toList],
        .blank) := rfl
  have hform : ∀ name rest, statementOf ([.word "DROP".toList, .word "TABLE".toList,
      .word "IF".toList, .word "EXISTS".toList] ++ .name name :: rest) =
        some (.dropIfExists ⟨.regular, name⟩) := fun _ _ => rfl
  unfold readStatement makeDropTableQuery
  rw [String.toList_append, quotedName_toList resultTableName, backtick_eq,
    tokens_append_blank hdrop, tokens_quote, hform]

theorem run_where : run .blank " WHERE partition_id() = ".toList =
    ([.word "WHERE".toList, .word "partition_id".toList, .symbol '(', .symbol ')', .symbol '='],
      .blank) := rfl

theorem readStatement_readResult (resultTableName : String) (partition : UInt32) :
    readStatement (makeReadResultTableQuery resultTableName partition) =
      some (.query ⟨.result, resultTableName.toList⟩ partition.toNat.repr.toList) := by
  have hselect : run .blank "SELECT * FROM ::".toList =
      ([.word "SELECT".toList, .symbol '*', .word "FROM".toList, .symbol ':', .symbol ':'],
        .blank) := rfl
  have hwhere : Separated " WHERE partition_id() = ".toList := ⟨_, _, rfl, by decide⟩
  -- the number ends with the text
  have hword : ∀ c ∈ partition.toNat.repr.toList, isWordChar c = true := by
    intro c hc
    rw [Nat.toList_repr] at hc
    exact isWordChar_of_isDigit (Nat.isDigit_of_mem_toDigits (by decide) (by decide) hc)
  have hne : partition.toNat.repr.toList ≠ [] := by
    rw [Nat.toList_repr]
    exact Nat.toDigits_ne_nil
  have hnumber : tokens partition.toNat.repr.toList = [.word partition.toNat.repr.toList] := by
    rw [tokens, run_word_blank hne hword]
    rfl
  unfold readStatement makeReadResultTableQuery
  rw [String.toList_append, String.toList_append,
    String.toList_append, quotedName_toList resultTableName, backtick_eq, List.append_assoc, List.append_assoc,
    tokens_append_blank hselect, tokens_name_append _ (hwhere.append _),
    tokens_append_blank run_where, hnumber]
  generalize resultTableName.toList = name
  generalize partition.toNat.repr.toList = digits
  rfl

theorem readStatement_readColumnStore (tableName keyColumnName : String)
    (partitionOrderBy : ColumnNames) (partition : UInt32) :
    readStatement (makeReadColumnStoreTableQuery tableName keyColumnName partitionOrderBy
      partition) =
      some (.query ⟨.regular, tableName.toList⟩ partition.toNat.repr.toList) := by
  have hselect : run .blank "SELECT * FROM ".toList =
      ([.word "SELECT".toList, .symbol '*', .word "FROM".toList], .blank) := rfl
  have hwhere : Separated " WHERE partition_id() = ".toList := ⟨_, _, rfl, by decide⟩
  have horder : Separated " ORDER BY ".toList := ⟨_, _, rfl, by decide⟩
  rw [readStatement, makeReadColumnStoreTableQuery_toList, tokens_append_blank hselect,
    tokens_name_append _ (hwhere.append _), tokens_append_blank run_where,
    tokens_number _ (horder.append _)]
  generalize tableName.toList = name
  generalize partition.toNat.repr.toList = digits
  generalize tokens (" ORDER BY ".toList ++ _) = rest
  rfl

end SasLibclient
