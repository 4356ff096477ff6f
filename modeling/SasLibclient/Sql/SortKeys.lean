import SasLibclient.Sql.Queries
import SasLibclient.Text.Decimal
import SasLibclient.Text.Tokens

/-!
# The sort key of the created table (`utils.cpp`)

`MakeCreateTableQuery` declares the sort key of the table that the queries of
`MakeReadColumnStoreTableQuery` read in order. `identifierLists_read` reads the
lists of columns back from the texts: whatever the names are, both statements
have the columns of `BuildSortKey`.
-/

namespace SasLibclient

open Quoting Tokens

inductive TableType where
  | aggResultTable
  | aggResultTableMaterialized
  | regularTable
  deriving DecidableEq, Repr

/-- The columns of a created table: result table syntax, or columnstore syntax
for a regular table. -/
def partitionBy (partitionByCols partitionOrderByCols : ColumnNames) (keyColumnName : String)
    (tableType : TableType) : String :=
  if tableType ≠ .regularTable then
    if partitionByCols.number ≤ 0 ∧ partitionOrderByCols.number ≤ 0 then
      ""
    else
      let result :=
        if 0 < partitionByCols.number then " PARTITION BY (" ++ partitionByCols.join ++ ")" else ""
      if 0 < partitionOrderByCols.number then
        result ++ " WITH (PARTITION_ORDER_BY = (" ++ partitionOrderByCols.join ++ "))"
      else
        result
  else
    let result :=
      if 0 < partitionByCols.number then "SHARD KEY(" ++ partitionByCols.join ++ ")" else ""
    let result := if 0 < result.length then result ++ "," else result
    let result := result ++ " SORT KEY(" ++ buildSortKey partitionOrderByCols keyColumnName ++ ")"
    "(" ++ result ++ ")"

def makeCreateTableQuery (resultTableName selectQuery keyColumnName : String)
    (tableType : TableType) (partitionByCols partitionOrderByCols : ColumnNames) : String :=
  let resultQuery := "CREATE " ++
    match tableType with
    | .aggResultTableMaterialized => "MATERIALIZED RESULT TABLE "
    | .aggResultTable => "RESULT TABLE "
    | .regularTable => "TABLE "
  resultQuery ++ quotedName resultTableName ++
    partitionBy partitionByCols partitionOrderByCols keyColumnName tableType ++
    " AS " ++ selectQuery

/-! ## Reading the statements -/

/-- The tokens behind the clause of the shard key, if there is one. -/
def skipShardKey (ts : List Token) : Option (List Token) :=
  match expect [.word "SHARD".toList, .word "KEY".toList] ts with
  | some ts => (readParens ts).bind fun found => expect [comma] found.2
  | none => some ts

/-- The sort key of `CREATE TABLE name(SHARD KEY(..), SORT KEY(..))`. -/
def readSortKey (ts : List Token) : Option (List (List Char)) := do
  match ← expect [.word "CREATE".toList, .word "TABLE".toList] ts with
  | .name _ :: ts =>
    let ts ← expect [.symbol '('] ts
    let ts ← skipShardKey ts
    let ts ← expect [.word "SORT".toList, .word "KEY".toList] ts
    let (names, ts) ← readParens ts
    let _ ← expect [.symbol ')'] ts
    return names
  | _ => none

/-- The columns of `SELECT * FROM name WHERE partition_id() = n ORDER BY ..`,
up to the end of the text. -/
def readOrderBy (ts : List Token) : Option (List (List Char)) := do
  match ← expect [.word "SELECT".toList, .symbol '*', .word "FROM".toList] ts with
  | .name _ :: ts =>
    match ← expect [.word "WHERE".toList, .word "partition_id".toList, .symbol '(', .symbol ')',
      .symbol '='] ts with
    | .word _ :: ts =>
      let ts ← expect [.word "ORDER".toList, .word "BY".toList] ts
      let (names, ts) ← readNames ts
      if ts = [] then some names else none
    | _ => none
  | _ => none

section Texts

variable {names shard : List (List Char)} {rest : List Char}

theorem tokens_names_paren (names : List (List Char)) (rest : List Char) :
    tokens (joinNames nameQuote ',' names ++ ')' :: rest) =
      nameList names ++ .symbol ')' :: tokens rest := by
  obtain ⟨htokens, hended⟩ := tokens_joinNames names
  rw [tokens_append_boundary hended ⟨_, _, rfl, by decide⟩, htokens]
  rfl

theorem tokens_name_append (name : List Char) (hrest : Separated rest) :
    tokens (quote nameQuote nameQuote name ++ rest) = .name name :: tokens rest := by
  rw [tokens_append_boundary (ended_quote name) hrest, tokens_quote]
  rfl

/-- The clause of the shard key; without columns there is none. -/
def shardClause (names : List (List Char)) : List Char :=
  if names = [] then [] else "SHARD KEY(".toList ++ (joinNames nameQuote ',' names ++ [')', ','])

theorem backtick_eq : backtick = nameQuote := rfl

theorem openParen_toList : "(".toList = ['('] := rfl

theorem closeParen_toList : ")".toList = [')'] := rfl

theorem partitionBy_regular (partitionByCols partitionOrderByCols : ColumnNames)
    (keyColumnName : String) :
    (partitionBy partitionByCols partitionOrderByCols keyColumnName .regularTable).toList =
      '(' :: (shardClause (partitionByCols.listed.map String.toList) ++ (" SORT KEY(".toList ++
        (joinNames nameQuote ','
          ((sortKeyColumns partitionOrderByCols keyColumnName).map String.toList) ++
          [')', ')']))) := by
  have hshard : (let result :=
      if 0 < partitionByCols.number then "SHARD KEY(" ++ partitionByCols.join ++ ")" else ""
    if 0 < result.length then result ++ "," else result).toList =
      shardClause (partitionByCols.listed.map String.toList) := by
    by_cases hpos : 0 < partitionByCols.number
    · have hlength : 0 < ("SHARD KEY(" ++ partitionByCols.join ++ ")").length := by
        rw [String.length_append, String.length_append]
        exact Nat.lt_add_right _ (Nat.lt_add_right _ (by decide))
      have hne : partitionByCols.listed.map String.toList ≠ [] :=
        fun h => ColumnNames.listed_ne_nil hpos (List.map_eq_nil_iff.mp h)
      simp only [if_pos hpos, if_pos hlength]
      rw [partitionByCols.join_eq, String.toList_append, String.toList_append,
        String.toList_append, joinColumnNames_toList, shardClause, if_neg hne,
        closeParen_toList, comma_toList, backtick_eq]
      simp only [List.append_assoc, List.cons_append, List.nil_append]
    · rw [ColumnNames.listed_eq_nil (by omega)]
      simp only [if_neg hpos]
      rfl
  rw [partitionBy, if_neg (by simp), buildSortKey_eq]
  dsimp only at hshard ⊢
  rw [String.toList_append, String.toList_append, String.toList_append, String.toList_append,
    String.toList_append, hshard, joinColumnNames_toList, openParen_toList, closeParen_toList,
    backtick_eq]
  simp only [List.append_assoc, List.cons_append, List.nil_append]

/-- The text of `CREATE TABLE`. -/
theorem makeCreateTableQuery_toList (resultTableName selectQuery keyColumnName : String)
    (partitionByCols partitionOrderByCols : ColumnNames) :
    (makeCreateTableQuery resultTableName selectQuery keyColumnName .regularTable partitionByCols
      partitionOrderByCols).toList =
      "CREATE TABLE ".toList ++ (quote nameQuote nameQuote resultTableName.toList ++ '(' ::
        (shardClause (partitionByCols.listed.map String.toList) ++ (" SORT KEY(".toList ++
          (joinNames nameQuote ','
            ((sortKeyColumns partitionOrderByCols keyColumnName).map String.toList) ++
            ')' :: ')' :: (" AS ".toList ++ selectQuery.toList))))) := by
  have hcreate : "CREATE " ++ "TABLE " = "CREATE TABLE " := rfl
  rw [makeCreateTableQuery, hcreate, String.toList_append, String.toList_append, String.toList_append,
    String.toList_append, quotedName_toList, partitionBy_regular]
  simp only [List.append_assoc, List.cons_append]
  rfl

/-- The tokens of the clause of the shard key. -/
def shardTokens (shard : List (List Char)) : List Token :=
  if shard = [] then []
  else [.word "SHARD".toList, .word "KEY".toList] ++
    .symbol '(' :: (nameList shard ++ .symbol ')' :: [comma])

theorem tokens_shardClause (shard : List (List Char)) (rest : List Char) :
    tokens (shardClause shard ++ rest) = shardTokens shard ++ tokens rest := by
  have hopen : run .blank "SHARD KEY(".toList =
      ([.word "SHARD".toList, .word "KEY".toList, .symbol '('], .blank) := rfl
  have hcomma : tokens (',' :: rest) = comma :: tokens rest := rfl
  have htail : [')', ','] ++ rest = ')' :: ',' :: rest := rfl
  rw [shardClause, shardTokens]
  by_cases hshard : shard = []
  · rw [if_pos hshard, if_pos hshard]
    rfl
  · rw [if_neg hshard, if_neg hshard, List.append_assoc, List.append_assoc, htail,
      tokens_append_blank hopen, tokens_names_paren, hcomma]
    simp only [List.append_assoc, List.cons_append, List.nil_append]

/-- The clause is skipped whether it is there or not. -/
theorem skipShardKey_shardTokens (shard : List (List Char)) (rest : List Token) :
    skipShardKey (shardTokens shard ++ .word "SORT".toList :: rest) =
      some (.word "SORT".toList :: rest) := by
  have hword : Token.word "SHARD".toList ≠ .word "SORT".toList := by decide
  rw [shardTokens, skipShardKey]
  by_cases hshard : shard = []
  · rw [if_pos hshard, List.nil_append, expect_cons_ne hword]
  · have hcomma := expect_append [comma] (.word "SORT".toList :: rest)
    rw [List.singleton_append] at hcomma
    rw [if_neg hshard, List.append_assoc, expect_append]
    simp only [List.append_assoc, List.cons_append, List.nil_append]
    rw [readParens_nameList hshard, Option.bind_some, hcomma]

/-- **The sort key of the created table** is read back. -/
theorem readSortKey_create (resultTableName selectQuery keyColumnName : String)
    (partitionByCols partitionOrderByCols : ColumnNames) :
    readSortKey (tokens (makeCreateTableQuery resultTableName selectQuery keyColumnName
      .regularTable partitionByCols partitionOrderByCols).toList) =
      some ((sortKeyColumns partitionOrderByCols keyColumnName).map String.toList) := by
  have hcreate : run .blank "CREATE TABLE ".toList =
      ([.word "CREATE".toList, .word "TABLE".toList], .blank) := rfl
  have hsort : run .blank " SORT KEY(".toList =
      ([.word "SORT".toList, .word "KEY".toList, .symbol '('], .blank) := rfl
  have hopen : ∀ text, tokens ('(' :: text) = [.symbol '('] ++ tokens text := fun _ => rfl
  have hclose : ∀ text, tokens (')' :: text) = [.symbol ')'] ++ tokens text := fun _ => rfl
  have hne : (sortKeyColumns partitionOrderByCols keyColumnName).map String.toList ≠ [] :=
    fun h => sortKeyColumns_ne_nil _ _ (List.map_eq_nil_iff.mp h)
  rw [makeCreateTableQuery_toList, tokens_append_blank hcreate,
    tokens_name_append _ ⟨_, _, rfl, by decide⟩, hopen, tokens_shardClause,
    tokens_append_blank hsort, tokens_names_paren, hclose]
  generalize tokens (" AS ".toList ++ selectQuery.toList) = rest
  generalize (sortKeyColumns partitionOrderByCols keyColumnName).map String.toList = names at hne ⊢
  have hkey : ∀ ts, expect [.word "SORT".toList, .word "KEY".toList]
      (.word "SORT".toList :: ([.word "KEY".toList, .symbol '('] ++ ts)) =
        some (.symbol '(' :: ts) :=
    fun ts => expect_append [.word "SORT".toList, .word "KEY".toList] (.symbol '(' :: ts)
  simp only [readSortKey, expect_append, Option.bind_eq_bind, Option.bind_some]
  rw [List.cons_append, skipShardKey_shardTokens, Option.bind_some, hkey, Option.bind_some,
    readParens_nameList hne, Option.bind_some, expect_append]
  rfl

theorem makeReadColumnStoreTableQuery_toList (tableName keyColumnName : String)
    (partitionOrderBy : ColumnNames) (partition : UInt32) :
    (makeReadColumnStoreTableQuery tableName keyColumnName partitionOrderBy partition).toList =
      "SELECT * FROM ".toList ++ (quote nameQuote nameQuote tableName.toList ++
        (" WHERE partition_id() = ".toList ++ (partition.toNat.repr.toList ++
          (" ORDER BY ".toList ++ joinNames nameQuote ','
            ((sortKeyColumns partitionOrderBy keyColumnName).map String.toList))))) := by
  unfold makeReadColumnStoreTableQuery
  rw [buildSortKey_eq, String.toList_append, String.toList_append,
    String.toList_append, String.toList_append, String.toList_append, quotedName_toList,
    joinColumnNames_toList, backtick_eq, List.append_assoc, List.append_assoc, List.append_assoc,
    List.append_assoc]

theorem tokens_number (n : Nat) (hrest : Separated rest) :
    tokens (n.repr.toList ++ rest) = .word n.repr.toList :: tokens rest := by
  have hword : ∀ c ∈ n.repr.toList, isWordChar c = true := by
    intro c hc
    rw [Nat.toList_repr] at hc
    exact isWordChar_of_isDigit (Nat.isDigit_of_mem_toDigits (by decide) (by decide) hc)
  have hne : n.repr.toList ≠ [] := by
    rw [Nat.toList_repr]
    exact Nat.toDigits_ne_nil
  have hrun := run_word_blank hne hword
  rw [tokens_append_boundary (by rw [hrun]; rfl) hrest, tokens, hrun]
  rfl

/-- **The order of the read queries** is read back. -/
theorem readOrderBy_query (tableName keyColumnName : String) (partitionOrderBy : ColumnNames)
    (partition : UInt32) :
    readOrderBy (tokens (makeReadColumnStoreTableQuery tableName keyColumnName partitionOrderBy
      partition).toList) =
      some ((sortKeyColumns partitionOrderBy keyColumnName).map String.toList) := by
  have hselect : run .blank "SELECT * FROM ".toList =
      ([.word "SELECT".toList, .symbol '*', .word "FROM".toList], .blank) := rfl
  have hwhere : run .blank " WHERE partition_id() = ".toList =
      ([.word "WHERE".toList, .word "partition_id".toList, .symbol '(', .symbol ')', .symbol '='],
        .blank) := rfl
  have horder : run .blank " ORDER BY ".toList =
      ([.word "ORDER".toList, .word "BY".toList], .blank) := rfl
  have hwhere' : Separated " WHERE partition_id() = ".toList := ⟨_, _, rfl, by decide⟩
  have horder' : Separated " ORDER BY ".toList := ⟨_, _, rfl, by decide⟩
  have hne : (sortKeyColumns partitionOrderBy keyColumnName).map String.toList ≠ [] :=
    fun h => sortKeyColumns_ne_nil _ _ (List.map_eq_nil_iff.mp h)
  rw [makeReadColumnStoreTableQuery_toList, tokens_append_blank hselect,
    tokens_name_append _ (hwhere'.append _), tokens_append_blank hwhere,
    tokens_number _ (horder'.append _), tokens_append_blank horder, (tokens_joinNames _).1]
  generalize (sortKeyColumns partitionOrderBy keyColumnName).map String.toList = names at hne ⊢
  have hnone : ([] : List Token).head? ≠ some comma := nofun
  have hnames := readNames_nameList hne hnone
  rw [List.append_nil] at hnames
  simp only [readOrderBy, expect_append, Option.bind_eq_bind, Option.bind_some, hnames, if_true]

end Texts

/-- **Lists of identifiers are read back**: the lexer of names reads every joined
list, `BuildSortKey` lists the key column after the others unless it is one of
them, and the created table has the sort key that its queries are ordered by. -/
theorem identifierLists_read :
    (∀ names : List String, names ≠ [] →
      scanNames backtick ',' (joinColumnNames names).toList = some (names.map String.toList)) ∧
    (∀ cols : ColumnNames, 0 < cols.number →
      scanNames backtick ',' cols.join.toList = some (cols.listed.map String.toList)) ∧
    (∀ (partitionOrderBy : ColumnNames) (keyColumnName : String),
      let names := scanNames backtick ',' (buildSortKey partitionOrderBy keyColumnName).toList
      (names = some ((partitionOrderBy.listed ++ [keyColumnName]).map String.toList) ↔
        keyColumnName ∉ partitionOrderBy.listed) ∧
      (names = some (partitionOrderBy.listed.map String.toList) ↔
        keyColumnName ∈ partitionOrderBy.listed)) ∧
    ∀ (resultTableName selectQuery keyColumnName : String)
      (partitionByCols partitionOrderByCols : ColumnNames) (partition : UInt32),
      ∃ columns, scanNames backtick ',' (buildSortKey partitionOrderByCols keyColumnName).toList =
          some columns ∧
        readSortKey (tokens (makeCreateTableQuery resultTableName selectQuery keyColumnName
          .regularTable partitionByCols partitionOrderByCols).toList) = some columns ∧
        readOrderBy (tokens (makeReadColumnStoreTableQuery resultTableName keyColumnName
          partitionOrderByCols partition).toList) = some columns := by
  have hjoin : ∀ names : List String, names ≠ [] →
      scanNames backtick ',' (joinColumnNames names).toList = some (names.map String.toList) := by
    intro names hne
    rw [joinColumnNames_toList]
    exact scanNames_joinNames (by decide) fun h => hne (List.map_eq_nil_iff.mp h)
  have hkey : ∀ partitionOrderBy keyColumnName,
      scanNames backtick ',' (buildSortKey partitionOrderBy keyColumnName).toList =
        some ((sortKeyColumns partitionOrderBy keyColumnName).map String.toList) := by
    intro partitionOrderBy keyColumnName
    rw [buildSortKey_eq]
    exact hjoin _ (sortKeyColumns_ne_nil _ _)
  have hinj : Function.Injective fun names : List String => names.map String.toList :=
    List.map_injective_iff.mpr fun _ _ => String.toList_inj.mp
  refine ⟨hjoin, ?_, ?_, ?_⟩
  · intro cols hpos
    rw [cols.join_eq]
    exact hjoin _ (ColumnNames.listed_ne_nil hpos)
  · intro partitionOrderBy keyColumnName
    dsimp only
    rw [hkey, Option.some_inj, Option.some_inj, hinj.eq_iff, hinj.eq_iff, sortKeyColumns]
    by_cases hmem : keyColumnName ∈ partitionOrderBy.listed
    · simp [hmem]
    · simp [hmem]
  · intro resultTableName selectQuery keyColumnName partitionByCols partitionOrderByCols partition
    exact ⟨_, hkey _ _, readSortKey_create _ _ _ _ _, readOrderBy_query _ _ _ _⟩

/-- A name with a backtick and one with a comma, in a vector and in an array. -/
theorem identifierLists_read_backtickAndComma :
    scanNames backtick ',' (joinColumnNames ["a\x60", ","]).toList =
        some (["a\x60", ","].map String.toList) ∧
      scanNames backtick ',' (ColumnNames.join ⟨["a\x60", ","], 1, by decide⟩).toList =
        some (["a\x60"].map String.toList) :=
  ⟨identifierLists_read.1 _ (by decide),
    identifierLists_read.2.1 ⟨["a\x60", ","], 1, by decide⟩ (by decide)⟩

end SasLibclient
