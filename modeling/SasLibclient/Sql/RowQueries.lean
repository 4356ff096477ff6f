import SasLibclient.Sql.Queries
import SasLibclient.Text.Decimal

/-!
# The queries for rows (`utils.cpp`, `s2_connection.cpp`)

`GetSingleRow` and `GetMultipleRows` ask for the rows of a partition by the value
of a key column. Each has a builder of its own for the query.
-/

namespace SasLibclient

open Quoting

def joinIds : List Int → String
  | [] => ""
  | id :: ids => ids.foldl (fun result id => result ++ "," ++ toString id) (toString id)

/-- `const int64_t* rowIds` and `const int rowIdsNum`. -/
structure RowIds where
  ids : List Int
  number : Int
  number_le : number ≤ ids.length

/-- The ids that the loop of `JoinIds` reads. -/
def RowIds.listed (rowIds : RowIds) : List Int := rowIds.ids.take rowIds.number.toNat

/-- `JoinIds` -/
def RowIds.join (rowIds : RowIds) : String :=
  if rowIds.number ≤ 0 then "" else joinIds rowIds.listed

/-- The comparison of versions has no effect here either. -/
def makePointInTimeQuery (table selectQuery keyColumnName : String) (partitionId rowId : Int)
    (isResultTable : Bool) : String :=
  if selectQuery ≠ "" then
    "SELECT * FROM (" ++ selectQuery ++ ")" ++ " WHERE partition_id() = " ++ toString partitionId ++
      " AND " ++ keyColumnName ++ "=" ++ toString rowId
  else if isResultTable then
    "SELECT * FROM ::" ++ quotedName table ++ " WHERE partition_id() = " ++ toString partitionId ++
      " AND partition_row_id() = " ++ toString rowId
  else
    "SELECT * FROM " ++ quotedName table ++ " WHERE partition_id() = " ++ toString partitionId ++
      " AND " ++ quotedName keyColumnName ++ "=" ++ toString rowId

def makeRowIdFilterQuery (table selectQuery keyColumnName : String) (partitionId : Int)
    (rowIds : RowIds) : String :=
  (if selectQuery ≠ "" then "SELECT * FROM (" ++ selectQuery ++ ")"
    else "SELECT * FROM " ++ quotedName table) ++
    " WHERE partition_id() = " ++ toString partitionId ++
    " AND " ++ quotedName keyColumnName ++ " IN " ++
    "(" ++ rowIds.join ++ ")" ++
    " ORDER BY " ++ quotedName keyColumnName

/-- The local variable of both functions. -/
def queryParam (selectQuery : String) (readType : ParallelReadType) : String :=
  if readType == .originalTable then selectQuery else ""

/-- The query of `GetSingleRow`; the partition is an `int` there. -/
def singleRowQuery (resultTable selectQuery keyColumnName : String) (partitionId : UInt32)
    (partitionRowId : Int) (readType : ParallelReadType) : String :=
  makePointInTimeQuery resultTable (queryParam selectQuery readType) keyColumnName
    (toInt32 partitionId) partitionRowId (readType == .resultTable)

def multipleRowsQuery (resultTable selectQuery keyColumnName : String) (partitionId : UInt32)
    (rowIds : RowIds) (readType : ParallelReadType) : String :=
  makeRowIdFilterQuery resultTable (queryParam selectQuery readType) keyColumnName
    (toInt32 partitionId) rowIds

/-! ## The column that is tested -/

/-- The query reads from `relation`, takes the rows of the partition, and tests
with `operator` the column of the quoted name `key`. -/
def TestsKey (relation : String) (partitionId : UInt32) (key operator query : String) : Prop :=
  ∃ rest tail, query.toList = ("SELECT * FROM " ++ relation ++ " WHERE partition_id() = " ++
      toString (toInt32 partitionId) ++ " AND ").toList ++ rest ∧
    scanName backtick rest = some (key.toList, operator.toList ++ tail)

/-- What a request reads from: its query on the original table, when there is
one, and a table otherwise. -/
def relationOf (resultTable param : String) : String :=
  if param ≠ "" then "(" ++ param ++ ")" else quotedName resultTable

theorem testsKey_quoted (relation key operator tail : String) (partitionId : UInt32)
    (hoperator : operator.toList.head? ≠ some backtick) (hne : operator.toList ≠ []) :
    TestsKey relation partitionId key operator ("SELECT * FROM " ++ relation ++
      " WHERE partition_id() = " ++ toString (toInt32 partitionId) ++ " AND " ++
      quotedName key ++ operator ++ tail) := by
  refine ⟨(quotedName key ++ operator ++ tail).toList, tail.toList, ?_, ?_⟩
  · simp only [String.toList_append, List.append_assoc]
  · rw [String.toList_append, String.toList_append, quotedName_toList, List.append_assoc]
    apply scanName_quote
    cases hop : operator.toList with
    | nil => exact absurd hop hne
    | cons c cs =>
      rw [hop] at hoperator
      exact hoperator

/-- A name without quotes is not tested. -/
theorem not_testsKey_unquoted (relation key operator : String) (partitionId : UInt32)
    (rowId : Int) : ¬ TestsKey relation partitionId key operator
    ("SELECT * FROM " ++ relation ++ " WHERE partition_id() = " ++
      toString (toInt32 partitionId) ++ " AND " ++ key ++ "=" ++ toString rowId) := by
  rintro ⟨rest, tail, htext, hscan⟩
  have hrest : rest = key.toList ++ ('=' :: rowId.repr.toList) := by
    apply List.append_cancel_left
    rw [← htext]
    simp only [String.toList_append, List.append_assoc, Int.toString_eq_repr]
    rfl
  rw [hrest] at hscan
  refine scanName_unquoted ?_ _ hscan
  intro hmem
  rcases List.mem_cons.mp hmem with heq | hmem
  · exact absurd heq (by decide)
  · rcases Decimal.isDigit_of_mem_repr hmem with heq | hdigit
    · exact absurd heq (by decide)
    · exact absurd hdigit (by decide)

theorem from_query (param : String) :
    "SELECT * FROM (" ++ param ++ ")" = "SELECT * FROM " ++ ("(" ++ param ++ ")") := by
  rw [← String.append_assoc, ← String.append_assoc]
  rfl

theorem makeRowIdFilterQuery_tests (table param key : String) (partitionId : UInt32)
    (rowIds : RowIds) :
    TestsKey (relationOf table param) partitionId key " IN "
      (makeRowIdFilterQuery table param key (toInt32 partitionId) rowIds) := by
  have htests := testsKey_quoted (relationOf table param) key " IN "
    ("(" ++ (rowIds.join ++ (")" ++ (" ORDER BY " ++ quotedName key)))) partitionId
    (by decide) (by decide)
  have hfrom : (if param ≠ "" then "SELECT * FROM (" ++ param ++ ")"
      else "SELECT * FROM " ++ quotedName table) = "SELECT * FROM " ++ relationOf table param := by
    unfold relationOf
    split
    · exact from_query param
    · rfl
  rw [makeRowIdFilterQuery, hfrom]
  simpa only [String.append_assoc] using htests

/-- `MakePointInTimeQuery` tests the key column, unless there is a query on the
original table. -/
theorem makePointInTimeQuery_tests_iff (table param key : String) (partitionId : UInt32)
    (rowId : Int) :
    TestsKey (relationOf table param) partitionId key "="
      (makePointInTimeQuery table param key (toInt32 partitionId) rowId false) ↔ param = "" := by
  unfold makePointInTimeQuery relationOf
  by_cases hparam : param = ""
  · rw [if_neg (not_not_intro hparam), if_neg (not_not_intro hparam), if_neg Bool.false_ne_true]
    exact iff_of_true (testsKey_quoted _ _ _ _ _ (by decide) (by decide)) hparam
  · rw [if_pos hparam, if_pos hparam, from_query]
    refine iff_of_false ?_ hparam
    have hnot := not_testsKey_unquoted ("(" ++ param ++ ")") key "=" partitionId rowId
    simpa only [String.append_assoc] using hnot

/-- **Requests for one row and for a list of one row** read from the same
relation, filter the same partition and test the same column exactly when there
is no query on the original table. -/
theorem rowQueries_same_iff (resultTable selectQuery keyColumnName : String)
    (partitionId : UInt32) (rowId : Int) {readType : ParallelReadType}
    (hreadType : readType = .columnStoreTable ∨ readType = .originalTable) :
    (TestsKey (relationOf resultTable (queryParam selectQuery readType)) partitionId keyColumnName
        "=" (singleRowQuery resultTable selectQuery keyColumnName partitionId rowId readType) ∧
      TestsKey (relationOf resultTable (queryParam selectQuery readType)) partitionId keyColumnName
        " IN " (multipleRowsQuery resultTable selectQuery keyColumnName partitionId
          ⟨[rowId], 1, Int.le_refl 1⟩ readType)) ↔
      readType = .columnStoreTable ∨ selectQuery = "" := by
  have hresult : (readType == .resultTable) = false := by
    rcases hreadType with rfl | rfl <;> rfl
  rw [singleRowQuery, multipleRowsQuery, hresult, makePointInTimeQuery_tests_iff,
    and_iff_left (makeRowIdFilterQuery_tests _ _ _ _ _)]
  rcases hreadType with rfl | rfl
  · simp [queryParam]
  · simp [queryParam]

/-- The materialized table of a query is asked by the quoted key column. -/
theorem rowQueries_same_materialized :
    TestsKey (relationOf "rt" (queryParam "SELECT * FROM t" .columnStoreTable)) 3 "order id"
        "=" (singleRowQuery "rt" "SELECT * FROM t" "order id" 3 7 .columnStoreTable) ∧
      TestsKey (relationOf "rt" (queryParam "SELECT * FROM t" .columnStoreTable)) 3 "order id"
        " IN " (multipleRowsQuery "rt" "SELECT * FROM t" "order id" 3 ⟨[7], 1, Int.le_refl 1⟩
          .columnStoreTable) :=
  (rowQueries_same_iff "rt" "SELECT * FROM t" "order id" 3 7 (Or.inl rfl)).mpr (Or.inl rfl)

/-- On the original table one of the two requests tests `order id=7`. -/
theorem rowQueries_unquoted :
    singleRowQuery "rt" "SELECT * FROM t" "order id" 3 7 .originalTable =
      "SELECT * FROM (SELECT * FROM t) WHERE partition_id() = 3 AND order id=7" ∧
    ¬ (TestsKey (relationOf "rt" (queryParam "SELECT * FROM t" .originalTable)) 3 "order id"
        "=" (singleRowQuery "rt" "SELECT * FROM t" "order id" 3 7 .originalTable) ∧
      TestsKey (relationOf "rt" (queryParam "SELECT * FROM t" .originalTable)) 3 "order id"
        " IN " (multipleRowsQuery "rt" "SELECT * FROM t" "order id" 3 ⟨[7], 1, Int.le_refl 1⟩
          .originalTable)) := by
  refine ⟨by decide, ?_⟩
  rintro ⟨hsingle, -⟩
  have hempty := (makePointInTimeQuery_tests_iff "rt" "SELECT * FROM t" "order id" 3 7).mp hsingle
  revert hempty
  decide

end SasLibclient
