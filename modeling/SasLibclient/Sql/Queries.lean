import SasLibclient.ChunkQueue
import SasLibclient.Text.Quoting

/-!
# The read queries (`utils.cpp`)

`CreateChunkQueue` makes the query of each partition with one of three
functions, by the type of the read. A C array of column names comes with an
`int` that may be negative.
-/

namespace SasLibclient

open Quoting

def backtick : Char := '\x60'

/-- `std::quoted(name, delim, delim)` for the backtick. -/
def quotedName (name : String) : String :=
  String.ofList (quote backtick backtick name.toList)

/-- `const char* const* const cols` and `int colsNum`. -/
structure ColumnNames where
  names : List String
  number : Int
  number_le : number ≤ names.length

/-- The names that a loop over the array reads. -/
def ColumnNames.listed (cols : ColumnNames) : List String := cols.names.take cols.number.toNat

/-- The loop of `JoinColumnNames`, and the overload for a vector. -/
def joinColumnNames : List String → String
  | [] => ""
  | col :: cols => cols.foldl (fun result col => result ++ "," ++ quotedName col) (quotedName col)

/-- `JoinColumnNames` of an array. -/
def ColumnNames.join (cols : ColumnNames) : String :=
  if cols.number ≤ 0 then "" else joinColumnNames cols.listed

def buildSortKey (partitionOrderBy : ColumnNames) (keyColumnName : String) : String :=
  let result := partitionOrderBy.join
  let needAddKey := !partitionOrderBy.listed.any fun col => keyColumnName == col
  if needAddKey then
    (if 0 < result.length then result ++ "," else result) ++ quotedName keyColumnName
  else
    result

/-- The comparison of versions has no effect: the string it adds is not kept. -/
def makeReadResultTableQuery (resultTableName : String) (partition : UInt32) : String :=
  "SELECT * FROM ::" ++ quotedName resultTableName ++
    " WHERE partition_id() = " ++ partition.toNat.repr

def makeReadColumnStoreTableQuery (tableName keyColumnName : String)
    (partitionOrderBy : ColumnNames) (partition : UInt32) : String :=
  "SELECT * FROM " ++ quotedName tableName ++
    " WHERE partition_id() = " ++ partition.toNat.repr ++
    " ORDER BY " ++ buildSortKey partitionOrderBy keyColumnName

/-- `columnstoreFullSortKey` is `NULL` in a streaming queue. -/
def makeReadOriginalTableQuery (query : String) (columnstoreFullSortKey : Option (List String))
    (partitionOrderBy : ColumnNames) (partition : UInt32) : String :=
  let resultQuery := "SELECT * FROM (" ++ query ++ ")" ++
    " WHERE partition_id() = " ++ partition.toNat.repr
  let sortKey := columnstoreFullSortKey.getD []
  if 0 < sortKey.length then
    resultQuery ++ " ORDER BY " ++ joinColumnNames sortKey
  else if 0 < partitionOrderBy.number then
    resultQuery ++ " ORDER BY " ++ partitionOrderBy.join
  else
    resultQuery

inductive ParallelReadType where
  | resultTable
  | originalTable
  | columnStoreTable
  | unknown
  deriving DecidableEq, Repr

/-- The arguments of `CreateChunkQueue` that the queries depend on. -/
structure ReadArgs where
  resultTableName : String
  selectQuery : String
  keyColumnName : String
  partitionOrderBy : ColumnNames

/-- The `switch` of `MultiPassQueue::CreateChunkQueue`; the sort key is the one
of `GetTableKeys`. -/
def MultiPassQueue.readQuery (args : ReadArgs) (sortKey : List String) (partition : UInt32) :
    ParallelReadType → Option String
  | .resultTable => some (makeReadResultTableQuery args.resultTableName partition)
  | .columnStoreTable =>
    some (makeReadColumnStoreTableQuery args.resultTableName args.keyColumnName
      args.partitionOrderBy partition)
  | .originalTable =>
    some (makeReadOriginalTableQuery args.selectQuery (some sortKey) args.partitionOrderBy
      partition)
  | .unknown => none

/-- The `switch` of `StreamingQueue::CreateChunkQueue`. -/
def StreamingQueue.readQuery (args : ReadArgs) (partition : UInt32) :
    ParallelReadType → Option String
  | .resultTable => some (makeReadResultTableQuery args.resultTableName partition)
  | .originalTable =>
    some (makeReadOriginalTableQuery args.selectQuery none args.partitionOrderBy partition)
  | .columnStoreTable | .unknown => none

/-! ## Texts of column lists -/

variable {cols : List String} {partitionOrderBy : ColumnNames} {keyColumnName : String}

@[simp] theorem quotedName_toList (name : String) :
    (quotedName name).toList = quote backtick backtick name.toList :=
  String.toList_ofList

theorem ColumnNames.listed_eq_nil (h : partitionOrderBy.number ≤ 0) :
    partitionOrderBy.listed = [] := by
  rw [listed, Int.toNat_of_nonpos h, List.take_zero]

theorem ColumnNames.listed_ne_nil (h : 0 < partitionOrderBy.number) :
    partitionOrderBy.listed ≠ [] := by
  have hle := partitionOrderBy.number_le
  apply List.ne_nil_of_length_pos
  rw [listed, List.length_take]
  omega

theorem ColumnNames.join_eq (partitionOrderBy : ColumnNames) :
    partitionOrderBy.join = joinColumnNames partitionOrderBy.listed := by
  unfold join
  split
  · rename_i h
    rw [listed_eq_nil h]
    rfl
  · rfl

theorem foldl_quotedName (cols : List String) (result : String) :
    (cols.foldl (fun result col => result ++ "," ++ quotedName col) result).toList =
      result.toList ++ cols.flatMap fun col => ',' :: (quotedName col).toList := by
  induction cols generalizing result with
  | nil => simp
  | cons col cols ih => simp [ih]

theorem joinColumnNames_toList (cols : List String) :
    (joinColumnNames cols).toList = joinNames backtick ',' (cols.map String.toList) := by
  cases cols with
  | nil => rfl
  | cons col cols =>
    rw [joinColumnNames, foldl_quotedName, quotedName_toList]
    induction cols generalizing col with
    | nil => simp [joinNames]
    | cons next cols ih =>
      have hnext := ih next
      simp only [List.flatMap_cons, quotedName_toList, List.map_cons, joinNames] at hnext ⊢
      rw [← hnext]
      simp

theorem joinColumnNames_injective {cols' : List String}
    (h : joinColumnNames cols = joinColumnNames cols') : cols = cols' := by
  have hlists := congrArg String.toList h
  rw [joinColumnNames_toList, joinColumnNames_toList] at hlists
  have hnames := joinNames_injective (by decide) hlists
  exact List.map_injective_iff.mpr (fun a b => String.toList_inj.mp) hnames

theorem joinColumnNames_append (cols : List String) (col : String) :
    joinColumnNames (cols ++ [col]) =
      (if 0 < (joinColumnNames cols).length then joinColumnNames cols ++ "," else "") ++
        quotedName col := by
  cases cols with
  | nil => rfl
  | cons first cols =>
    have hpos : 0 < (joinColumnNames (first :: cols)).length := by
      rw [← String.length_toList, joinColumnNames, foldl_quotedName, quotedName_toList]
      simp [quote]
    rw [if_pos hpos, joinColumnNames, List.cons_append, joinColumnNames, List.foldl_append]
    rfl

/-- The columns of `BuildSortKey`: the key column is added when it is not listed. -/
def sortKeyColumns (partitionOrderBy : ColumnNames) (keyColumnName : String) : List String :=
  if keyColumnName ∈ partitionOrderBy.listed then partitionOrderBy.listed
  else partitionOrderBy.listed ++ [keyColumnName]

theorem buildSortKey_eq (partitionOrderBy : ColumnNames) (keyColumnName : String) :
    buildSortKey partitionOrderBy keyColumnName =
      joinColumnNames (sortKeyColumns partitionOrderBy keyColumnName) := by
  have hany : (partitionOrderBy.listed.any fun col => keyColumnName == col) = true ↔
      keyColumnName ∈ partitionOrderBy.listed := by
    simp
  rw [buildSortKey, sortKeyColumns, partitionOrderBy.join_eq]
  by_cases hmem : keyColumnName ∈ partitionOrderBy.listed
  · simp [hmem]
  · have hneed : (!partitionOrderBy.listed.any fun col => keyColumnName == col) = true := by
      rw [Bool.not_eq_true', ← Bool.not_eq_true, hany]
      exact hmem
    rw [if_neg hmem, joinColumnNames_append]
    simp only [hneed, if_true]
    by_cases hpos : 0 < (joinColumnNames partitionOrderBy.listed).length
    · rw [if_pos hpos, if_pos hpos]
    · have hempty : joinColumnNames partitionOrderBy.listed = "" := by
        rw [← String.length_eq_zero_iff]
        omega
      rw [if_neg hpos, if_neg hpos, hempty]

theorem keyColumnName_mem_sortKeyColumns (partitionOrderBy : ColumnNames)
    (keyColumnName : String) : keyColumnName ∈ sortKeyColumns partitionOrderBy keyColumnName := by
  unfold sortKeyColumns
  split
  · assumption
  · simp

theorem sortKeyColumns_ne_nil (partitionOrderBy : ColumnNames) (keyColumnName : String) :
    sortKeyColumns partitionOrderBy keyColumnName ≠ [] :=
  List.ne_nil_of_mem (keyColumnName_mem_sortKeyColumns partitionOrderBy keyColumnName)

end SasLibclient
