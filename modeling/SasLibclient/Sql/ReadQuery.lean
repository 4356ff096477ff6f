import SasLibclient.Sorting.OrderBy
import SasLibclient.Sql.Queries

/-!
# The meaning of the read queries

A read query has the form `SELECT * FROM source WHERE partition_id() = p`, with
or without `ORDER BY` and a list of columns. The text determines the partition
and the columns. The database returns the rows of the partition in some order
that is sorted by the columns; without columns every order is.
-/

namespace SasLibclient

open Quoting Sorting

/-- What stands after `FROM`. -/
inductive Source where
  | resultTable (name : String)
  | table (name : String)
  | query (text : String)
  deriving DecidableEq, Repr

def Source.text : Source → String
  | .resultTable name => "::" ++ quotedName name
  | .table name => quotedName name
  | .query text => "(" ++ text ++ ")"

def orderByClause : List String → String
  | [] => ""
  | cols => " ORDER BY " ++ joinColumnNames cols

structure ReadQuery where
  source : Source
  partition : UInt32
  orderBy : List String
  deriving DecidableEq, Repr

def ReadQuery.text (q : ReadQuery) : String :=
  "SELECT * FROM " ++ q.source.text ++ " WHERE partition_id() = " ++ q.partition.toNat.repr ++
    orderByClause q.orderBy

/-! ## The text determines the query -/

theorem orderByClause_ne_nil {cols : List String} (h : cols ≠ []) :
    orderByClause cols = " ORDER BY " ++ joinColumnNames cols := by
  cases cols with
  | nil => exact absurd rfl h
  | cons col cols => rfl

theorem orderByClause_head (cols : List String) :
    ∀ c, (orderByClause cols).toList.head? = some c → c.isDigit = false := by
  intro c hc
  cases cols with
  | nil => cases hc
  | cons col cols =>
    rw [orderByClause_ne_nil (List.cons_ne_nil col cols), String.toList_append] at hc
    obtain rfl : ' ' = c := Option.some.inj hc
    rfl

theorem orderByClause_injective {cols cols' : List String}
    (h : orderByClause cols = orderByClause cols') : cols = cols' := by
  have hlen : ∀ col (cols : List String), orderByClause (col :: cols) ≠ "" := by
    intro col cols hempty
    have hlist := congrArg String.toList hempty
    rw [orderByClause_ne_nil (List.cons_ne_nil col cols), String.toList_append] at hlist
    cases hlist
  cases cols with
  | nil =>
    cases cols' with
    | nil => rfl
    | cons col' cols' => exact absurd h.symm (hlen col' cols')
  | cons col cols =>
    cases cols' with
    | nil => exact absurd h (hlen col cols)
    | cons col' cols' =>
      rw [orderByClause_ne_nil (List.cons_ne_nil col cols),
        orderByClause_ne_nil (List.cons_ne_nil col' cols'), String.append_right_inj] at h
      exact joinColumnNames_injective h

/-- Digits end where the first character comes that is not a digit. -/
theorem digits_append_inj {ds ds' rest rest' : List Char} (hds : ∀ c ∈ ds, c.isDigit = true)
    (hds' : ∀ c ∈ ds', c.isDigit = true) (hrest : ∀ c, rest.head? = some c → c.isDigit = false)
    (hrest' : ∀ c, rest'.head? = some c → c.isDigit = false) (h : ds ++ rest = ds' ++ rest') :
    ds = ds' ∧ rest = rest' := by
  have hnone : ∀ l : List Char, (∀ c, l.head? = some c → c.isDigit = false) →
      l.takeWhile Char.isDigit = [] := by
    intro l hl
    cases l with
    | nil => rfl
    | cons c cs => rw [List.takeWhile_cons_of_neg (by simp [hl c rfl])]
  have htake := congrArg (List.takeWhile Char.isDigit) h
  rw [List.takeWhile_append_of_pos hds, List.takeWhile_append_of_pos hds', hnone rest hrest,
    hnone rest' hrest', List.append_nil, List.append_nil] at htake
  subst htake
  exact ⟨rfl, List.append_cancel_left h⟩

theorem repr_injective {m n : Nat} (h : m.repr.toList = n.repr.toList) : m = n := by
  rw [Nat.toList_repr, Nat.toList_repr] at h
  rw [← Nat.ofDigitChars_ten_toDigits (n := m), h, Nat.ofDigitChars_ten_toDigits]

/-- **The text of a query** on a given source determines the query. -/
theorem ReadQuery.text_injective {q q' : ReadQuery} (hsource : q.source = q'.source)
    (h : q.text = q'.text) : q = q' := by
  obtain ⟨source, partition, orderBy⟩ := q
  obtain ⟨source', partition', orderBy'⟩ := q'
  subst hsource
  have hrest : partition.toNat.repr ++ orderByClause orderBy =
      partition'.toNat.repr ++ orderByClause orderBy' := by
    refine String.append_right_inj ("SELECT * FROM " ++ source.text ++ " WHERE partition_id() = ")
      |>.mp ?_
    rw [← String.append_assoc, ← String.append_assoc]
    exact h
  have hlists := congrArg String.toList hrest
  rw [String.toList_append, String.toList_append] at hlists
  have hdigits : ∀ n : Nat, ∀ c ∈ n.repr.toList, c.isDigit = true := by
    intro n c hc
    rw [Nat.toList_repr] at hc
    exact Nat.isDigit_of_mem_toDigits (by decide) (by decide) hc
  obtain ⟨hpartition, hclause⟩ := digits_append_inj (hdigits _) (hdigits _)
    (orderByClause_head orderBy) (orderByClause_head orderBy') hlists
  have hsame : partition = partition' := UInt32.toNat_inj.mp (repr_injective hpartition)
  have hcols := orderByClause_injective (String.toList_inj.mp hclause)
  rw [hsame, hcols]

/-! ## The three functions -/

variable {args : ReadArgs} {sortKey : List String} {partition : UInt32}

/-- The columns after `ORDER BY` in the query on the original table. -/
def originalOrderBy (columnstoreFullSortKey : Option (List String))
    (partitionOrderBy : ColumnNames) : List String :=
  match columnstoreFullSortKey with
  | some (col :: cols) => col :: cols
  | _ => partitionOrderBy.listed

theorem makeReadResultTableQuery_eq (resultTableName : String) (partition : UInt32) :
    makeReadResultTableQuery resultTableName partition =
      ReadQuery.text ⟨.resultTable resultTableName, partition, []⟩ := by
  have hselect : ∀ s, "SELECT * FROM ::" ++ s = "SELECT * FROM " ++ ("::" ++ s) := by
    intro s
    rw [← String.append_assoc]
    rfl
  unfold makeReadResultTableQuery ReadQuery.text Source.text orderByClause
  dsimp only
  rw [String.append_empty, hselect]

theorem makeReadColumnStoreTableQuery_eq (tableName keyColumnName : String)
    (partitionOrderBy : ColumnNames) (partition : UInt32) :
    makeReadColumnStoreTableQuery tableName keyColumnName partitionOrderBy partition =
      ReadQuery.text ⟨.table tableName, partition,
        sortKeyColumns partitionOrderBy keyColumnName⟩ := by
  unfold makeReadColumnStoreTableQuery ReadQuery.text Source.text
  rw [buildSortKey_eq,
    orderByClause_ne_nil (sortKeyColumns_ne_nil partitionOrderBy keyColumnName),
    ← String.append_assoc]

theorem originalTable_text (query : String) (partition : UInt32) (orderBy : List String) :
    ReadQuery.text ⟨.query query, partition, orderBy⟩ =
      "SELECT * FROM (" ++ query ++ ")" ++ " WHERE partition_id() = " ++
        partition.toNat.repr ++ orderByClause orderBy := by
  have hselect : ∀ s, "SELECT * FROM (" ++ s = "SELECT * FROM " ++ ("(" ++ s) := by
    intro s
    rw [← String.append_assoc]
    rfl
  unfold ReadQuery.text Source.text
  dsimp only
  rw [hselect, ← String.append_assoc]

theorem makeReadOriginalTableQuery_eq (query : String)
    (columnstoreFullSortKey : Option (List String)) (partitionOrderBy : ColumnNames)
    (partition : UInt32) :
    makeReadOriginalTableQuery query columnstoreFullSortKey partitionOrderBy partition =
      ReadQuery.text ⟨.query query, partition,
        originalOrderBy columnstoreFullSortKey partitionOrderBy⟩ := by
  -- without a sort key, the array decides
  have harray : ∀ base : String, (if 0 < partitionOrderBy.number then
      base ++ " ORDER BY " ++ partitionOrderBy.join else base) =
        base ++ orderByClause partitionOrderBy.listed := by
    intro base
    by_cases hnumber : 0 < partitionOrderBy.number
    · rw [if_pos hnumber, partitionOrderBy.join_eq, String.append_assoc,
        orderByClause_ne_nil (ColumnNames.listed_ne_nil hnumber)]
    · rw [if_neg hnumber, ColumnNames.listed_eq_nil (by omega), orderByClause, String.append_empty]
  rw [originalTable_text, makeReadOriginalTableQuery]
  cases columnstoreFullSortKey with
  | none => exact harray _
  | some sortKey =>
    cases sortKey with
    | nil => exact harray _
    | cons col cols =>
      have hpos : 0 < (col :: cols).length := Nat.succ_pos _
      simp only [Option.getD_some, originalOrderBy, hpos, if_true, String.append_assoc,
        orderByClause_ne_nil (List.cons_ne_nil col cols)]

/-- The query of `MultiPassQueue::CreateChunkQueue`. -/
def MultiPassQueue.query (args : ReadArgs) (sortKey : List String) (partition : UInt32) :
    ParallelReadType → Option ReadQuery
  | .resultTable => some ⟨.resultTable args.resultTableName, partition, []⟩
  | .columnStoreTable =>
    some ⟨.table args.resultTableName, partition,
      sortKeyColumns args.partitionOrderBy args.keyColumnName⟩
  | .originalTable =>
    some ⟨.query args.selectQuery, partition,
      originalOrderBy (some sortKey) args.partitionOrderBy⟩
  | .unknown => none

theorem MultiPassQueue.readQuery_eq (args : ReadArgs) (sortKey : List String) (partition : UInt32)
    (readType : ParallelReadType) : MultiPassQueue.readQuery args sortKey partition readType =
      (MultiPassQueue.query args sortKey partition readType).map ReadQuery.text := by
  cases readType with
  | resultTable => exact congrArg some (makeReadResultTableQuery_eq _ _)
  | originalTable => exact congrArg some (makeReadOriginalTableQuery_eq _ _ _ _)
  | columnStoreTable => exact congrArg some (makeReadColumnStoreTableQuery_eq _ _ _ _)
  | unknown => rfl

/-! ## Executing a query -/

/-- What the queries depend on: the rows of each source, the partitions they lie
in, and how the values of a column compare. -/
structure Database (Row : Type) where
  rows : Source → List Row
  partitionId : Source → Row → Nat
  le : String → Row → Row → Prop
  compares : Compares le

namespace Database

variable {Row : Type} {result : List Row}

def partitionRows (db : Database Row) (source : Source) (partition : UInt32) : List Row :=
  (db.rows source).filter fun row => db.partitionId source row = partition.toNat

/-- `result` is one of the results of the query with this text. -/
def Executes (db : Database Row) (source : Source) (text : String) (result : List Row) : Prop :=
  ∃ q : ReadQuery, q.source = source ∧ q.text = text ∧
    SortedPerm db.le q.orderBy (db.partitionRows q.source q.partition) result

/-- There is only one way to read the text. -/
theorem executes_text (db : Database Row) (q : ReadQuery) :
    db.Executes q.source q.text result ↔
      SortedPerm db.le q.orderBy (db.partitionRows q.source q.partition) result := by
  constructor
  · rintro ⟨q', hsource, htext, hresult⟩
    obtain rfl := ReadQuery.text_injective hsource htext
    exact hresult
  · intro h
    exact ⟨q, rfl, rfl, h⟩

end Database

end SasLibclient
