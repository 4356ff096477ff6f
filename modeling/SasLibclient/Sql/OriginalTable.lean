import Mathlib.Data.Finset.Lattice.Lemmas
import SasLibclient.CreateChunkQueue
import SasLibclient.Sql.ReadQuery

/-!
# Reading the original table (`S2Connection::GetParallelReadType`)

Without a result table the partitions of the table itself are read, in the
order of its sort key. The type is chosen only when the shard key is a subset of
`partitionByCols` and `partitionOrderByCols` are the first columns of the sort
key. Then rows that are equal on `partitionByCols` go to one consumer, and the
rows of a partition come in the order of `partitionOrderByCols`.
-/

namespace SasLibclient

open Sorting Loops

/-- Columns 1 and 2 of the answer to the query of `GetTableKeys`. -/
structure StatisticsRow where
  columnName : String
  indexType : String
  deriving DecidableEq, Repr

structure TableKeys where
  shardKey : Finset String
  sortKey : List String
  deriving DecidableEq

/-- `!strncmp(row[2], "CLUSTERED COLUMNSTORE", lengths[2])` -/
def StatisticsRow.isSortKey (row : StatisticsRow) : Bool :=
  row.indexType.toList.isPrefixOf "CLUSTERED COLUMNSTORE".toList

/-- One turn of the loop of `GetTableKeys`. -/
def TableKeys.add (keys : TableKeys) (row : StatisticsRow) : TableKeys :=
  if row.isSortKey then
    { keys with sortKey := keys.sortKey ++ [row.columnName] }
  else
    { keys with shardKey := insert row.columnName keys.shardKey }

def getTableKeys (rows : List StatisticsRow) : TableKeys := rows.foldl TableKeys.add ⟨∅, []⟩

/-- `explainRow.substr(0, explainRow.find(" "))` -/
def explainOperation (explainRow : String) : String :=
  String.ofList (explainRow.toList.takeWhile (· ≠ ' '))

def isScanOperation (op : String) : Bool :=
  op == "ColumnStoreScan" || op == "OrderedColumnStoreScan" || op == "ColumnStoreFilter"

/-- The loop of `CheckExplainOperations`. -/
def checkExplainLoop : Bool → List String → Bool
  | _, [] => true
  | checkOperation, row :: rows =>
    if checkOperation && !isScanOperation (explainOperation row) then
      false
    else
      checkExplainLoop (checkOperation || "ResultTable".toList.isPrefixOf row.toList) rows

def checkExplainOperations (rows : List String) : Bool := checkExplainLoop false rows

/-- The comparison of the shard key with `partitionByCols`. -/
def shardKeyMatches (keys : TableKeys) (partitionBy : ColumnNames) : Bool :=
  if 0 < partitionBy.number then
    if keys.shardKey = ∅ then
      false
    else
      let partitionByColSet := partitionBy.listed.toFinset
      decide (∀ col ∈ keys.shardKey, col ∈ partitionByColSet)
  else
    true

/-- The loop that compares the sort key with `partitionOrderByCols`. -/
def sortKeyLoop : List String → List String → Bool
  | [], _ => true
  | col :: cols, key :: keys => if key ≠ col then false else sortKeyLoop cols keys
  | _ :: _, [] => false

/-- A negative number of columns is a huge `size_t`. -/
def sortKeyMatches (keys : TableKeys) (partitionOrderBy : ColumnNames) : Bool :=
  if partitionOrderBy.number % 2 ^ 64 > keys.sortKey.length then
    false
  else
    sortKeyLoop partitionOrderBy.listed keys.sortKey

/-- The answers of the server to the queries of `GetTableKeys` and
`CheckExplainOperations`. -/
structure S2Server where
  statistics : String → Except S2ClientError (List StatisticsRow)
  explain : String → Except S2ClientError (List String)

/-- The type for a table that has to be created. -/
def createdTableType (materialized : Bool) : ParallelReadType :=
  if materialized then .columnStoreTable else .resultTable

def getParallelReadType (server : S2Server) (selectQuery : String) (sourceTable : Option String)
    (materialized : Bool) (partitionBy partitionOrderBy : ColumnNames)
    (readType : ParallelReadType) : Except S2ClientError ParallelReadType :=
  if readType ≠ .unknown then
    .ok readType
  else
    match sourceTable with
    | none => .ok (createdTableType materialized)
    | some sourceTable => do
      let tableKeys := getTableKeys (← server.statistics sourceTable)
      let isColumnstoreScanOk :=
        shardKeyMatches tableKeys partitionBy && sortKeyMatches tableKeys partitionOrderBy
      let isSelectSimple := checkExplainOperations (← server.explain selectQuery)
      if isColumnstoreScanOk && isSelectSimple then
        .ok .originalTable
      else
        .ok (createdTableType materialized)

/-! ## The keys of a table -/

/-- The keys of a table, each in the order of its index. -/
structure SourceTable where
  shardKey : List String
  sortKey : List String

/-- The answer to the query of `GetTableKeys`, which is ordered by the type of
the index. -/
def SourceTable.statistics (t : SourceTable) : List StatisticsRow :=
  (t.sortKey.map fun col => ⟨col, "CLUSTERED COLUMNSTORE"⟩) ++
    t.shardKey.map fun col => ⟨col, "SHARD"⟩

theorem foldl_add_sortKey (cols : List String) (keys : TableKeys) :
    (cols.map fun col => (⟨col, "CLUSTERED COLUMNSTORE"⟩ : StatisticsRow)).foldl TableKeys.add
      keys = { keys with sortKey := keys.sortKey ++ cols } := by
  induction cols generalizing keys with
  | nil => simp
  | cons col cols ih =>
    have hkey : StatisticsRow.isSortKey ⟨col, "CLUSTERED COLUMNSTORE"⟩ = true := by
      simp [StatisticsRow.isSortKey]
    rw [List.map_cons, List.foldl_cons, ih, TableKeys.add, if_pos hkey]
    simp

theorem foldl_add_shardKey (cols : List String) (keys : TableKeys) :
    (cols.map fun col => (⟨col, "SHARD"⟩ : StatisticsRow)).foldl TableKeys.add keys =
      { keys with shardKey := keys.shardKey ∪ cols.toFinset } := by
  induction cols generalizing keys with
  | nil => simp
  | cons col cols ih =>
    have hshard : "SHARD".toList.isPrefixOf "CLUSTERED COLUMNSTORE".toList = false := by decide
    have hkey : StatisticsRow.isSortKey ⟨col, "SHARD"⟩ = false := hshard
    rw [List.map_cons, List.foldl_cons, ih, TableKeys.add, hkey, if_neg (by decide),
      List.toFinset_cons, Finset.union_insert, Finset.insert_union]

/-- `GetTableKeys` returns the keys of the table. -/
theorem getTableKeys_statistics (t : SourceTable) :
    getTableKeys t.statistics = ⟨t.shardKey.toFinset, t.sortKey⟩ := by
  rw [getTableKeys, SourceTable.statistics, List.foldl_append, foldl_add_sortKey,
    foldl_add_shardKey]
  simp

/-! ## What `ReadTypeOriginalTable` says -/

theorem sortKeyLoop_iff {cols keys : List String} : sortKeyLoop cols keys = true ↔ cols <+: keys := by
  induction cols generalizing keys with
  | nil => simp [sortKeyLoop]
  | cons col cols ih =>
    cases keys with
    | nil => simp [sortKeyLoop]
    | cons key keys =>
      rw [sortKeyLoop]
      split
      · rename_i hne
        simp [List.cons_prefix_cons, Ne.symm hne]
      · rename_i heq
        rw [ih, List.cons_prefix_cons]
        simp [not_not.mp heq]

theorem sortKeyMatches_prefix {keys : TableKeys} {partitionOrderBy : ColumnNames}
    (h : sortKeyMatches keys partitionOrderBy = true) :
    partitionOrderBy.listed <+: keys.sortKey := by
  unfold sortKeyMatches at h
  split at h
  · cases h
  · exact sortKeyLoop_iff.mp h

theorem shardKeyMatches_subset {keys : TableKeys} {partitionBy : ColumnNames}
    (h : shardKeyMatches keys partitionBy = true) (hpos : 0 < partitionBy.number) :
    keys.shardKey ≠ ∅ ∧ ∀ col ∈ keys.shardKey, col ∈ partitionBy.listed := by
  unfold shardKeyMatches at h
  rw [if_pos hpos] at h
  split at h
  · cases h
  · rename_i hne
    refine ⟨hne, fun col hcol => ?_⟩
    exact List.mem_toFinset.mp (of_decide_eq_true h col hcol)

/-- **When the original table is chosen**, both keys match. -/
theorem getParallelReadType_originalTable {server : S2Server} {selectQuery : String}
    {sourceTable : Option String} {materialized : Bool} {partitionBy partitionOrderBy : ColumnNames}
    (h : getParallelReadType server selectQuery sourceTable materialized partitionBy
      partitionOrderBy .unknown = .ok .originalTable) :
    ∃ name rows, sourceTable = some name ∧ server.statistics name = .ok rows ∧
      shardKeyMatches (getTableKeys rows) partitionBy = true ∧
      sortKeyMatches (getTableKeys rows) partitionOrderBy = true := by
  have hcreated : createdTableType materialized ≠ .originalTable := by
    cases materialized <;> decide
  unfold getParallelReadType at h
  rw [if_neg (by simp)] at h
  cases sourceTable with
  | none => exact absurd (Except.ok.inj h) hcreated
  | some name =>
    dsimp only at h
    cases hrows : server.statistics name with
    | error e =>
      rw [hrows] at h
      cases h
    | ok rows =>
      rw [hrows] at h
      cases hexplain : server.explain selectQuery with
      | error e =>
        rw [hexplain] at h
        cases h
      | ok explained =>
        rw [hexplain] at h
        refine ⟨name, rows, rfl, hrows, ?_⟩
        by_cases hok : (shardKeyMatches (getTableKeys rows) partitionBy &&
            sortKeyMatches (getTableKeys rows) partitionOrderBy &&
              checkExplainOperations explained) = true
        · simp only [Bool.and_eq_true] at hok
          exact hok.1
        · have hnot := Except.ok.inj ((if_neg hok).symm.trans h)
          exact absurd hnot hcreated

/-! ## Where the rows go -/

/-- The sort key that `CreateChunkQueue` passes to `MakeReadOriginalTableQuery`. -/
def QueueKind.fullSortKey (kind : QueueKind) (sortKey : List String) : Option (List String) :=
  match kind with
  | .multiPass => some sortKey
  | .streaming => none

/-- The query of a partition of the original table. -/
def QueueKind.originalTableQuery (kind : QueueKind) (args : ReadArgs) (sortKey : List String)
    (partition : UInt32) : Option String :=
  match kind with
  | .multiPass => MultiPassQueue.readQuery args sortKey partition .originalTable
  | .streaming => StreamingQueue.readQuery args partition .originalTable

theorem QueueKind.originalTableQuery_eq (kind : QueueKind) (args : ReadArgs)
    (sortKey : List String) (partition : UInt32) :
    kind.originalTableQuery args sortKey partition =
      some (ReadQuery.text ⟨.query args.selectQuery, partition,
        originalOrderBy (kind.fullSortKey sortKey) args.partitionOrderBy⟩) := by
  cases kind <;> exact congrArg some (makeReadOriginalTableQuery_eq _ _ _ _)

/-- The workers of a parallel read, each with its number of consumers. -/
structure ReadCluster where
  kind : QueueKind
  capacity : Nat
  numPartitions : Nat
  numWorkers : Nat
  nConsumers : Nat → Int
  range : (numWorkers : Int) + numPartitions ≤ intMax

namespace ReadCluster

/-- The reader of partition `p` runs on worker `w` and pushes into the queue of
consumer `c`. -/
def Assigns (R : ReadCluster) (p w c : Nat) : Prop :=
  ∃ partitions queues v,
    workerPartitions R.numWorkers w R.numPartitions = .ok partitions ∧ (p : Int) ∈ partitions ∧
    createQueues R.kind ⟨R.numPartitions, w, R.numWorkers⟩ R.capacity (R.nConsumers w) =
      .ok (queues, v) ∧
    v[p]? = some (c : Int)

/-- The row is in a result of a reader of worker `w` that pushes into the queue
of consumer `c`. -/
def Delivers {Row : Type} (R : ReadCluster) (db : Database Row) (args : ReadArgs)
    (sortKey : List String) (w c : Nat) (row : Row) : Prop :=
  ∃ p text result, R.Assigns p w c ∧
    R.kind.originalTableQuery args sortKey (UInt32.ofNat p) = some text ∧
    db.Executes (.query args.selectQuery) text result ∧ row ∈ result

variable {R : ReadCluster} {p w w' c c' : Nat}

theorem Assigns.lt (h : R.Assigns p w c) (hw : w < R.numWorkers) : p < R.numPartitions := by
  obtain ⟨partitions, queues, v, hpart, hp, -⟩ := h
  have hstep : (0 : Int) < R.numWorkers := by omega
  rw [workerPartitions_ok hstep] at hpart
  obtain rfl := Except.ok.inj hpart
  obtain ⟨_, hlt, _⟩ := (mem_strided hstep).mp hp
  omega

/-- **A partition has one reader**, on one worker and for one consumer. -/
theorem Assigns.unique (h : R.Assigns p w c) (h' : R.Assigns p w' c') (hw : w < R.numWorkers)
    (hw' : w' < R.numWorkers) : w = w' ∧ c = c' := by
  obtain ⟨partitions, queues, v, hpart, hp, hqueues, hv⟩ := h
  obtain ⟨partitions', queues', v', hpart', hp', hqueues', hv'⟩ := h'
  have hstep : (0 : Int) < R.numWorkers := by omega
  rw [workerPartitions_ok hstep] at hpart hpart'
  obtain rfl := Except.ok.inj hpart
  obtain rfl := Except.ok.inj hpart'
  have hsame := strided_disjoint hstep (by omega) (by omega) (by omega) (by omega) hp hp'
  obtain rfl : w = w' := by omega
  rw [hqueues] at hqueues'
  obtain ⟨_, rfl⟩ := Prod.mk.inj (Except.ok.inj hqueues')
  rw [hv] at hv'
  have hc := Option.some.inj hv'
  exact ⟨rfl, by omega⟩

/-- The queues of worker `w` and its `m_partition_consumer`, in both modes. -/
theorem exists_createQueues (R : ReadCluster) (hW : 0 < R.numWorkers)
    (hn : 1 ≤ R.nConsumers w ∧ R.nConsumers w ≤ intMax) :
    ∃ queues v, createQueues R.kind ⟨R.numPartitions, w, R.numWorkers⟩ R.capacity
        (R.nConsumers w) = .ok (queues, v) ∧
      InvertsLists R.numWorkers R.numPartitions (fun w => (R.nConsumers w).toNat) w v := by
  let counts : Nat → Nat := fun w => (R.nConsumers w).toNat
  have hcount : R.nConsumers w = (counts w : Int) := (Int.toNat_of_nonneg (by omega)).symm
  have hpos : 1 ≤ counts w := by omega
  have hmax : (counts w : Int) ≤ intMax := by omega
  have hworker := workerPartitions_ok (by omega : (0 : Int) < R.numWorkers) w R.numPartitions
  unfold createQueues
  cases R.kind with
  | multiPass =>
    obtain ⟨queues, v, hrun, hinverts⟩ := createConsumerQueues_worker
      (ThreadSafeBatchQueue.create (T := ReadChunk) R.capacity) hW hpos hmax
    refine ⟨queues.map .batch, v, ?_, hinverts⟩
    dsimp only
    rw [MultiPassQueue.createQueues, hworker, hcount]
    exact congrArg (fun r => r >>= _) hrun
  | streaming =>
    obtain ⟨queues, v, hrun, hinverts⟩ := createConsumerQueues_worker
      (fun ps => ThreadSafeSimpleQueue.create (T := ReadChunk) R.capacity ps.length) hW hpos hmax
    refine ⟨queues.map .simple, v, ?_, hinverts⟩
    dsimp only
    rw [StreamingQueue.createQueues, if_pos rfl, hworker, hcount]
    exact congrArg (fun r => r >>= _) hrun

/-- **Every partition has a reader.** -/
theorem exists_assigns (R : ReadCluster) (hW : 0 < R.numWorkers)
    (hn : ∀ w < R.numWorkers, 1 ≤ R.nConsumers w ∧ R.nConsumers w ≤ intMax)
    (hp : p < R.numPartitions) : ∃ w < R.numWorkers, ∃ c, R.Assigns p w c := by
  have hstep : (0 : Int) < R.numWorkers := by omega
  have hmem := mem_strided_emod hstep (by omega : (0 : Int) ≤ p) (by omega : (p : Int) < R.numPartitions)
  have hlt := Int.emod_lt_of_pos (p : Int) hstep
  obtain ⟨w, hwp⟩ := Int.eq_ofNat_of_zero_le
    (Int.emod_nonneg (p : Int) (by omega : (R.numWorkers : Int) ≠ 0))
  rw [hwp] at hmem hlt
  have hw : w < R.numWorkers := by omega
  obtain ⟨queues, v, hqueues, hinverts⟩ := R.exists_createQueues hW (hn w hw)
  obtain ⟨c, hc0, hcn, hpick⟩ := exists_pick
    (by have := (hn w hw).1; omega : (0 : Int) < (R.nConsumers w).toNat) hmem
  obtain ⟨c, rfl⟩ := Int.eq_ofNat_of_zero_le hc0
  have hc : c < (R.nConsumers w).toNat := by omega
  exact ⟨w, hw, c, _, queues, v, workerPartitions_ok hstep _ _, hmem, hqueues,
    ((hinverts p hp).1 c hc).mpr hpick⟩

theorem delivers_iff {Row : Type} {db : Database Row} {args : ReadArgs} {sortKey : List String}
    {row : Row} (hw : w < R.numWorkers) : R.Delivers db args sortKey w c row ↔
      row ∈ db.rows (.query args.selectQuery) ∧
        R.Assigns (db.partitionId (.query args.selectQuery) row) w c := by
  have hrange := R.range
  have htoNat : ∀ p, p < R.numPartitions → (UInt32.ofNat p).toNat = p := by
    intro p hp
    unfold intMax at hrange
    exact UInt32.toNat_ofNat_of_lt' (by rw [UInt32.size]; omega)
  constructor
  · rintro ⟨p, text, result, hassigns, htext, hexecutes, hrow⟩
    rw [QueueKind.originalTableQuery_eq] at htext
    obtain rfl := Option.some.inj htext
    have hsorted := (db.executes_text ⟨.query args.selectQuery, UInt32.ofNat p, _⟩).mp hexecutes
    obtain ⟨hmem, hpartition⟩ := List.mem_filter.mp (hsorted.1.mem_iff.mp hrow)
    have hid := of_decide_eq_true hpartition
    rw [htoNat p (hassigns.lt hw)] at hid
    exact ⟨hmem, hid ▸ hassigns⟩
  · rintro ⟨hmem, hassigns⟩
    let q : ReadQuery := ⟨.query args.selectQuery,
      UInt32.ofNat (db.partitionId (.query args.selectQuery) row),
      originalOrderBy (R.kind.fullSortKey sortKey) args.partitionOrderBy⟩
    obtain ⟨result, hresult⟩ := db.compares.exists_sortedPerm q.orderBy
      (db.partitionRows q.source q.partition)
    refine ⟨_, q.text, result, hassigns, QueueKind.originalTableQuery_eq _ _ _ _,
      (db.executes_text q).mpr hresult, hresult.1.mem_iff.mpr (List.mem_filter.mpr ⟨hmem, ?_⟩)⟩
    exact decide_eq_true (htoNat _ (hassigns.lt hw)).symm

end ReadCluster

/-! ## Soundness of the choice -/

/-- The rows are placed by a hash of their values in the shard key; without a
shard key they lie anywhere. -/
def SourceTable.Places {Row Value : Type} (t : SourceTable) (value : Row → String → Value)
    (partitionId : Row → Nat) : Prop :=
  t.shardKey ≠ [] → ∃ hash : List Value → Nat, ∀ row,
    partitionId row = hash (t.shardKey.map (value row))

section Soundness

variable {Row Value : Type} {t : SourceTable} {value : Row → String → Value} {partitionId : Row → Nat}
  {partitionBy partitionOrderBy : ColumnNames} {row row' : Row}

/-- Rows that are equal on columns that include the shard key lie in one
partition. -/
theorem SourceTable.Places.same_partition (h : t.Places value partitionId)
    (hmatches : shardKeyMatches (getTableKeys t.statistics) partitionBy = true)
    (hpos : 0 < partitionBy.number)
    (heq : ∀ col ∈ partitionBy.listed, value row col = value row' col) :
    partitionId row = partitionId row' := by
  obtain ⟨hne, hsubset⟩ := shardKeyMatches_subset hmatches hpos
  rw [getTableKeys_statistics] at hne hsubset
  have hshard : t.shardKey ≠ [] := fun hnil => hne (by rw [hnil]; rfl)
  obtain ⟨hash, hhash⟩ := h hshard
  have hvalues : t.shardKey.map (value row) = t.shardKey.map (value row') :=
    List.map_congr_left fun col hcol => heq col (hsubset col (List.mem_toFinset.mpr hcol))
  rw [hhash row, hhash row', hvalues]

theorem listed_prefix_originalOrderBy (kind : QueueKind)
    (h : sortKeyMatches (getTableKeys t.statistics) partitionOrderBy = true) :
    partitionOrderBy.listed <+: originalOrderBy (kind.fullSortKey t.sortKey) partitionOrderBy := by
  have hfront := sortKeyMatches_prefix h
  rw [getTableKeys_statistics] at hfront
  cases kind with
  | streaming => exact List.prefix_rfl
  | multiPass =>
    cases hkey : t.sortKey with
    | nil => exact List.prefix_rfl
    | cons col cols =>
      rw [hkey] at hfront
      exact hfront

end Soundness

/-- **Reading the original table is sound.** Rows that are equal on
`partitionByCols` are read by one worker for one consumer, and what is sorted by
the columns of the query is sorted by `partitionOrderByCols`. The table is
placed by the columns of the rows that are read (`hplaces`), so a select that
renames columns of the shard key is left out. -/
theorem originalTable_sound {Row Value : Type} {server : S2Server} {t : SourceTable}
    {sourceTable : Option String} {materialized : Bool} {partitionBy : ColumnNames}
    {args : ReadArgs} {db : Database Row} {value : Row → String → Value}
    (hserver : ∀ name, sourceTable = some name → server.statistics name = .ok t.statistics)
    (hplaces : t.Places value (db.partitionId (.query args.selectQuery)))
    (htype : getParallelReadType server args.selectQuery sourceTable materialized partitionBy
      args.partitionOrderBy .unknown = .ok .originalTable) :
    (0 < partitionBy.number →
      ∀ row ∈ db.rows (.query args.selectQuery), ∀ row' ∈ db.rows (.query args.selectQuery),
        (∀ col ∈ partitionBy.listed, value row col = value row' col) →
        db.partitionId (.query args.selectQuery) row =
          db.partitionId (.query args.selectQuery) row' ∧
        ∀ R : ReadCluster,
          (∀ w < R.numWorkers, ∀ w' < R.numWorkers, ∀ c c',
            R.Delivers db args t.sortKey w c row → R.Delivers db args t.sortKey w' c' row' →
              w = w' ∧ c = c') ∧
          (0 < R.numWorkers →
            (∀ w < R.numWorkers, 1 ≤ R.nConsumers w ∧ R.nConsumers w ≤ intMax) →
            db.partitionId (.query args.selectQuery) row < R.numPartitions →
            ∃ w < R.numWorkers, ∃ c, R.Delivers db args t.sortKey w c row ∧
              R.Delivers db args t.sortKey w c row')) ∧
    ∀ (kind : QueueKind) (partition : UInt32) (text : String) (q : ReadQuery),
      kind.originalTableQuery args t.sortKey partition = some text →
      q.source = .query args.selectQuery → q.text = text →
      ∀ l : List Row, l.Pairwise (OrderBy db.le q.orderBy) →
        l.Pairwise (OrderBy db.le args.partitionOrderBy.listed) := by
  obtain ⟨name, rows, hname, hrows, hshard, hsort⟩ := getParallelReadType_originalTable htype
  rw [hserver name hname] at hrows
  obtain rfl := Except.ok.inj hrows
  constructor
  · intro hpos row hrow row' hrow' heq
    have hsame := hplaces.same_partition hshard hpos heq
    refine ⟨hsame, fun R => ⟨?_, ?_⟩⟩
    · intro w hw w' hw' c c' hdelivers hdelivers'
      have hassigns := ((ReadCluster.delivers_iff hw).mp hdelivers).2
      have hassigns' := ((ReadCluster.delivers_iff hw').mp hdelivers').2
      rw [← hsame] at hassigns'
      exact hassigns.unique hassigns' hw hw'
    · intro hW hn hlt
      obtain ⟨w, hw, c, hassigns⟩ := R.exists_assigns hW hn hlt
      refine ⟨w, hw, c, (ReadCluster.delivers_iff hw).mpr ⟨hrow, hassigns⟩,
        (ReadCluster.delivers_iff hw).mpr ⟨hrow', ?_⟩⟩
      rw [← hsame]
      exact hassigns
  · intro kind partition text q htext hsource hq l hl
    rw [QueueKind.originalTableQuery_eq, ← hq] at htext
    obtain rfl := ReadQuery.text_injective
      (q := ⟨.query args.selectQuery, partition,
        originalOrderBy (kind.fullSortKey t.sortKey) args.partitionOrderBy⟩)
      hsource.symm (Option.some.inj htext)
    exact hl.imp fun hab => hab.of_prefix (listed_prefix_originalOrderBy kind hsort)

/-- Rows with the columns `a` and `b`; they are placed by the first. -/
def twoColumns : Database (Nat × Nat) where
  rows := fun _ => [(1, 5), (1, 7)]
  partitionId := fun _ row => row.1 % 2
  le := fun col row row' =>
    (if col = "a" then row.1 else row.2) ≤ if col = "a" then row'.1 else row'.2
  compares := compares_of_value fun col (row : Nat × Nat) => if col = "a" then row.1 else row.2

def twoColumnsArgs : ReadArgs := ⟨"tmp", "SELECT * FROM t", "id", ⟨["b"], 1, by decide⟩⟩

def twoColumnsServer : S2Server where
  statistics := fun _ => .ok (SourceTable.statistics ⟨["a"], ["b", "a"]⟩)
  explain := fun _ => .ok ["ResultTable tmp", "ColumnStoreScan t"]

def twoWorkers : ReadCluster := ⟨.multiPass, 4, 2, 2, fun _ => 1, by decide⟩

/-- Two rows that are equal in the shard key, on the same worker. -/
theorem originalTable_sound_twoColumns :
    ∃ w < 2, ∃ c, twoWorkers.Delivers twoColumns twoColumnsArgs ["b", "a"] w c (1, 5) ∧
      twoWorkers.Delivers twoColumns twoColumnsArgs ["b", "a"] w c (1, 7) := by
  have hplaces : SourceTable.Places ⟨["a"], ["b", "a"]⟩
      (fun (row : Nat × Nat) col => if col = "a" then row.1 else row.2)
      (twoColumns.partitionId (.query twoColumnsArgs.selectQuery)) :=
    fun _ => ⟨fun values => values.headD 0 % 2, fun row => rfl⟩
  have htype : getParallelReadType twoColumnsServer twoColumnsArgs.selectQuery (some "t") true
      ⟨["a"], 1, by decide⟩ twoColumnsArgs.partitionOrderBy .unknown = .ok .originalTable := by
    decide +kernel
  have hsound := originalTable_sound (fun _ _ => rfl) hplaces htype
  exact (hsound.1 (by decide) (1, 5) (by decide) (1, 7) (by decide) (by decide)).2 twoWorkers
    |>.2 (by decide) (by decide) (by decide)

end SasLibclient
