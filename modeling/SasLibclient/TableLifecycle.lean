import Mathlib.Data.Finset.Insert
import Mathlib.Data.Finset.Erase
import SasLibclient.Connections
import SasLibclient.Sql.Statements

/-!
# The tables of parallel reads (`parallel_read.cpp`)

`ParallelReadInit` creates the table of a read and `ParallelReadFree` drops it,
through texts that the server reads. The reads of many clients share the tables
of one database, in any order and with any refusals. What the server does with a
statement that it does not refuse is a parameter (`ExecutesDdl`). `tables_tracked`
says after every run which tables are there, from what the calls have returned
alone.
-/

namespace SasLibclient

/-- The arguments of `ParallelReadInit`. -/
structure InitArgs where
  resultTableName : String
  selectQuery : String
  sourceTable : Option String
  keyColumnName : String
  readType : ParallelReadType
  materialized : Bool
  partitionBy : ColumnNames
  partitionOrderBy : ColumnNames

/-- The codes of `mysql_errno` start at 1000, and the client reports a missing
result as `S2C_ERROR_UNKNOWN_FAILURE`. -/
def S2ClientError.OfServer (e : S2ClientError) : Prop :=
  e.errorCode ≠ 0 ∧ e.errorCode ≠ s2cErrorInvArg

/-- What becomes of a statement; the error is that of the server, if it refuses
or cannot execute it. -/
structure DdlAnswer where
  noMemory : Bool
  refused : Bool
  error : S2ClientError
  ofServer : error.OfServer

/-- The server: the tables after a statement, `none` if it cannot be executed. -/
abbrev DdlServer := Finset TableId → Statement → Option (Finset TableId)

/-- What the server does with the statements about tables. -/
structure ExecutesDdl (execute : DdlServer) : Prop where
  create : ∀ tables table, (∀ kind, ⟨kind, table.name⟩ ∉ tables) →
    execute tables (.create table) = some (insert table tables)
  drop : ∀ tables table, table ∈ tables → execute tables (.drop table) = some (tables.erase table)
  dropMissing : ∀ tables table, table ∉ tables → execute tables (.drop table) = none
  dropIfExists : ∀ tables table,
    execute tables (.dropIfExists table) = some (tables.erase table)

/-- The text of a statement and `S2Connection::ExecuteDDL`; the error of a
`std::bad_alloc` is the one that both callers set. -/
def executeDDL (execute : DdlServer) (D : DdlAnswer) (query : String) (tables : Finset TableId) :
    Except S2ClientError (Finset TableId) :=
  if D.noMemory then .error ⟨s2cErrorMemoryAllocation, "Failed to allocate memory"⟩
  else if D.refused then .error D.error
  else
    match (readStatement query).bind (execute tables) with
    | some tables => .ok tables
    | none => .error D.error

/-- A statement, and the `catch` clauses behind it. -/
def runDDL (execute : DdlServer) (D : DdlAnswer) (query : String) (cb : Bool)
    (tables : Finset TableId) (s : ClientState) : Finset TableId × ClientState :=
  match executeDDL execute D query tables with
  | .ok tables => (tables, s)
  | .error e => (tables, s.setError e cb)

def createdType (readType : ParallelReadType) (materialized : Bool) : TableType :=
  if readType = .columnStoreTable then .regularTable
  else if materialized then .aggResultTableMaterialized
  else .aggResultTable

/-- `ParallelReadInit` -/
def parallelReadInit (execute : DdlServer) (server : S2Server) (D : DdlAnswer) (args : InitArgs)
    (tables : Finset TableId) (s : ClientState) :
    ParallelReadType × Finset TableId × ClientState :=
  let s := s.setError .none false
  match getParallelReadType server args.selectQuery args.sourceTable args.materialized
    args.partitionBy args.partitionOrderBy args.readType with
  | .error e => (args.readType, tables, s.setError e false)
  | .ok readType =>
    if readType = .originalTable then (readType, tables, s)
    else
      let tableType := createdType readType args.materialized
      let s :=
        if tableType = .aggResultTableMaterialized then
          s.setError ⟨s2cErrorInvArg, "Cannot use Materialized Result Table"⟩ false
        else s
      let newQuery := makeCreateTableQuery args.resultTableName args.selectQuery
        args.keyColumnName tableType args.partitionBy args.partitionOrderBy
      (readType, runDDL execute D newQuery false tables s)

/-- `ParallelReadFree` -/
def parallelReadFree (execute : DdlServer) (D : DdlAnswer) (resultTableName : String)
    (readType : ParallelReadType) (cb : Bool) (tables : Finset TableId) (s : ClientState) :
    Finset TableId × ClientState :=
  let s := s.setError .none false
  match readType with
  | .resultTable => runDDL execute D (makeDropResultQuery resultTableName) cb tables s
  | .columnStoreTable => runDDL execute D (makeDropTableQuery resultTableName) cb tables s
  | .originalTable | .unknown => (tables, s)

/-! ## Many reads of one database -/

/-- Where a read is: it was begun with this type and `S2Errno`, or freed without
an error. -/
inductive Phase where
  | idle
  | opened (readType : ParallelReadType) (errno : UInt32)
  | closed
  deriving DecidableEq, Repr

structure ReadSystem (ι : Type) where
  tables : Finset TableId
  phase : ι → Phase
  client : ι → ClientState

inductive Action (ι : Type) where
  | init (i : ι) (server : S2Server) (D : DdlAnswer)
  | free (i : ι) (D : DdlAnswer) (cb : Bool)

section System

variable {ι : Type} [DecidableEq ι]

def ReadSystem.start (tables : Finset TableId) : ReadSystem ι :=
  ⟨tables, fun _ => .idle, fun _ => .create⟩

/-- `ParallelReadInit` of a read that was not begun or was freed, or
`ParallelReadFree` of one that was begun, with the type that was returned. -/
def Action.perform (execute : DdlServer) (args : ι → InitArgs) (s : ReadSystem ι) :
    Action ι → Option (ReadSystem ι)
  | .init i server D =>
    if s.phase i = .idle ∨ s.phase i = .closed then
      let result := parallelReadInit execute server D (args i) s.tables (s.client i)
      some
        { tables := result.2.1
          phase := Function.update s.phase i (.opened result.1 result.2.2.error.errorCode)
          client := Function.update s.client i result.2.2 }
    else none
  | .free i D cb =>
    match s.phase i with
    | .opened readType _ =>
      let result :=
        parallelReadFree execute D (args i).resultTableName readType cb s.tables (s.client i)
      some
        { tables := result.1
          phase :=
            if result.2.error.errorCode = 0 then Function.update s.phase i .closed else s.phase
          client := Function.update s.client i result.2 }
    | _ => none

def ReadSystem.run (execute : DdlServer) (args : ι → InitArgs) :
    List (Action ι) → ReadSystem ι → Option (ReadSystem ι)
  | [], s => some s
  | action :: actions, s => (action.perform execute args s).bind (ReadSystem.run execute args actions)

def S2Server.ErrorCodes (server : S2Server) : Prop :=
  (∀ name e, server.statistics name = .error e → e.OfServer) ∧
    ∀ query e, server.explain query = .error e → e.OfServer

def Action.ErrorCodes : Action ι → Prop
  | .init _ server _ => server.ErrorCodes
  | .free _ _ _ => True

end System

/-! ## What one call does -/

/-- The tables in which a read finds its rows. -/
def ParallelReadType.kind : ParallelReadType → Option TableKind
  | .resultTable => some .result
  | .columnStoreTable => some .regular
  | .originalTable | .unknown => none

/-- `ParallelReadInit` has created the table of the type: without an error, or
with the one about a materialized result table, which does not stop it. -/
def Creates (errno : UInt32) : Prop := errno = 0 ∨ errno = s2cErrorInvArg

/-- The tables with the name of a read that was begun. -/
structure OpenedTables (args : InitArgs) (readType : ParallelReadType) (errno : UInt32)
    (tables : Finset TableId) : Prop where
  mem_iff : ∀ kind, ⟨kind, args.resultTableName.toList⟩ ∈ tables ↔
    Creates errno ∧ readType.kind = some kind
  materialized : errno = s2cErrorInvArg → args.materialized = true ∧ readType = .resultTable

section Calls

variable {execute : DdlServer} {args : InitArgs} {tables tables' : Finset TableId} {s : ClientState}
  {readType : ParallelReadType} {errno : UInt32} {cb : Bool}

/-- A statement is executed without a new error, or nothing changes. -/
theorem runDDL_cases (execute : DdlServer) (D : DdlAnswer) {query : String} {statement : Statement}
    (hquery : readStatement query = some statement) (cb : Bool) (tables : Finset TableId)
    (s : ClientState) :
    (∃ tables', execute tables statement = some tables' ∧
      runDDL execute D query cb tables s = (tables', s)) ∨
    ((D.noMemory = true ∨ D.refused = true ∨ execute tables statement = none) ∧
      ∃ e : S2ClientError, e.OfServer ∧
        runDDL execute D query cb tables s = (tables, s.setError e cb)) := by
  have hexecute : (readStatement query).bind (execute tables) = execute tables statement := by
    rw [hquery, Option.bind_some]
  unfold runDDL executeDDL
  rw [hexecute]
  by_cases hmemory : D.noMemory = true
  · rw [if_pos hmemory]
    exact Or.inr ⟨Or.inl hmemory, _, by unfold S2ClientError.OfServer; decide, rfl⟩
  · rw [if_neg hmemory]
    by_cases hrefused : D.refused = true
    · rw [if_pos hrefused]
      exact Or.inr ⟨Or.inr (Or.inl hrefused), _, D.ofServer, rfl⟩
    · rw [if_neg hrefused]
      cases hnone : execute tables statement with
      | none => exact Or.inr ⟨Or.inr (Or.inr rfl), _, D.ofServer, rfl⟩
      | some tables' => exact Or.inl ⟨tables', rfl, rfl⟩

/-- `GetParallelReadType` decides, or throws an error of the server. -/
theorem getParallelReadType_cases (server : S2Server) (selectQuery : String)
    (sourceTable : Option String) (materialized : Bool) (partitionBy partitionOrderBy : ColumnNames)
    (readType : ParallelReadType) :
    (∃ e, getParallelReadType server selectQuery sourceTable materialized partitionBy
        partitionOrderBy readType = .error e ∧
      ((∃ name, server.statistics name = .error e) ∨ server.explain selectQuery = .error e)) ∨
    ∃ type, getParallelReadType server selectQuery sourceTable materialized partitionBy
        partitionOrderBy readType = .ok type ∧ type ≠ .unknown := by
  have hcreated : createdTableType materialized ≠ .unknown := by
    cases materialized <;> decide
  unfold getParallelReadType
  by_cases htype : readType = .unknown
  · rw [if_neg (not_not_intro htype)]
    cases sourceTable with
    | none => exact Or.inr ⟨_, rfl, hcreated⟩
    | some name =>
      dsimp only
      cases hrows : server.statistics name with
      | error e => exact Or.inl ⟨e, rfl, Or.inl ⟨name, hrows⟩⟩
      | ok rows =>
        cases hexplain : server.explain selectQuery with
        | error e => exact Or.inl ⟨e, rfl, Or.inr rfl⟩
        | ok explained =>
          simp only [bind, Except.bind]
          split
          · exact Or.inr ⟨_, rfl, by decide⟩
          · exact Or.inr ⟨_, rfl, hcreated⟩
  · rw [if_pos htype]
    exact Or.inr ⟨_, rfl, htype⟩

theorem createdType_kind (materialized : Bool) (horiginal : readType ≠ .originalTable)
    (hunknown : readType ≠ .unknown) :
    readType.kind = some (createdType readType materialized).kind := by
  cases readType with
  | resultTable => cases materialized <;> rfl
  | columnStoreTable => rfl
  | originalTable => exact absurd rfl horiginal
  | unknown => exact absurd rfl hunknown

/-- Only a materialized result table gets the error of `ParallelReadInit`. -/
theorem createdType_materialized {materialized : Bool} (horiginal : readType ≠ .originalTable)
    (hunknown : readType ≠ .unknown)
    (h : createdType readType materialized = .aggResultTableMaterialized) :
    materialized = true ∧ readType = .resultTable := by
  cases readType with
  | resultTable =>
    cases materialized with
    | false => cases h
    | true => exact ⟨rfl, rfl⟩
  | columnStoreTable => cases h
  | originalTable => exact absurd rfl horiginal
  | unknown => exact absurd rfl hunknown

/-- Without a table of its name: the read has none, or an error of the server. -/
theorem OpenedTables.of_fresh (hfresh : ∀ kind, ⟨kind, args.resultTableName.toList⟩ ∉ tables)
    (hnone : errno ≠ s2cErrorInvArg ∧ (errno = 0 → readType.kind = none)) :
    OpenedTables args readType errno tables where
  mem_iff kind := by
    refine iff_of_false (hfresh kind) ?_
    rintro ⟨hzero | hinvalid, hkind⟩
    · rw [hnone.2 hzero] at hkind
      cases hkind
    · exact hnone.1 hinvalid
  materialized hinvalid := absurd hinvalid hnone.1

/-- `ParallelReadInit` of a name that is not used. -/
theorem init_spec (hserver : ExecutesDdl execute) {server : S2Server}
    (hcodes : server.ErrorCodes) (D : DdlAnswer)
    (hfresh : ∀ kind, ⟨kind, args.resultTableName.toList⟩ ∉ tables) (s : ClientState) :
    let result := parallelReadInit execute server D args tables s
    (∀ t, t.name ≠ args.resultTableName.toList → (t ∈ result.2.1 ↔ t ∈ tables)) ∧
    OpenedTables args result.1 result.2.2.error.errorCode result.2.1 := by
  intro result
  unfold result parallelReadInit
  rcases getParallelReadType_cases server args.selectQuery args.sourceTable args.materialized
    args.partitionBy args.partitionOrderBy args.readType with
    ⟨e, htype, herror⟩ | ⟨readType, htype, hunknown⟩
  · have hne : e.OfServer := by
      rcases herror with ⟨name, hrows⟩ | hexplain
      · exact hcodes.1 name e hrows
      · exact hcodes.2 _ e hexplain
    rw [htype]
    exact ⟨fun _ _ => Iff.rfl, .of_fresh hfresh ⟨hne.2, fun hzero => absurd hzero hne.1⟩⟩
  · rw [htype]
    dsimp only
    by_cases horiginal : readType = .originalTable
    · rw [if_pos horiginal, horiginal]
      have hzero : (0 : UInt32) ≠ s2cErrorInvArg := by decide
      exact ⟨fun _ _ => Iff.rfl, .of_fresh hfresh ⟨hzero, fun _ => rfl⟩⟩
    rw [if_neg horiginal]
    have hkind := createdType_kind args.materialized horiginal hunknown
    generalize htable : createdType readType args.materialized = tableType at hkind ⊢
    rcases runDDL_cases execute D (readStatement_create args.resultTableName args.selectQuery
      args.keyColumnName tableType args.partitionBy args.partitionOrderBy) false tables
      (if tableType = .aggResultTableMaterialized then
        (s.setError .none false).setError
          ⟨s2cErrorInvArg, "Cannot use Materialized Result Table"⟩ false
      else s.setError .none false) with ⟨tables', hexecute, hrun⟩ | ⟨_, e, hne, hrun⟩
    · rw [hrun]
      rw [hserver.create _ _ hfresh] at hexecute
      obtain rfl := Option.some.inj hexecute
      refine ⟨fun t ht => ?_, fun kind => ?_, ?_⟩
      · rw [Finset.mem_insert, or_iff_right]
        rintro rfl
        exact ht rfl
      · -- both errors that are possible here belong to a table that was created
        have hcreates : Creates (if tableType = .aggResultTableMaterialized then
            (s.setError .none false).setError
              ⟨s2cErrorInvArg, "Cannot use Materialized Result Table"⟩ false
          else s.setError .none false).error.errorCode := by
          split
          · exact Or.inr rfl
          · exact Or.inl rfl
        rw [and_iff_right hcreates, hkind, Finset.mem_insert, or_iff_left (hfresh kind),
          TableId.mk.injEq, and_iff_left rfl, Option.some.injEq, eq_comm]
      · intro herror
        dsimp only at herror ⊢
        split at herror
        · rename_i hmaterialized
          exact createdType_materialized horiginal hunknown (htable.trans hmaterialized)
        · cases herror
    · rw [hrun]
      exact ⟨fun _ _ => Iff.rfl, .of_fresh hfresh ⟨hne.2, fun hzero => absurd hzero hne.1⟩⟩

/-- What `ParallelReadFree` leaves of the tables of a read that was begun. -/
structure FreedTables (args : InitArgs) (errno : UInt32) (D : DdlAnswer) (tables : Finset TableId)
    (result : Finset TableId × ClientState) : Prop where
  others : ∀ t, t.name ≠ args.resultTableName.toList → (t ∈ result.1 ↔ t ∈ tables)
  gone : result.2.error.errorCode = 0 →
    ∀ kind, ⟨kind, args.resultTableName.toList⟩ ∉ result.1
  kept : result.2.error.errorCode ≠ 0 → result.1 = tables
  succeeds : Creates errno → D.noMemory = false → D.refused = false →
    result.2.error.errorCode = 0

theorem OpenedTables.drop (h : OpenedTables args readType errno tables) (D : DdlAnswer) {query : String}
    {statement : Statement} {kind : TableKind} (hkind : readType.kind = some kind)
    (hquery : readStatement query = some statement)
    (herase : ∀ tables', execute tables statement = some tables' →
      tables' = tables.erase ⟨kind, args.resultTableName.toList⟩)
    (hsome : Creates errno → execute tables statement ≠ none) (cb : Bool) (s : ClientState) :
    FreedTables args errno D tables
      (runDDL execute D query cb tables (s.setError .none false)) := by
  rcases runDDL_cases execute D hquery cb tables (s.setError .none false) with
    ⟨tables', hexecute, hrun⟩ | ⟨hwhy, e, hne, hrun⟩
  · obtain rfl := herase tables' hexecute
    rw [hrun]
    refine ⟨fun t ht => ?_, fun _ other hmem => ?_, fun hne => absurd rfl hne, fun _ _ _ => rfl⟩
    · rw [Finset.mem_erase, and_iff_right]
      rintro rfl
      exact ht rfl
    · obtain ⟨hother, hold⟩ := Finset.mem_erase.mp hmem
      obtain rfl := Option.some.inj (hkind.symm.trans ((h.mem_iff other).mp hold).2)
      exact hother rfl
  · rw [hrun]
    refine ⟨fun _ _ => Iff.rfl, fun hzero => absurd hzero hne.1, fun _ => rfl, ?_⟩
    intro hcreates hmemory hrefused
    rw [hmemory, hrefused] at hwhy
    rcases hwhy with hwhy | hwhy | hwhy
    · cases hwhy
    · cases hwhy
    · exact absurd hwhy (hsome hcreates)

/-- A type without a table. -/
theorem OpenedTables.nothing (h : OpenedTables args readType errno tables) (D : DdlAnswer)
    (hnone : readType.kind = none) (s : ClientState) :
    FreedTables args errno D tables (tables, s.setError .none false) := by
  refine ⟨fun _ _ => Iff.rfl, fun _ kind hmem => ?_, fun _ => rfl, fun _ _ _ => rfl⟩
  rw [((h.mem_iff kind).mp hmem).2] at hnone
  cases hnone

/-- `ParallelReadFree` of a read that was begun. -/
theorem free_spec (hserver : ExecutesDdl execute) (h : OpenedTables args readType errno tables)
    (D : DdlAnswer) (cb : Bool) (s : ClientState) :
    FreedTables args errno D tables
      (parallelReadFree execute D args.resultTableName readType cb tables s) := by
  cases readType with
  | resultTable =>
    refine h.drop D rfl (readStatement_dropResult args.resultTableName) ?_ ?_ cb s
    · intro tables' hexecute
      by_cases hmem : ⟨.result, args.resultTableName.toList⟩ ∈ tables
      · rw [hserver.drop _ _ hmem] at hexecute
        exact (Option.some.inj hexecute).symm
      · rw [hserver.dropMissing _ _ hmem] at hexecute
        cases hexecute
    · intro hcreates
      rw [hserver.drop _ _ ((h.mem_iff _).mpr ⟨hcreates, rfl⟩)]
      exact Option.some_ne_none _
  | columnStoreTable =>
    refine h.drop D rfl (readStatement_dropTable args.resultTableName) ?_ ?_ cb s
    · intro tables' hexecute
      rw [hserver.dropIfExists] at hexecute
      exact (Option.some.inj hexecute).symm
    · intro _
      rw [hserver.dropIfExists]
      exact Option.some_ne_none _
  | originalTable | unknown => exact h.nothing D rfl s

theorem readQuery_statement {kind : QueueKind} {readArgs : ReadArgs} {sortKey : List String}
    {partition : Int} {query : String} {table : TableKind} (hkind : readType.kind = some table)
    (hquery : kind.readQuery readArgs sortKey readType partition = .ok query) :
    readStatement query = some (.query ⟨table, readArgs.resultTableName.toList⟩
      (UInt32.ofInt partition).toNat.repr.toList) := by
  cases readType with
  | originalTable | unknown => cases hkind
  | resultTable =>
    obtain rfl := Option.some.inj hkind
    have htext : makeReadResultTableQuery readArgs.resultTableName (UInt32.ofInt partition) =
        query := by
      cases kind with
      | streaming | multiPass => exact Except.ok.inj hquery
    rw [← htext]
    exact readStatement_readResult _ _
  | columnStoreTable =>
    obtain rfl := Option.some.inj hkind
    cases kind with
    | streaming => cases hquery
    | multiPass =>
      rw [← Except.ok.inj hquery]
      exact readStatement_readColumnStore _ _ _ _

end Calls

/-! ## Every run -/

/-- The tables with the name of a read. -/
def PhaseTables (args : InitArgs) (tables : Finset TableId) : Phase → Prop
  | .idle | .closed => ∀ kind, ⟨kind, args.resultTableName.toList⟩ ∉ tables
  | .opened readType errno => OpenedTables args readType errno tables

theorem PhaseTables.frame {args : InitArgs} {tables tables' : Finset TableId} {phase : Phase}
    (h : PhaseTables args tables phase)
    (hsame : ∀ kind, (⟨kind, args.resultTableName.toList⟩ : TableId) ∈ tables' ↔
      ⟨kind, args.resultTableName.toList⟩ ∈ tables) : PhaseTables args tables' phase := by
  cases phase with
  | idle | closed => exact fun kind hmem => h kind ((hsame kind).mp hmem)
  | opened readType errno =>
    exact ⟨fun kind => (hsame kind).trans (h.mem_iff kind), h.materialized⟩

section Runs

variable {ι : Type} {execute : DdlServer} {args : ι → InitArgs} {tables : Finset TableId}
  {s s' : ReadSystem ι} {action : Action ι} {actions : List (Action ι)}

/-- The tables of others, and those of each read. -/
structure TablesInv (args : ι → InitArgs) (tables : Finset TableId) (s : ReadSystem ι) : Prop where
  others : ∀ t, (∀ i, t.name ≠ (args i).resultTableName.toList) → (t ∈ s.tables ↔ t ∈ tables)
  reads : ∀ i, PhaseTables (args i) s.tables (s.phase i)

theorem TablesInv.start (hfresh : ∀ i kind, ⟨kind, (args i).resultTableName.toList⟩ ∉ tables) :
    TablesInv args tables (.start tables) where
  others _ _ := Iff.rfl
  reads i := hfresh i

theorem TablesInv.fresh (h : TablesInv args tables s) {i : ι}
    (hphase : s.phase i = .idle ∨ s.phase i = .closed) (kind : TableKind) :
    ⟨kind, (args i).resultTableName.toList⟩ ∉ s.tables := by
  have hread := h.reads i
  rcases hphase with hphase | hphase
  · rw [hphase] at hread
    exact hread kind
  · rw [hphase] at hread
    exact hread kind

variable [DecidableEq ι]

theorem TablesInv.call (h : TablesInv args tables s)
    (hnames : Function.Injective fun i => (args i).resultTableName) {i : ι} {p : Phase}
    (hothers : ∀ t, t.name ≠ (args i).resultTableName.toList → (t ∈ s'.tables ↔ t ∈ s.tables))
    (hphase : s'.phase = Function.update s.phase i p)
    (hread : PhaseTables (args i) s'.tables p) : TablesInv args tables s' where
  others t ht := (hothers t (ht i)).trans (h.others t ht)
  reads j := by
    rw [hphase]
    by_cases hj : j = i
    · subst hj
      rw [Function.update_self]
      exact hread
    · rw [Function.update_of_ne hj]
      refine (h.reads j).frame fun kind => hothers _ fun hname => hj (hnames ?_)
      exact String.toList_inj.mp hname

theorem TablesInv.perform (h : TablesInv args tables s) (hserver : ExecutesDdl execute)
    (hnames : Function.Injective fun i => (args i).resultTableName) (hcodes : action.ErrorCodes)
    (hperform : action.perform execute args s = some s') : TablesInv args tables s' := by
  cases action with
  | init i server D =>
    rw [Action.perform] at hperform
    split at hperform
    · rename_i hphase
      obtain rfl := Option.some.inj hperform
      obtain ⟨hothers, hopened⟩ := init_spec hserver hcodes D (h.fresh hphase) (s.client i)
      exact h.call hnames hothers rfl hopened
    · cases hperform
  | free i D cb =>
    rw [Action.perform] at hperform
    split at hperform
    · rename_i readType errno hopened
      obtain rfl := Option.some.inj hperform
      have hread := h.reads i
      rw [hopened] at hread
      have hfreed := free_spec hserver hread D cb (s.client i)
      by_cases hzero : (parallelReadFree execute D (args i).resultTableName readType cb s.tables
          (s.client i)).2.error.errorCode = 0
      · exact h.call hnames hfreed.others (if_pos hzero) (hfreed.gone hzero)
      · refine h.call hnames hfreed.others (p := s.phase i) ?_ ?_
        · dsimp only
          rw [if_neg hzero, Function.update_eq_self]
        · dsimp only
          rw [hfreed.kept hzero]
          exact h.reads i
    · cases hperform

theorem TablesInv.run (h : TablesInv args tables s) (hserver : ExecutesDdl execute)
    (hnames : Function.Injective fun i => (args i).resultTableName)
    (hcodes : ∀ action ∈ actions, action.ErrorCodes) (hrun : s.run execute args actions = some s') :
    TablesInv args tables s' := by
  induction actions generalizing s with
  | nil =>
    obtain rfl := Option.some.inj hrun
    exact h
  | cons action actions ih =>
    obtain ⟨hcode, hrest⟩ := List.forall_mem_cons.mp hcodes
    obtain ⟨next, hperform, hnext⟩ := Option.bind_eq_some_iff.mp hrun
    exact ih (h.perform hserver hnames hcode hperform) hrest hnext

/-- **The tables of the reads**, after any run of reads with names of their own.
The other tables are as they were. A read without an error has its table, with
the rows of every query of its readers, until it is freed. A materialized result
table is there, too, although `S2Errno` is `S2C_ERROR_INV_ARG`; with any other
error there is none. To free a read fails only if the server refuses, and a read
that was freed has no table. When every read was freed, nothing is left. -/
theorem tables_tracked (hserver : ExecutesDdl execute)
    (hnames : Function.Injective fun i => (args i).resultTableName)
    (hfresh : ∀ i kind, ⟨kind, (args i).resultTableName.toList⟩ ∉ tables)
    (hcodes : ∀ action ∈ actions, action.ErrorCodes)
    (hrun : (ReadSystem.start tables).run execute args actions = some s) :
    (∀ t, (∀ i, t.name ≠ (args i).resultTableName.toList) → (t ∈ s.tables ↔ t ∈ tables)) ∧
    (∀ i, s.phase i = .idle ∨ s.phase i = .closed →
      ∀ kind, ⟨kind, (args i).resultTableName.toList⟩ ∉ s.tables) ∧
    (∀ i readType errno, s.phase i = .opened readType errno →
      (∀ kind, ⟨kind, (args i).resultTableName.toList⟩ ∈ s.tables ↔
        (errno = 0 ∨ errno = s2cErrorInvArg) ∧ readType.kind = some kind) ∧
      (errno = s2cErrorInvArg → (args i).materialized = true ∧ readType = .resultTable) ∧
      (errno = 0 ∨ errno = s2cErrorInvArg →
        (∀ (kind : QueueKind) (readArgs : ReadArgs) sortKey partition query,
          readArgs.resultTableName = (args i).resultTableName → readType ≠ .originalTable →
          kind.readQuery readArgs sortKey readType partition = .ok query →
          ∃ table, readStatement query =
              some (.query table (UInt32.ofInt partition).toNat.repr.toList) ∧
            table ∈ s.tables) ∧
        ∀ (D : DdlAnswer) cb, D.noMemory = false → D.refused = false →
          ∃ s', (Action.free i D cb).perform execute args s = some s' ∧
            s'.phase i = .closed)) ∧
    ((∀ i, s.phase i = .idle ∨ s.phase i = .closed) → s.tables = tables) := by
  have hinv := (TablesInv.start hfresh).run hserver hnames hcodes hrun
  refine ⟨hinv.others, fun i hphase => hinv.fresh hphase, ?_, ?_⟩
  · intro i readType errno hphase
    have hread := hinv.reads i
    rw [hphase] at hread
    refine ⟨hread.mem_iff, hread.materialized, fun hcreates => ⟨?_, ?_⟩⟩
    · intro kind readArgs sortKey partition query hname horiginal hquery
      cases hkind : readType.kind with
      | none =>
        cases readType with
        | resultTable | columnStoreTable => cases hkind
        | originalTable => exact absurd rfl horiginal
        | unknown =>
          cases kind with
          | streaming | multiPass => cases hquery
      | some table =>
        have hmem := (hread.mem_iff table).mpr ⟨hcreates, hkind⟩
        rw [← hname] at hmem
        exact ⟨_, readQuery_statement hkind hquery, hmem⟩
    · intro D cb hmemory hrefused
      have hfreed := free_spec hserver hread D cb (s.client i)
      have hzero := hfreed.succeeds hcreates hmemory hrefused
      refine ⟨_, by rw [Action.perform, hphase], ?_⟩
      dsimp only
      rw [if_pos hzero, Function.update_self]
  · intro hall
    ext t
    by_cases hname : ∃ i, t.name = (args i).resultTableName.toList
    · obtain ⟨i, hi⟩ := hname
      obtain ⟨kind, name⟩ := t
      obtain rfl : name = _ := hi
      exact iff_of_false (hinv.fresh (hall i) kind) (hfresh i kind)
    · exact hinv.others t fun i hi => hname ⟨i, hi⟩

end Runs

/-! ### Three reads -/

/-- A result table, a columnstore table and a materialized result table. -/
def threeReads (i : Fin 3) : InitArgs where
  resultTableName := match i with
    | 0 => "r"
    | 1 => "c"
    | 2 => "m"
  selectQuery := "SELECT * FROM t"
  sourceTable := none
  keyColumnName := "id"
  readType := if i = 2 then .resultTable else .unknown
  materialized := i ≠ 0
  partitionBy := idArgs.partitionOrderBy
  partitionOrderBy := idArgs.partitionOrderBy

/-- A server that keeps the tables. -/
def tableServer : DdlServer := fun tables statement =>
  match statement with
  | .create table => if table ∈ tables then none else some (insert table tables)
  | .drop table => if table ∈ tables then some (tables.erase table) else none
  | .dropIfExists table => some (tables.erase table)
  | .query table _ => if table ∈ tables then some tables else none

theorem tableServer_executes : ExecutesDdl tableServer where
  create _ table hfresh := if_neg (hfresh table.kind)
  drop _ _ hmem := if_pos hmem
  dropMissing _ _ hmem := if_neg hmem
  dropIfExists _ _ := rfl

def unknownTable : S2ClientError := ⟨1051, "Unknown table"⟩

theorem unknownTable_ofServer : unknownTable.OfServer := by
  unfold S2ClientError.OfServer
  decide

def accepted : DdlAnswer := ⟨false, false, unknownTable, unknownTable_ofServer⟩

def noKeys : S2Server := ⟨fun _ => .ok [], fun _ => .ok []⟩

def threeReadsActions : List (Action (Fin 3)) :=
  [.init 0 noKeys accepted, .init 1 noKeys accepted, .init 2 noKeys accepted,
    .free 1 accepted true]

def threeReadsRun : Option (ReadSystem (Fin 3)) :=
  ReadSystem.run tableServer threeReads threeReadsActions (.start {⟨.regular, "t".toList⟩})

/-- The first is open, the second is freed, and the third has its table and an
error. -/
theorem tables_tracked_threeReads : ∃ s, threeReadsRun = some s ∧
    (⟨.result, "r".toList⟩ : TableId) ∈ s.tables ∧ (∀ kind, ⟨kind, "c".toList⟩ ∉ s.tables) ∧
    s.phase 2 = .opened .resultTable s2cErrorInvArg ∧
    (⟨.result, "m".toList⟩ : TableId) ∈ s.tables := by
  have hphases : threeReadsRun.map (fun s => (s.phase 0, s.phase 1, s.phase 2)) =
      some (.opened .resultTable 0, .closed, .opened .resultTable s2cErrorInvArg) := by
    decide +kernel
  obtain ⟨s, hrun, hphases⟩ := Option.map_eq_some_iff.mp hphases
  simp only [Prod.mk.injEq] at hphases
  obtain ⟨hfirst, hsecond, hthird⟩ := hphases
  have hnames : Function.Injective fun i => (threeReads i).resultTableName := by
    intro i j
    revert i j
    decide
  have hfresh : ∀ i kind, (⟨kind, (threeReads i).resultTableName.toList⟩ : TableId) ∉
      ({⟨.regular, "t".toList⟩} : Finset TableId) := by
    intro i kind
    revert i
    cases kind <;> decide
  have hcodes : ∀ action ∈ threeReadsActions, action.ErrorCodes := by
    have hserver : noKeys.ErrorCodes := ⟨nofun, nofun⟩
    simp [threeReadsActions, Action.ErrorCodes, hserver]
  obtain ⟨_, hgone, hopened, _⟩ :=
    tables_tracked tableServer_executes hnames hfresh hcodes hrun
  refine ⟨s, hrun, ?_, hgone 1 (Or.inr hsecond), hthird, ?_⟩
  · exact ((hopened 0 _ _ hfirst).1 .result).mpr ⟨Or.inl rfl, rfl⟩
  · exact ((hopened 2 _ _ hthird).1 .result).mpr ⟨Or.inr rfl, rfl⟩

end SasLibclient
