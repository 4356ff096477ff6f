import SasLibclient.SameChunks
import SasLibclient.Sql.ReadQuery

/-!
# Reading a partition in several passes

Each pass of a multi-pass read executes the query of a partition again, and a
chunk is found by its number. The rows come in the same order when no two of
them tie in the columns of `ORDER BY`. `BuildSortKey` adds the key column for
that; the query on the original table has the sort key of the table only.
-/

namespace SasLibclient

open Sorting

/-- Two passes over the partition, of which the first gets `rows₁` and the second
`rows₂`, put the same rows into the chunks of the same number. -/
def SameChunks {Row : Type} (encode : Row → List (Option FieldData)) (rows₁ rows₂ : List Row) :
    Prop :=
  ∀ (response₁ response₂ : Response) (rowSchema : RowSchema) (partition : UInt32)
    (chunkSize : UInt64) (malloc₁ malloc₂ : Nat → Option Bytes.Mem) (v₁ v₂ : ReadChunk),
    response₁.rows = rows₁.map encode → response₂.rows = rows₂.map encode →
    .push v₁ ∈ (ResultTableReader.createReader response₁ (some rowSchema) partition chunkSize
      malloc₁).read →
    .push v₂ ∈ (ResultTableReader.createReader response₂ (some rowSchema) partition chunkSize
      malloc₂).read →
    v₁.turn = v₂.turn → v₁.rows = v₂.rows

theorem SameChunks.refl {Row : Type} (encode : Row → List (Option FieldData)) (rows : List Row) :
    SameChunks encode rows rows := by
  intro response₁ response₂ rowSchema partition chunkSize malloc₁ malloc₂ v₁ v₂ hrows₁ hrows₂
  apply ResultTableReader.createReader_same
  rw [Response.cells, Response.cells, if_pos rfl, if_pos rfl, hrows₁, hrows₂]

namespace Database

variable {Row : Type} {db : Database Row} {source : Source} {text keyColumnName : String}
  {encode : Row → List (Option FieldData)}

/-- Any two executions of the query return the same rows in the same order, and
so the chunks have the same rows. -/
def Repeatable (db : Database Row) (source : Source) (text : String)
    (encode : Row → List (Option FieldData)) : Prop :=
  ∀ rows₁ rows₂, db.Executes source text rows₁ → db.Executes source text rows₂ →
    rows₁ = rows₂ ∧ SameChunks encode rows₁ rows₂

structure UniqueKey (db : Database Row) (source : Source) (keyColumnName : String) : Prop where
  nodup : (db.rows source).Nodup
  unique : ∀ a ∈ db.rows source, ∀ b ∈ db.rows source, Ties db.le [keyColumnName] a b → a = b

/-- No two rows of the partition have the same values in the columns. -/
def NoTies (db : Database Row) (source : Source) (partition : UInt32) (cols : List String) :
    Prop :=
  ∀ a ∈ db.partitionRows source partition, ∀ b ∈ db.partitionRows source partition,
    Ties db.le cols a b → a = b

theorem mem_rows_of_partitionRows {partition : UInt32} {row : Row}
    (h : row ∈ db.partitionRows source partition) : row ∈ db.rows source :=
  (List.mem_filter.mp h).1

/-- Columns with the key column have no ties. -/
theorem UniqueKey.noTies (h : db.UniqueKey source keyColumnName) (partition : UInt32)
    {cols : List String} (hkey : keyColumnName ∈ cols) : db.NoTies source partition cols := by
  intro a ha b hb hties
  refine h.unique a (mem_rows_of_partitionRows ha) b (mem_rows_of_partitionRows hb) ?_
  apply hties.of_subset
  intro col hcol
  rw [List.mem_singleton.mp hcol]
  exact hkey

/-- **A query is repeatable** if and only if no two rows tie. -/
theorem repeatable_text_iff (q : ReadQuery) (hnodup : (db.rows q.source).Nodup) :
    db.Repeatable q.source q.text encode ↔ db.NoTies q.source q.partition q.orderBy := by
  have hunique := db.compares.sortedPerm_unique_iff q.orderBy
    (l := db.partitionRows q.source q.partition) (hnodup.filter _)
  rw [NoTies, ← hunique]
  constructor
  · intro h rows₁ rows₂ h₁ h₂
    exact (h rows₁ rows₂ ((db.executes_text q).mpr h₁) ((db.executes_text q).mpr h₂)).1
  · intro h rows₁ rows₂ h₁ h₂
    obtain rfl := h rows₁ rows₂ ((db.executes_text q).mp h₁) ((db.executes_text q).mp h₂)
    exact ⟨rfl, SameChunks.refl encode rows₁⟩

end Database

def ReadArgs.source (args : ReadArgs) : ParallelReadType → Source
  | .originalTable => .query args.selectQuery
  | .columnStoreTable => .table args.resultTableName
  | .resultTable | .unknown => .resultTable args.resultTableName

/-- Two rows of one partition, with the columns `id` and `b`, that tie in `b`. -/
def twoTies : Database (Nat × Nat) where
  rows := fun _ => [(1, 5), (2, 5)]
  partitionId := fun _ _ => 0
  le := fun col row row' =>
    (if col = "id" then row.1 else row.2) ≤ if col = "id" then row'.1 else row'.2
  compares := compares_of_value fun col (row : Nat × Nat) => if col = "id" then row.1 else row.2

theorem twoTies_uniqueKey (source : Source) : twoTies.UniqueKey source "id" := by
  constructor
  · show [((1 : Nat), (5 : Nat)), (2, 5)].Nodup
    decide
  · intro a ha b hb hties
    have hid := hties "id" (List.mem_singleton.mpr rfl)
    have hle : a.1 ≤ b.1 := hid.1
    have hge : b.1 ≤ a.1 := hid.2
    simp only [twoTies, List.mem_cons, List.not_mem_nil, or_false] at ha hb
    rcases ha with rfl | rfl <;> rcases hb with rfl | rfl <;> simp at hle hge ⊢

def twoTiesArgs : ReadArgs := ⟨"tmp", "SELECT * FROM t", "id", ⟨["b"], 1, Int.le_refl 1⟩⟩

end SasLibclient
