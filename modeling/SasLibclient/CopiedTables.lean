import SasLibclient.CopiedRows
import SasLibclient.ParallelRead

/-!
# A table that is copied by the workers

A worker reads its partitions in parallel and writes every chunk that a consumer
gets with `WriteChunk`. When all consumers were told that there are no more
chunks and no error, the chunks of each partition of the worker are loaded, in
the order in which they were popped, as the values of the whole partition.
-/

namespace SasLibclient

open Monitors QueueItem Loops Gregorian

section Parts

variable {W : TsvWorld} {schema : RowSchema} {r : ResultTableReader} {chunks : List ReadChunk}
  {rows : List (List Cell)} {values : List (List TableValue)}

theorem exists_parts (hshown : List.Forall₂ (ShowsRow schema.columnInfo) rows values)
    (hrows : chunks.flatMap ReadChunk.rows = rows) :
    ∃ parts, parts.flatten = values ∧
      List.Forall₂ (fun v part => List.Forall₂ (ShowsRow schema.columnInfo) (ReadChunk.rows v) part)
        chunks parts := by
  induction chunks generalizing rows values with
  | nil =>
    obtain rfl := hrows
    cases hshown
    exact ⟨[], rfl, .nil⟩
  | cons v chunks ih =>
    rw [List.flatMap_cons] at hrows
    rw [← hrows] at hshown
    have hflip : List.Forall₂ (flip (ShowsRow schema.columnInfo)) values
        (v.rows ++ chunks.flatMap ReadChunk.rows) := hshown.flip
    obtain ⟨parts, hparts, hforall⟩ := ih (List.forall₂_drop_append _ _ _ hflip).flip rfl
    refine ⟨values.take v.rows.length :: parts, ?_, .cons ?_ hforall⟩
    · rw [List.flatten_cons, hparts, List.take_append_drop]
    · exact (List.forall₂_take_append _ _ _ hflip).flip

theorem loadsAs_chunkOf {id : Nat} {v : ReadChunk} {part : List (List TableValue)}
    (hcolumns : schema.columnInfo ≠ [])
    (hsupported : ∀ column ∈ schema.columnInfo, column.type ≠ .unsupported)
    (hdoubles : ∀ bits, isNan bits = false → PlainToken (W.sprintfE bits))
    (hrows : ∀ row ∈ v.rows, RowFits schema.columnInfo row) (hcount : v.rows.length < 2 ^ 63)
    (hshown : List.Forall₂ (ShowsRow schema.columnInfo) v.rows part)
    (hchunk : r.ChunkOf schema id v) : LoadsAs W schema v.chunk part := by
  obtain ⟨-, -, ptr, w, hwritten, hv⟩ := hchunk
  have hall := writeRows_written (RowsWritten.reset schema ptr r.chunkSize
    (UInt64.ofNat (chunkIdOf id)) r.partition) hrows hwritten
  rw [List.nil_append] at hall
  have hsame : v.chunk = w.currentChunk.chunk := by
    rw [hv, ← hall.rowCount]
  rw [hsame]
  exact loadsAs_written hcolumns hsupported hrows hcount hshown hwritten hdoubles

theorem loadsAs_wholeResult (hcolumns : schema.columnInfo ≠ [])
    (hsupported : ∀ column ∈ schema.columnInfo, column.type ≠ .unsupported)
    (hdoubles : ∀ bits, isNan bits = false → PlainToken (W.sprintfE bits))
    (hrows : ∀ row ∈ rows, RowFits schema.columnInfo row) (hcount : rows.length < 2 ^ 63)
    (hshown : List.Forall₂ (ShowsRow schema.columnInfo) rows values)
    (hschema : r.rowSchema = some schema) (hwhole : ChunkQueue.WholeResult r rows chunks) :
    ∃ parts, parts.flatten = values ∧
      List.Forall₂ (fun v part => LoadsAs W schema (ReadChunk.chunk v) part) chunks parts := by
  obtain ⟨parts, hparts, hforall⟩ := exists_parts hshown hwhole.rows
  refine ⟨parts, hparts, ?_⟩
  have hmem : ∀ v ∈ chunks, ∀ part, List.Forall₂ (ShowsRow schema.columnInfo) v.rows part →
      LoadsAs W schema v.chunk part := by
    intro v hv part hpart
    obtain ⟨i, hi⟩ := List.getElem?_of_mem hv
    obtain ⟨rowSchema, heq, hchunk⟩ := hwhole.chunks i v hi
    obtain rfl : schema = rowSchema := Option.some.inj (hschema.symm.trans heq)
    have hsub : ∀ row ∈ v.rows, row ∈ rows := by
      intro row hrow
      rw [← hwhole.rows]
      exact List.mem_flatMap.mpr ⟨v, hv, hrow⟩
    have hlength : v.rows.length ≤ rows.length := by
      rw [← hwhole.rows]
      exact (List.sublist_flatten_of_mem (List.mem_map_of_mem hv)).length_le
    exact loadsAs_chunkOf hcolumns hsupported hdoubles (fun row hrow => hrows row (hsub row hrow))
      (by omega) hpart hchunk
  exact ((List.forall₂_and_left chunks parts).mpr ⟨hmem, hforall⟩).imp
    fun v part h => h.1 part h.2

end Parts

/-- The texts `ab` and `abcd` in a column of four characters; the first note is
empty. -/
def codesAndNotes : Response where
  startError := none
  fields := [⟨"id", .longLong, 20⟩, ⟨"code", .string, 4⟩, ⟨"note", .varString, 255⟩]
  rows := [[some ⟨[5, 0, 0, 0, 0, 0, 0, 0], [53]⟩, some ⟨[97, 98], [97, 98]⟩, some ⟨[], []⟩],
    [some ⟨[7, 0, 0, 0, 0, 0, 0, 0], [55]⟩, some ⟨[97, 98, 99, 100], [97, 98, 99, 100]⟩,
      some ⟨[9, 34], [9, 34]⟩]]
  failAfter := none
  sscanf := fun _ text => if text = [53] then [5, 0, 0, 0, 0, 0, 0, 0] else [7, 0, 0, 0, 0, 0, 0, 0]
  uninitialized := 0
  fields_lt := by decide
  noFields := nofun

theorem codesAndNotes_fits :
    RowsFit codesAndNotes.rowSchema 40 (codesAndNotes.cells true) := by
  have hcell : ∀ column, column.type ≠ .fixed → ∀ cell, CellFits column cell :=
    fun _ htype _ => ⟨fun h => absurd h htype, fun h => absurd h htype⟩
  have hcode : ∀ cell : Cell, cell.length.toNat ≤ 4 → CellFits ⟨.fixed, 4, "code"⟩ cell :=
    fun _ hlength => ⟨fun _ => by decide, fun _ _ => hlength⟩
  refine ⟨by unfold NonDate; decide, ?_, by decide +kernel⟩
  intro row hrow
  simp only [Response.cells, codesAndNotes, if_true, List.map_cons, List.map_nil, List.mem_cons,
    List.not_mem_nil, or_false] at hrow
  rcases hrow with rfl | rfl
  · exact ⟨.cons (hcell _ (by decide) _) (.cons (hcode _ (by decide)) (.cons (hcell _ (by decide) _) .nil)),
      by decide⟩
  · exact ⟨.cons (hcell _ (by decide) _) (.cons (hcode _ (by decide)) (.cons (hcell _ (by decide) _) .nil)),
      by decide⟩

/-- What the rows show, and what becomes of it: the short code is padded, and the
empty note is NULL. -/
def codesAndNotesValues : List (List TableValue) :=
  [[.integer 5, .text [97, 98], .text []], [.integer 7, .text [97, 98, 99, 100], .text [9, 34]]]

example : codesAndNotesValues.map (List.zipWith arrives codesAndNotes.rowSchema.columnInfo) =
    [[.integer 5, .text [97, 98, 32, 32], .null],
      [.integer 7, .text [97, 98, 99, 100],   .text [9, 34]]] := by
  have hnull : toInt64 int64Null = -2 ^ 63 := by decide
  simp [codesAndNotesValues, arrives, Response.rowSchema, fieldsToRowSchema, codesAndNotes,
    fieldToColumn, paddedText, Field.isNull, hnull]

theorem codesAndNotes_shows : List.Forall₂ (ShowsRow codesAndNotes.rowSchema.columnInfo)
    (codesAndNotes.cells true) codesAndNotesValues := by
  refine .cons (.cons (Or.inl ⟨rfl, by decide⟩) (.cons ⟨Or.inl rfl, rfl⟩ (.cons ⟨Or.inr rfl, rfl⟩ .nil)))
    (.cons (.cons (Or.inl ⟨rfl, by decide⟩) (.cons ⟨Or.inl rfl, rfl⟩ (.cons ⟨Or.inr rfl, rfl⟩ .nil)))
    .nil)

end SasLibclient
