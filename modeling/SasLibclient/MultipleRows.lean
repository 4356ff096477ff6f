import SasLibclient.FineAccesses
import SasLibclient.Sql.RowQueries

/-!
# Many rows in one chunk

`GetMultipleRows` writes rows until one is not accepted, and the chunk with the
rows before it is returned as if it had all of them. An exception of `WriteRow`
about the size of the chunk is not caught. So the caller gets all rows or an
error exactly when there is room for the rows up to the end or to an exception
that is caught.
-/

namespace SasLibclient

open Bytes SuperChunkWriter Loops

/-! ## The loop -/

/-- A row as the binary protocol fetches it. -/
structure RowReceived (columns : List Column) (row : List Cell) : Prop extends
    RowFits columns row where
  nulls : List.Forall₂ (fun column cell => column.type = .variable → cell.value = none →
    cell.length = 0) columns row

/-- In `space` bytes there is room for every row up to the end, a row that cannot
be converted or a fetch that fails; such a failure is caught. -/
def RoomFor (schema : RowSchema) : Nat → List Fetch → Prop
  | _, [] => True
  | space, .row row :: rest =>
    (rowSize schema row).toNat ≤ space ∧
      (List.Forall₂ Converts schema.columnInfo row →
        RoomFor schema (space - (rowSize schema row).toNat) rest)
  | _, .fail e :: _ => e.Caught

/-- The fetch gets a row that `WriteRow` can convert. -/
def Convertible (columns : List Column) : Fetch → Prop
  | .row row => List.Forall₂ Converts columns row
  | .fail _ => False

/-- All rows have been written, or the exception is caught. -/
def EndsWell (fetches : List Fetch) :
    Except ReadException (List (List Cell) × SuperChunkWriter × S2Connection) → Prop
  | .ok (rows, _, _) => fetches = rows.map .row
  | .error e => e.Caught

section Loop

variable {schema : RowSchema} {w w' : SuperChunkWriter} {conn : S2Connection} {row : List Cell}
  {n : Nat}

theorem RowReceived.used (h : RowReceived schema.columnInfo row) (hs : Sound w)
    (hschema : w.rowSchema = schema) (hok : w.writeRow row = .ok (true, w')) :
    w'.currentChunk.used = w.currentChunk.used + (rowSize schema row).toNat := by
  have hadded := writeRow_added hs hschema h.toRowFits hok
  rw [toNat_rowSize h.toRowFits, rowNeed_eq h.cells, ← rowWritten_eq_rowPayload h.nulls,
    SuperChunk.used, SuperChunk.used, hadded.offset, hadded.variableOffset]
  omega

/-- What `WriteRow` does with a row that has no room. -/
theorem writeRow_noRoom (h : w.hasEnoughSpace (rowSize w.rowSchema row) = false) :
    w.writeRow row = .ok (false, w) ∨ ∃ what, w.writeRow row = .error (.invalidArgument what) := by
  unfold SuperChunkWriter.writeRow
  dsimp only
  rw [h]
  by_cases hcount : w.currentChunk.chunk.rowCount = 0
  · right
    rw [Bool.not_false, if_pos rfl, if_pos hcount]
    exact ⟨_, rfl⟩
  · left
    rw [Bool.not_false, if_pos rfl, if_neg hcount]

theorem writeRow_room (h : w.hasEnoughSpace (rowSize w.rowSchema row) = true)
    (hlength : w.rowSchema.columnInfo.length = row.length) :
    (∃ w', w.writeRow row = .ok (true, w') ∧ List.Forall₂ Converts w.rowSchema.columnInfo row) ∨
      ∃ e, w.writeRow row = .error (.s2 e) ∧ ¬ List.Forall₂ Converts w.rowSchema.columnInfo row := by
  unfold SuperChunkWriter.writeRow
  dsimp only
  rw [h]
  cases hcolumns : writeColumns w.rowSchema.columnInfo row w with
  | ok w₁ => exact Or.inl ⟨_, rfl, converts_of_writeColumns hlength hcolumns⟩
  | error e =>
    right
    obtain ⟨e', rfl, -⟩ := writeColumns_error hcolumns
    refine ⟨e', rfl, ?_⟩
    intro hconverts
    obtain ⟨w₁, hw₁⟩ := writeColumns_converts hconverts w
    rw [hw₁] at hcolumns
    cases hcolumns

/-- What `WriteRow` can make of a row, with the room that is left. -/
inductive RowOutcome (schema : RowSchema) (row : List Cell) (w : SuperChunkWriter) :
    Except WriteError (Bool × SuperChunkWriter) → Prop
  | written {w' : SuperChunkWriter}
    (hroom : (rowSize schema row).toNat ≤ w.chunkSize.toNat - w.currentChunk.used)
    (hconverts : List.Forall₂ Converts schema.columnInfo row) (hs : Sound w')
    (hschema : w'.rowSchema = schema)
    (hleft : w.chunkSize.toNat - w.currentChunk.used - (rowSize schema row).toNat =
      w'.chunkSize.toNat - w'.currentChunk.used) : RowOutcome schema row w (.ok (true, w'))
  | unconvertible {e : S2ClientError}
    (hroom : (rowSize schema row).toNat ≤ w.chunkSize.toNat - w.currentChunk.used)
    (hconverts : ¬ List.Forall₂ Converts schema.columnInfo row) :
    RowOutcome schema row w (.error (.s2 e))
  | full (hroom : ¬ (rowSize schema row).toNat ≤ w.chunkSize.toNat - w.currentChunk.used) :
    RowOutcome schema row w (.ok (false, w))
  | tooLarge {what : String}
    (hroom : ¬ (rowSize schema row).toNat ≤ w.chunkSize.toNat - w.currentChunk.used) :
    RowOutcome schema row w (.error (.invalidArgument what))

theorem RowReceived.writeRow_outcome (h : RowReceived schema.columnInfo row) (hs : Sound w)
    (hschema : w.rowSchema = schema) : RowOutcome schema row w (w.writeRow row) := by
  subst hschema
  have hspace := hs.hasEnoughSpace_iff (rowSize w.rowSchema row)
  have hfits := hs.fits
  by_cases hroom : w.hasEnoughSpace (rowSize w.rowSchema row) = true
  · have hle := hspace.mp hroom
    rcases writeRow_room hroom h.cells.length_eq with
      ⟨w', hwrite, hconverts⟩ | ⟨e, hwrite, hconverts⟩
    · have hadded := writeRow_added hs rfl h.toRowFits hwrite
      have hused := h.used hs rfl hwrite
      have hsize : w'.chunkSize = w.chunkSize := by
        rw [hadded.sound.chunkSize, hs.chunkSize]
        exact congrArg Prod.fst (header_writeRow hwrite)
      rw [hwrite]
      refine .written (by omega) hconverts hadded.sound hadded.rowSchema ?_
      rw [hsize, hused]
      omega
    · rw [hwrite]
      exact .unconvertible (by omega) hconverts
  · have hlarge : ¬ (rowSize w.rowSchema row).toNat ≤
        w.chunkSize.toNat - w.currentChunk.used := by
      rw [hspace] at hroom
      omega
    rcases writeRow_noRoom (by simpa using hroom) with hwrite | ⟨what, hwrite⟩
    · rw [hwrite]
      exact .full hlarge
    · rw [hwrite]
      exact .tooLarge hlarge

/-- **The loop ends well** exactly when there is room. -/
theorem nextChunkLoop_endsWell_iff (hs : Sound w) (hschema : w.rowSchema = schema)
    (hready : conn.Ready) (hlength : conn.rest.length ≤ n)
    (hrows : ∀ row, Fetch.row row ∈ conn.rest → RowReceived schema.columnInfo row) :
    EndsWell conn.rest (S2Connection.nextChunkLoop n w conn) ↔
      RoomFor schema (w.chunkSize.toNat - w.currentChunk.used) conn.rest := by
  induction n generalizing w conn with
  | zero =>
    have hnil := List.length_eq_zero_iff.mp (Nat.le_zero.mp hlength)
    rw [hnil]
    exact iff_of_true rfl trivial
  | succ n ih =>
    rw [S2Connection.nextChunkLoop]
    cases hrow : conn.lastFetchedRow with
    | none =>
      rw [hready.rest_eq_nil hrow]
      exact iff_of_true rfl trivial
    | some row =>
      have hrest := S2Connection.rest_of_row hrow
      rw [hrest] at hlength hrows ⊢
      have houtcome := (hrows row List.mem_cons_self).writeRow_outcome hs hschema
      dsimp only
      rw [RoomFor]
      generalize w.writeRow row = result at houtcome
      cases houtcome with
      | full hroom =>
        refine iff_of_false ?_ fun h => hroom h.1
        intro hnil
        cases hnil
      | tooLarge hroom => exact iff_of_false id fun h => hroom h.1
      | unconvertible hroom hconverts =>
        exact iff_of_true trivial ⟨hroom, fun h => absurd h hconverts⟩
      | @written w' hroom hconverts hs' hschema' hleft =>
        rw [and_iff_right hroom, forall_prop_of_true hconverts, hleft]
        dsimp only
        cases hadvance : conn.advance with
        | error e =>
          obtain ⟨more, hpending⟩ := S2Connection.advance_fail hadvance
          rw [hpending]
          exact Iff.rfl
        | ok result =>
          obtain ⟨b, conn'⟩ := result
          obtain ⟨hready', hrest'⟩ := S2Connection.advance_spec hadvance
          have hnext := ih hs' hschema' hready'
            (by rw [hrest']; exact Nat.le_of_succ_le_succ hlength)
            (by
              intro row' hrow'
              rw [hrest'] at hrow'
              exact hrows row' (List.mem_cons_of_mem _ hrow'))
          rw [hrest'] at hnext
          refine Iff.trans ?_ hnext
          dsimp only
          cases S2Connection.nextChunkLoop n w' conn' with
          | error e => exact Iff.rfl
          | ok result =>
            obtain ⟨rows, w₂, conn₂⟩ := result
            rw [EndsWell, EndsWell, List.map_cons, List.cons_eq_cons, and_iff_right rfl]

theorem nextChunkLoop_reason {e : ReadException} (hs : Sound w) (hschema : w.rowSchema = schema)
    (hrows : ∀ row, Fetch.row row ∈ conn.rest → RowReceived schema.columnInfo row)
    (h : S2Connection.nextChunkLoop n w conn = .error e) (hcaught : e.Caught) :
    ¬ ∀ fetch ∈ conn.rest, Convertible schema.columnInfo fetch := by
  induction n generalizing w conn with
  | zero => cases h
  | succ n ih =>
    rw [S2Connection.nextChunkLoop] at h
    cases hrow : conn.lastFetchedRow with
    | none => simp [hrow] at h
    | some row =>
      simp only [hrow] at h
      rw [S2Connection.rest_of_row hrow] at hrows ⊢
      intro hall
      have houtcome := (hrows row List.mem_cons_self).writeRow_outcome hs hschema
      generalize w.writeRow row = result at h houtcome
      cases houtcome with
      | full hroom => cases h
      | tooLarge hroom =>
        obtain rfl := Except.error.inj h
        exact hcaught
      | unconvertible hroom hconverts => exact hconverts (hall _ List.mem_cons_self)
      | @written w' hroom hconverts hs' hschema' hleft =>
        dsimp only at h
        cases hadvance : conn.advance with
        | error e' =>
          obtain ⟨more, hpending⟩ := S2Connection.advance_fail hadvance
          exact hall _ (List.mem_cons_of_mem _ (by rw [hpending]; exact List.mem_cons_self))
        | ok result =>
          obtain ⟨b, conn'⟩ := result
          simp only [hadvance] at h
          obtain ⟨-, hrest⟩ := S2Connection.advance_spec hadvance
          have hmore : ∀ fetch ∈ conn'.rest, fetch ∈ Fetch.row row :: conn.pending := by
            intro fetch hfetch
            rw [hrest] at hfetch
            exact List.mem_cons_of_mem _ hfetch
          cases hloop : S2Connection.nextChunkLoop n w' conn' with
          | ok result => simp [hloop] at h
          | error e' =>
            simp only [hloop, Except.error.injEq] at h
            obtain rfl := h
            exact ih hs' hschema' (fun row' hrow' => hrows row' (hmore _ hrow')) hloop
              fun fetch hfetch => hall fetch (hmore fetch hfetch)

theorem writeRows_converts {rows : List (List Cell)} (hs : Sound w) (hschema : w.rowSchema = schema)
    (hrows : ∀ row ∈ rows, RowReceived schema.columnInfo row) (h : writeRows rows w = some w') :
    ∀ row ∈ rows, List.Forall₂ Converts schema.columnInfo row := by
  induction rows generalizing w with
  | nil => simp
  | cons row rows ih =>
    rw [writeRows] at h
    have houtcome := (hrows row List.mem_cons_self).writeRow_outcome hs hschema
    generalize w.writeRow row = result at h houtcome
    cases houtcome with
    | full | tooLarge | unconvertible => cases h
    | written hroom hconverts hs' hschema' hleft =>
      exact List.forall_mem_cons.mpr ⟨hconverts,
        ih hs' hschema' (fun r hr => hrows r (List.mem_cons_of_mem _ hr)) h⟩

end Loop

/-! ## The request -/

section Request

variable {schema : RowSchema} {conn : S2Connection} {ptr : Mem} {size id : UInt64}
  {partition : UInt32} {resultTable : String} {k : Int}

/-- There are rows, and all of them can be converted. -/
def CompleteAnswer (columns : List Column) (fetches : List Fetch) : Prop :=
  fetches ≠ [] ∧ ∀ fetch ∈ fetches, Convertible columns fetch

/-- What `GetMultipleRows` makes of the fetches in a chunk of `space` bytes. -/
def Served (schema : RowSchema) (space : Nat) (fetches : List Fetch) :
    Except ReadException (List (List Cell) × Chunk × S2Connection) → Prop
  | .ok (rows, chunk, _) => Filled schema rows chunk ∧ chunk.rowCount = UInt64.ofNat rows.length ∧
      (∃ rest, fetches = rows.map .row ++ rest ∧ ∀ e more, rest ≠ .fail e :: more) ∧
      (fetches = rows.map .row → CompleteAnswer schema.columnInfo fetches) ∧
      (RoomFor schema space fetches ↔ fetches = rows.map .row)
  | .error e => e.toError.errorCode ≠ 0 ∧ (RoomFor schema space fetches ↔ e.Caught) ∧
      (e.Caught → ¬ CompleteAnswer schema.columnInfo fetches)

/-- `GetMultipleRows` on a query that starts. -/
theorem getMultipleRows_eq (chunk : Chunk) (hstart : conn.response.startError = none)
    (hfields : conn.response.fields.length ≠ 0) :
    conn.getMultipleRows chunk schema resultTable k =
      match conn.response.fetches true with
      | [] => .error (.s2 ⟨s2cErrorInvArg, "Failed to get the row with " ++ toString k ++
          " rows from table " ++ resultTable⟩)
      | .fail e :: _ => .error e
      | .row row :: rest =>
        match S2Connection.nextChunkLoop (rest.length + 1) (reset chunk schema)
          ⟨conn.response, true, some row, rest⟩ with
        | .error e => .error e
        | .ok (rows, writer, conn) =>
          .ok (rows, { writer.currentChunk.chunk with rowCount := UInt64.ofNat rows.length },
            conn) := by
  unfold S2Connection.getMultipleRows S2Connection.prepare
  rw [hstart]
  dsimp only
  rw [if_pos rfl, if_pos hfields, if_pos rfl]
  cases hfetches : conn.response.fetches true with
  | nil => rfl
  | cons fetch rest =>
    cases fetch with
    | fail e => rfl
    | row row => rfl

theorem getMultipleRows_served (hstart : conn.response.startError = none)
    (hfields : conn.response.fields.length ≠ 0) (hcodes : conn.response.ErrorCodes)
    (hrows : ∀ row, Fetch.row row ∈ conn.response.fetches true →
      RowReceived schema.columnInfo row) :
    Served schema size.toNat (conn.response.fetches true)
      (conn.getMultipleRows (newChunk ptr size id partition) schema resultTable k) := by
  have herrors := hcodes.fetches true
  rw [getMultipleRows_eq _ hstart hfields]
  cases hfetches : conn.response.fetches true with
  | nil =>
    have hcode : s2cErrorInvArg ≠ 0 := by decide
    exact ⟨hcode, iff_of_true trivial trivial, fun _ hcomplete => hcomplete.1 rfl⟩
  | cons fetch rest =>
    rw [hfetches] at herrors hrows
    cases fetch with
    | fail e =>
      refine ⟨?_, Iff.rfl, fun _ hcomplete => hcomplete.2 _ List.mem_cons_self⟩
      cases e with
      | invalidArgument what =>
        show s2cErrorUnknownFailure ≠ 0
        decide
      | badAlloc => decide
      | s2 e => exact herrors e List.mem_cons_self
    | row row =>
      have hs : Sound (reset (newChunk ptr size id partition) schema) :=
        Sound.reset (Nat.zero_le _) schema
      dsimp only
      generalize hconn : (⟨conn.response, true, some row, rest⟩ : S2Connection) = conn'
      have hrest : conn'.rest = .row row :: rest := by
        rw [← hconn]
        rfl
      have hready : conn'.Ready := by
        intro hnone
        rw [← hconn] at hnone
        cases hnone
      rw [← hrest] at hrows
      have hends := nextChunkLoop_endsWell_iff (n := rest.length + 1) hs rfl hready
        (by rw [hrest, List.length_cons]) hrows
      rw [hrest] at hends
      cases hloop : S2Connection.nextChunkLoop (rest.length + 1)
          (reset (newChunk ptr size id partition) schema) conn' with
      | error e =>
        rw [hloop] at hends
        refine ⟨?_, hends.symm, ?_⟩
        · refine ResultTableReader.nextChunkLoop_error ?_ hloop
          intro e' he'
          rw [← hconn] at he'
          exact herrors e' (List.mem_cons_of_mem _ he')
        · rintro hcaught ⟨-, hall⟩
          rw [← hrest] at hall
          exact nextChunkLoop_reason hs rfl hrows hloop hcaught hall
      | ok result =>
        obtain ⟨rows, writer, conn₂⟩ := result
        rw [hloop] at hends
        obtain ⟨hready₂, hfetched, hwritten⟩ := S2Connection.nextChunkLoop_spec hloop
        have hwrittenRows : ∀ row' ∈ rows, RowReceived schema.columnInfo row' := by
          intro row' hrow'
          apply hrows
          rw [hfetched]
          exact List.mem_append_left _ (List.mem_map_of_mem hrow')
        refine ⟨(S2Connection.filled_nextChunkLoop
            (fun row' hrow' => (hrows row' hrow').toRowFits) hloop).1, rfl,
          ⟨conn₂.rest, by rw [← hrest]; exact hfetched, ?_⟩, ?_, hends.symm⟩
        · -- the loop stops at a row
          intro e more hfail
          cases hlast : conn₂.lastFetchedRow with
          | none =>
            rw [(hready₂ hready).rest_eq_nil hlast] at hfail
            cases hfail
          | some row' =>
            rw [S2Connection.rest_of_row hlast] at hfail
            cases hfail
        · intro hall
          refine ⟨List.cons_ne_nil _ _, ?_⟩
          rw [hall]
          intro fetch hfetch
          obtain ⟨row', hrow', rfl⟩ := List.mem_map.mp hfetch
          exact writeRows_converts hs rfl hwrittenRows hwritten row' hrow'

end Request

/-! ## The rows of a partition -/

theorem toInt32_ofNat_le (n : Nat) : toInt32 (UInt32.ofNat n) ≤ n := by
  have hle := Nat.mod_le n (2 ^ 32)
  unfold toInt32
  rw [UInt32.toNat_ofNat', Int.bmod_def]
  split
  · omega
  · omega

/-- The ids as `GetMultipleRows` of the connection gets them: their number is an
`int` there. -/
def narrowIds (rowIds : List Int) : RowIds where
  ids := rowIds
  number := toInt32 (UInt32.ofNat rowIds.length)
  number_le := toInt32_ofNat_le rowIds.length

/-- The rows with the keys of the list, in the order of their keys. -/
def Selects (content : List (Int × List (Option FieldData))) (rowIds : List Int)
    (rows : List (List (Option FieldData))) : Prop :=
  ∃ keyed : List (Int × List (Option FieldData)), keyed.Perm (content.filter fun r => r.1 ∈ rowIds) ∧
    keyed.Pairwise (fun a b => a.1 ≤ b.1) ∧ rows = keyed.map Prod.snd

/-- No row is lost when the number of the ids is narrowed. -/
def Names (content : List (Int × List (Option FieldData))) (rowIds : List Int) : Prop :=
  ∀ r ∈ content, r.1 ∈ rowIds → r.1 ∈ (narrowIds rowIds).listed

section Partition

variable {content : List (Int × List (Option FieldData))} {rowIds : List Int}
  {rows rows' : List (List (Option FieldData))}

theorem Selects.length (h : Selects content rowIds rows) :
    rows.length = (content.filter fun r => r.1 ∈ rowIds).length := by
  obtain ⟨keyed, hperm, -, rfl⟩ := h
  rw [List.length_map, hperm.length_eq]

theorem Selects.mem {row : List (Option FieldData)} (h : Selects content rowIds rows)
    (hrow : row ∈ rows) : ∃ r ∈ content, r.2 = row := by
  obtain ⟨keyed, hperm, -, rfl⟩ := h
  obtain ⟨r, hr, rfl⟩ := List.mem_map.mp hrow
  exact ⟨r, List.mem_of_mem_filter (hperm.mem_iff.mp hr), rfl⟩

theorem listed_subset {id : Int} (h : id ∈ (narrowIds rowIds).listed) : id ∈ rowIds :=
  List.mem_of_mem_take h

theorem filter_listed_sublist :
    (content.filter fun r => r.1 ∈ (narrowIds rowIds).listed).Sublist
      (content.filter fun r => r.1 ∈ rowIds) := by
  apply List.monotone_filter_right
  intro r hr
  simp only [decide_eq_true_eq] at hr ⊢
  exact listed_subset hr

theorem Names.selects (hnames : Names content rowIds)
    (h : Selects content (narrowIds rowIds).listed rows) : Selects content rowIds rows := by
  have hsame : (content.filter fun r => r.1 ∈ (narrowIds rowIds).listed) =
      content.filter fun r => r.1 ∈ rowIds := by
    apply List.filter_congr
    intro r hr
    exact decide_eq_decide.mpr ⟨listed_subset, hnames r hr⟩
  rwa [Selects, hsame] at h

theorem names_of_length (h : Selects content (narrowIds rowIds).listed rows)
    (hall : Selects content rowIds rows') (hlength : rows'.length ≤ rows.length) :
    Names content rowIds := by
  rw [h.length, hall.length] at hlength
  have hsame := filter_listed_sublist.eq_of_length_le hlength
  intro r hr hid
  have hmem : r ∈ content.filter fun r => r.1 ∈ rowIds := by
    simp [hr, hid]
  rw [← hsame] at hmem
  simpa using (List.mem_filter.mp hmem).2

end Partition

/-! ## The call -/

/-- `GetChunkMultipleRows`. In the streaming mode the queue stores an error for
`GetNextChunk`, and this call gets none. -/
def ApiQueue.chunkMultipleRows (Q : ApiQueue) (partitionId : UInt32) (rowIds : List Int)
    (threadId : Nat) (chunkSize : UInt64) (world : RowWorld) (conns : Conns) (out : Chunk) :
    Except RowFailure Received :=
  match Q.kind with
  | .multiPass =>
    match (Q.getMultipleRows chunkSize partitionId (narrowIds rowIds).number threadId world
      conns).1 with
    | .ok (res, err) => .ok (getChunkMultipleRows res err out)
    | .error e => .error e
  | .streaming => .ok (getChunkMultipleRows none .none out)

/-- The caller gets all rows that it asked for, or an error. -/
def CompleteOrReported (schema : RowSchema) (content : List (Int × List (Option FieldData)))
    (rowIds : List Int) : Except RowFailure Received → Prop
  | .ok r => (r.returned = true ∧ ∃ rows filled, Selects content rowIds rows ∧
      Filled schema (rows.map binaryRow) filled ∧ HeaderCopied filled r.chunk ∧
      r.chunk.ptr = filled.ptr) ∨ (r.returned = false ∧ r.callback ≠ none)
  | .error _ => False

/-- The request ends with an error before the first fetch. -/
def ApiQueue.RequestFails (Q : ApiQueue) (threadId : Nat) (chunkSize : UInt64) (world : RowWorld)
    (conns : Conns) : Prop :=
  Q.consumerThreadsNum ≤ threadId ∨
    (threadId < Q.consumers ∧ ((conns threadId = none ∧ world.connectError.errorCode ≠ 0) ∨
      world.malloc chunkSize = none ∨ ¬ world.response.Starts))

section Call

variable {Q : ApiQueue} {partitionId : UInt32} {rowIds : List Int} {threadId : Nat}
  {chunkSize : UInt64} {world : RowWorld} {conns : Conns} {out : Chunk}
  {content : List (Int × List (Option FieldData))} {e : S2ClientError}

theorem completeOrReported_error (he : e.errorCode ≠ 0) :
    CompleteOrReported Q.rowSchema content rowIds (.ok (getChunkMultipleRows none e out)) := by
  refine Or.inr ⟨rfl, ?_⟩
  show (if e.errorCode ≠ 0 then some e else none) ≠ none
  rw [if_pos he]
  exact Option.some_ne_none e

theorem chunkMultipleRows_fails (hkind : Q.kind = .multiPass)
    (hcodes : world.response.ErrorCodes)
    (hfails : Q.RequestFails threadId chunkSize world conns) :
    ∃ e, e.errorCode ≠ 0 ∧
      Q.chunkMultipleRows partitionId rowIds threadId chunkSize world conns out =
        .ok (getChunkMultipleRows none e out) := by
  unfold ApiQueue.chunkMultipleRows ApiQueue.getMultipleRows ApiQueue.withConsumer
  rw [hkind]
  dsimp only
  by_cases hthread : (threadId : Int) ≥ Q.consumerThreadsNum
  · rw [if_pos hthread]
    exact ⟨_, (by decide : s2cErrorInvArg ≠ 0), rfl⟩
  · obtain ⟨hindex, hfails⟩ := hfails.resolve_left hthread
    rw [if_neg hthread, if_neg (by omega)]
    cases hconn : connectConsumer threadId world conns with
    | error e =>
      unfold connectConsumer at hconn
      split at hconn
      · cases hconn
      · split at hconn
        · rename_i hcode
          obtain rfl := Except.error.inj hconn
          exact ⟨_, hcode, rfl⟩
        · cases hconn
    | ok conn =>
      have hresponse := connectConsumer_response hconn
      dsimp only
      cases hmalloc : world.malloc chunkSize with
      | none => exact ⟨_, (by decide : s2cErrorMemoryAllocation ≠ 0), rfl⟩
      | some ptr =>
        dsimp only
        unfold S2Connection.getMultipleRows S2Connection.prepare
        rw [hresponse]
        cases hstart : world.response.startError with
        | some e => exact ⟨e, hcodes.start e hstart, rfl⟩
        | none =>
          have hfields : world.response.fields.length = 0 := by
            rcases hfails with ⟨hnone, hcode⟩ | h | h
            · simp [connectConsumer, hnone, hcode] at hconn
            · rw [hmalloc] at h
              cases h
            · by_contra hfields
              exact h ⟨hstart, hfields⟩
          dsimp only
          rw [if_pos rfl, if_neg (not_not_intro hfields)]
          exact ⟨_, (by decide : s2cErrorInvArg ≠ 0), rfl⟩

/-- What the caller gets of the result of `GetMultipleRows` of the connection. -/
def receiveRows (out : Chunk) :
    Except ReadException (List (List Cell) × Chunk × S2Connection) → Except RowFailure Received
  | .ok (_, chunk, _) => .ok (getChunkMultipleRows (some chunk) .none out)
  | .error (.s2 e) => .ok (getChunkMultipleRows none e out)
  | .error e => .error (.exception e)

theorem chunkMultipleRows_runs (hkind : Q.kind = .multiPass) (hindex : threadId < Q.consumers)
    (hruns : ¬ Q.RequestFails threadId chunkSize world conns) :
    ∃ (conn : S2Connection) (ptr : Mem), conn.response = world.response ∧ conn.response.Starts ∧
      Q.chunkMultipleRows partitionId rowIds threadId chunkSize world conns out =
        receiveRows out (conn.getMultipleRows (newChunk ptr chunkSize 0 partitionId) Q.rowSchema
          Q.resultTable (narrowIds rowIds).number) := by
  unfold ApiQueue.RequestFails at hruns
  push Not at hruns
  obtain ⟨hthread, hruns⟩ := hruns
  obtain ⟨hconnect, hmalloc, hstarts⟩ := hruns hindex
  obtain ⟨ptr, hptr⟩ := Option.ne_none_iff_exists'.mp hmalloc
  obtain ⟨conn, hconn⟩ : ∃ conn, connectConsumer threadId world conns = .ok conn := by
    unfold connectConsumer
    cases hconns : conns threadId with
    | some conn => exact ⟨_, rfl⟩
    | none =>
      dsimp only
      rw [if_neg (not_not_intro (hconnect hconns))]
      exact ⟨_, rfl⟩
  have hresponse := connectConsumer_response hconn
  refine ⟨conn, ptr, hresponse, by rw [hresponse]; exact hstarts, ?_⟩
  unfold ApiQueue.chunkMultipleRows ApiQueue.getMultipleRows ApiQueue.withConsumer
  rw [hkind]
  dsimp only
  rw [if_neg (by omega), if_neg (by omega), hconn]
  dsimp only
  rw [hptr]
  dsimp only
  cases conn.getMultipleRows (newChunk ptr chunkSize 0 partitionId) Q.rowSchema Q.resultTable
    (narrowIds rowIds).number with
  | ok result => rfl
  | error e => cases e <;> rfl

theorem fetches_received
    (hfits : ∀ r ∈ content, RowFits Q.rowSchema.columnInfo (binaryRow r.2))
    (hserver : Selects content (narrowIds rowIds).listed world.response.rows) :
    ∀ row, Fetch.row row ∈ world.response.fetches true →
      RowReceived Q.rowSchema.columnInfo row := by
  intro row hrow
  have hcells := Response.mem_cells hrow
  obtain ⟨data, hdata, rfl⟩ := List.mem_map.mp hcells
  obtain ⟨r, hr, rfl⟩ := hserver.mem hdata
  have hrowFits := hfits r hr
  refine ⟨hrowFits, nulls_binaryRow ?_⟩
  rw [hrowFits.cells.length_eq, binaryRow, List.length_map]

theorem Filled.rowCount {schema : RowSchema} {rows : List (List Cell)} {chunk : Chunk}
    (h : Filled schema rows chunk) : chunk.rowCount = UInt64.ofNat rows.length := by
  obtain ⟨ptr, size, id, partition, w, -, rfl⟩ := h.written
  rfl

/-- The result is complete or an error exactly when there was room. -/
theorem completeOrReported_iff
    {result : Except ReadException (List (List Cell) × Chunk × S2Connection)}
    (hcount : content.length < 2 ^ 64)
    (hserver : Selects content (narrowIds rowIds).listed world.response.rows)
    (hserved : Served Q.rowSchema chunkSize.toNat (world.response.fetches true) result) :
    CompleteOrReported Q.rowSchema content rowIds (receiveRows out result) ↔
      RoomFor Q.rowSchema chunkSize.toNat (world.response.fetches true) ∧
        (CompleteAnswer Q.rowSchema.columnInfo (world.response.fetches true) → Names content rowIds) := by
  cases result with
  | error e =>
    obtain ⟨hcode, hroom, hreason⟩ := hserved
    cases e with
    | s2 e =>
      refine iff_of_true (completeOrReported_error hcode) ⟨hroom.mpr trivial, ?_⟩
      exact fun hcomplete => absurd hcomplete (hreason trivial)
    | invalidArgument what => exact iff_of_false id fun h => hroom.mp h.1
    | badAlloc => exact iff_of_false id fun h => hroom.mp h.1
  | ok result =>
    obtain ⟨rows, chunk, conn⟩ := result
    obtain ⟨hfilled, hrowCount, ⟨rest, hfetches, hstop⟩, hcomplete, hroom⟩ := hserved
    have hanswer := world.response.fetchesOf true
    constructor
    · rintro (⟨-, rows', filled, hselects, hfilled', hcopied, -⟩ | ⟨hreturned, -⟩)
      · -- the chunk has as many rows as the ids select
        rw [hfetches] at hanswer
        obtain ⟨more, hcells, hmore⟩ := hanswer.of_append
        have htotal : world.response.rows.length = rows.length + more.length := by
          rw [← List.length_append, ← hcells, Response.cells, if_pos rfl, List.length_map]
        have hlisted : (content.filter fun r => r.1 ∈ (narrowIds rowIds).listed).length ≤
            (content.filter fun r => r.1 ∈ rowIds).length := filter_listed_sublist.length_le
        have hcontent := List.length_filter_le (fun r => decide (r.1 ∈ rowIds)) content
        rw [← hserver.length, ← hselects.length] at hlisted
        rw [← hselects.length] at hcontent
        have hcounts : UInt64.ofNat rows.length = UInt64.ofNat rows'.length := by
          rw [← hrowCount]
          refine hcopied.rowCount.trans (hfilled'.rowCount.trans ?_)
          rw [List.length_map]
        have hlength := congrArg UInt64.toNat hcounts
        rw [UInt64.toNat_ofNat', UInt64.toNat_ofNat', Nat.mod_eq_of_lt (by omega),
          Nat.mod_eq_of_lt (by omega)] at hlength
        obtain rfl := List.length_eq_zero_iff.mp (by omega : more.length = 0)
        have hall : world.response.fetches true = rows.map .row := by
          rcases hmore with hnil | ⟨n, e, hfail⟩
          · rw [hfetches, hnil]
            exact List.append_nil _
          · rw [List.take_nil] at hfail
            exact absurd hfail (hstop e [])
        exact ⟨hroom.mpr hall, fun _ => names_of_length hserver hselects (by omega)⟩
      · cases hreturned
    · rintro ⟨hspace, hnames⟩
      have hall := hroom.mp hspace
      have hrows := Response.fetches_eq_cells hall
      refine Or.inl ⟨rfl, world.response.rows, chunk,
        (hnames (hcomplete hall)).selects hserver, ?_, headerCopied_moveChunk out chunk, rfl⟩
      rw [← hrows] at hfilled
      exact hfilled

/-- An index that `m_consumers` does not have. -/
theorem chunkMultipleRows_outOfRange (hkind : Q.kind = .multiPass)
    (hthread : (threadId : Int) < Q.consumerThreadsNum) (hindex : Q.consumers ≤ threadId) :
    Q.chunkMultipleRows partitionId rowIds threadId chunkSize world conns out =
      .error .outOfRange := by
  unfold ApiQueue.chunkMultipleRows ApiQueue.getMultipleRows ApiQueue.withConsumer
  rw [hkind]
  dsimp only
  rw [if_neg (by omega), if_pos hindex]

/-- **Many rows in one chunk**: the caller gets all of them or an error exactly
when the queue is a multi-pass queue and either the request fails before the
first fetch, or the thread has a place in `m_consumers`, there is room for the
rows and no id is lost. -/
theorem chunkMultipleRows_complete_iff (Q : ApiQueue)
    (content : List (Int × List (Option FieldData))) (rowIds : List Int) (partitionId : UInt32)
    (threadId : Nat) (chunkSize : UInt64) (world : RowWorld) (conns : Conns) (out : Chunk)
    (hcount : content.length < 2 ^ 64)
    (hfits : ∀ r ∈ content, RowFits Q.rowSchema.columnInfo (binaryRow r.2))
    (hcodes : world.response.ErrorCodes)
    (hserver : Selects content (narrowIds rowIds).listed world.response.rows) :
    CompleteOrReported Q.rowSchema content rowIds
        (Q.chunkMultipleRows partitionId rowIds threadId chunkSize world conns out) ↔
      Q.kind = .multiPass ∧ (Q.RequestFails threadId chunkSize world conns ∨
        (threadId < Q.consumers ∧
          RoomFor Q.rowSchema chunkSize.toNat (world.response.fetches true) ∧
          (CompleteAnswer Q.rowSchema.columnInfo (world.response.fetches true) →
            Names content rowIds))) := by
  cases hkind : Q.kind with
  | streaming =>
    refine iff_of_false ?_ (by rintro ⟨h, -⟩; cases h)
    unfold ApiQueue.chunkMultipleRows
    rw [hkind]
    rintro (⟨hreturned, -⟩ | ⟨-, hcallback⟩)
    · cases hreturned
    · exact hcallback rfl
  | multiPass =>
    rw [and_iff_right rfl]
    by_cases hfails : Q.RequestFails threadId chunkSize world conns
    · obtain ⟨e, he, hcall⟩ := chunkMultipleRows_fails hkind hcodes hfails
      rw [hcall]
      exact iff_of_true (completeOrReported_error he) (Or.inl hfails)
    · rw [or_iff_right hfails]
      rcases Nat.lt_or_ge threadId Q.consumers with hindex | hindex
      · obtain ⟨conn, ptr, hresponse, hstarts, hcall⟩ := chunkMultipleRows_runs hkind hindex hfails
        rw [hcall, and_iff_right hindex]
        have hserved : Served Q.rowSchema chunkSize.toNat (world.response.fetches true)
            (conn.getMultipleRows (newChunk ptr chunkSize 0 partitionId) Q.rowSchema Q.resultTable
              (narrowIds rowIds).number) := by
          rw [← hresponse]
          exact getMultipleRows_served hstarts.1 hstarts.2 (by rw [hresponse]; exact hcodes)
            (by rw [hresponse]; exact fetches_received hfits hserver)
        exact completeOrReported_iff hcount hserver hserved
      · have hthread : (threadId : Int) < Q.consumerThreadsNum := by
          by_contra hlarge
          exact hfails (Or.inl (by omega))
        rw [chunkMultipleRows_outOfRange hkind hthread hindex]
        exact iff_of_false id fun h => absurd h.1 (by omega)

end Call

/-! ## Two rows -/

/-- A partition of two rows, with the keys 7 and 8. -/
def twoRows : List (Int × List (Option FieldData)) :=
  [(7, [some ⟨[7, 0, 0, 0, 0, 0, 0, 0], [55]⟩, some ⟨[104, 105], [104, 105]⟩]),
    (8, [some ⟨[8, 0, 0, 0, 0, 0, 0, 0], [56]⟩, some ⟨[98, 121, 101], [98, 121, 101]⟩])]

def twoRowsWorld : RowWorld where
  connectError := .none
  response := { textResponse with
    rows := twoRows.map Prod.snd
    noFields := by simp [textResponse] }
  malloc := fun _ => some fun _ => 0

def emptyChunk : Chunk := newChunk (fun _ => 0) 0 0 0

theorem twoRows_fits : ∀ r ∈ twoRows, RowFits numberAndText.columnInfo (binaryRow r.2) := by
  intro r hr
  rcases List.mem_cons.mp hr with rfl | hr
  · refine ⟨.cons ?_ (.cons ?_ .nil), by decide⟩
    · constructor <;> simp
    · constructor <;> simp
  · rw [List.mem_singleton.mp hr]
    refine ⟨.cons ?_ (.cons ?_ .nil), by decide⟩
    · constructor <;> simp
    · constructor <;> simp

theorem twoRows_selects : Selects twoRows [7, 8] twoRowsWorld.response.rows :=
  ⟨twoRows, List.Perm.refl _, by decide, rfl⟩

theorem twoRows_queue : ∃ Q,
    parallelReadGetQueue ⟨1, 0, 1⟩ "t" 64 1 1 true numberAndText (fun _ => textResponse)
      (fun _ _ => some fun _ => 0) 0 = .ok Q ∧
    Q.kind = .multiPass ∧ Q.rowSchema = numberAndText ∧ Q.consumerThreadsNum = 1 ∧
    Q.consumers = 1 := by
  have hpart : workerPartitions (1 : Nat) (0 : Nat) (1 : Nat) = .ok [0] := by
    rw [workerPartitions_ok (by decide)]
    exact congrArg Except.ok (strided_zero_one 1)
  obtain ⟨Q, hQ, hkind, hschema, hthreads, hconsumers, -⟩ :=
    parallelReadGetQueue_single ⟨1, 0, 1⟩ "t" 64 1 numberAndText (fun _ => textResponse)
      (fun _ _ => some fun _ => 0) 0 hpart
  exact ⟨Q, hQ, hkind, hschema, hthreads, hconsumers⟩

/-- In 64 bytes there is room for both rows. -/
theorem chunkMultipleRows_complete_two : ∃ Q,
    parallelReadGetQueue ⟨1, 0, 1⟩ "t" 64 1 1 true numberAndText (fun _ => textResponse)
      (fun _ _ => some fun _ => 0) 0 = .ok Q ∧
    CompleteOrReported Q.rowSchema twoRows [7, 8]
      (Q.chunkMultipleRows 0 [7, 8] 0 64 twoRowsWorld (fun _ => none) emptyChunk) := by
  obtain ⟨Q, hQ, hkind, hschema, -, hconsumers⟩ := twoRows_queue
  have hcodes : twoRowsWorld.response.ErrorCodes := by
    constructor
    · intro e he
      cases he
    · intro n e he
      cases he
  have hiff := chunkMultipleRows_complete_iff Q twoRows [7, 8] 0 0 64 twoRowsWorld (fun _ => none)
    emptyChunk (by decide) (by rw [hschema]; exact twoRows_fits) hcodes twoRows_selects
  refine ⟨Q, hQ, hiff.mpr ⟨hkind, Or.inr ⟨by omega, ?_, ?_⟩⟩⟩
  · rw [hschema]
    exact ⟨by decide, fun _ => ⟨by decide, fun _ => trivial⟩⟩
  · intro _ r _ hid
    exact hid

/-- In 40 bytes there is room for one row, which is returned alone; in 8 bytes
there is room for none, and the exception leaves the function. -/
theorem chunkMultipleRows_no_room : ∃ Q,
    parallelReadGetQueue ⟨1, 0, 1⟩ "t" 64 1 1 true numberAndText (fun _ => textResponse)
      (fun _ _ => some fun _ => 0) 0 = .ok Q ∧
    (∃ r, Q.chunkMultipleRows 0 [7, 8] 0 40 twoRowsWorld (fun _ => none) emptyChunk = .ok r ∧
      r.returned = true ∧ r.chunk.rowCount = 1) ∧
    (∃ what, Q.chunkMultipleRows 0 [7, 8] 0 8 twoRowsWorld (fun _ => none) emptyChunk =
      .error (.exception (.invalidArgument what))) ∧
    ∀ chunkSize ∈ [40, 8], ¬ CompleteOrReported Q.rowSchema twoRows [7, 8]
      (Q.chunkMultipleRows 0 [7, 8] 0 chunkSize twoRowsWorld (fun _ => none) emptyChunk) := by
  obtain ⟨Q, hQ, hkind, hschema, hthreads, hconsumers⟩ := twoRows_queue
  have hone : ∃ r, Q.chunkMultipleRows 0 [7, 8] 0 40 twoRowsWorld (fun _ => none) emptyChunk =
      .ok r ∧ r.returned = true ∧ r.chunk.rowCount = 1 := by
    unfold ApiQueue.chunkMultipleRows ApiQueue.getMultipleRows ApiQueue.withConsumer
    rw [hkind, hthreads, hconsumers, hschema]
    exact ⟨_, rfl, rfl, rfl⟩
  have hnone : ∃ what, Q.chunkMultipleRows 0 [7, 8] 0 8 twoRowsWorld (fun _ => none) emptyChunk =
      .error (.exception (.invalidArgument what)) := by
    unfold ApiQueue.chunkMultipleRows ApiQueue.getMultipleRows ApiQueue.withConsumer
    rw [hkind, hthreads, hconsumers, hschema]
    exact ⟨_, rfl⟩
  refine ⟨Q, hQ, hone, hnone, ?_⟩
  intro chunkSize hsize
  rcases List.mem_cons.mp hsize with rfl | hsize
  · obtain ⟨r, hr, hreturned, hcount⟩ := hone
    rw [hr]
    rintro (⟨-, rows, filled, hselects, hfilled, hcopied, -⟩ | ⟨hfalse, -⟩)
    · have hlength : rows.length = 2 := hselects.length
      have hrowCount := hcopied.rowCount.trans hfilled.rowCount
      rw [hcount, List.length_map, hlength] at hrowCount
      exact absurd hrowCount (by decide)
    · rw [hreturned] at hfalse
      cases hfalse
  · obtain ⟨what, hwhat⟩ := hnone
    rw [List.mem_singleton.mp hsize, hwhat]
    exact id

end SasLibclient
