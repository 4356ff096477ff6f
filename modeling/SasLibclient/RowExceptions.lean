import SasLibclient.RowRequests
import SasLibclient.SameChunks

/-!
# What a request for rows throws and returns

The queue catches the `S2ClientError`s of `GetSingleRow` and `GetMultipleRows`;
any other exception leaves the API. `WriteRow` throws another one only for a row
that is too large for an empty chunk. So the requests throw nothing else when the
first row fits into the chunk and the fetches that are reached throw nothing else.
What they return holds the first rows that were fetched.
-/

namespace SasLibclient

open Bytes SuperChunkWriter

/-- The handlers of the queue catch the exception. -/
def ReadException.Caught : ReadException → Prop
  | .s2 _ => True
  | _ => False

/-! ## Writing a row -/

section Write

variable {w : SuperChunkWriter} {row : List Cell} {e : WriteError}

theorem hasEnoughSpace_reset (ptr : Mem) (size id n : UInt64) (partition : UInt32)
    (schema : RowSchema) :
    (reset (newChunk ptr size id partition) schema).hasEnoughSpace n = true ↔ n ≤ size := by
  have hspace : (reset (newChunk ptr size id partition) schema).space = size := by
    show size - 0 - 0 = size
    rw [UInt64.sub_zero, UInt64.sub_zero]
  rw [hasEnoughSpace, hspace]
  simp

/-- `WriteRow` throws an exception that is not caught for the first row of a
chunk, when it is too large. -/
theorem writeRow_caught
    (hfits : w.currentChunk.chunk.rowCount = 0 →
      w.hasEnoughSpace (rowSize w.rowSchema row) = true)
    (h : w.writeRow row = .error e) : e.toException.Caught := by
  unfold SuperChunkWriter.writeRow at h
  dsimp only at h
  split at h
  · rename_i hspace
    split at h
    · rename_i hempty
      simp [hfits hempty] at hspace
    · cases h
  · cases hcolumns : writeColumns w.rowSchema.columnInfo row w with
    | ok w₁ =>
      rw [hcolumns] at h
      cases h
    | error e' =>
      rw [hcolumns] at h
      obtain rfl := Except.error.inj h
      obtain ⟨e'', rfl, -⟩ := writeColumns_error hcolumns
      trivial

end Write

/-! ## The loop of `NextChunk` -/

/-- The query starts and has a result set, so that its rows are fetched. -/
def Response.Starts (response : Response) : Prop :=
  response.startError = none ∧ response.fields.length ≠ 0

/-- The first fetch throws nothing but `S2ClientError`. -/
def FirstCaught (fetches : List Fetch) : Prop :=
  ∀ e rest, fetches = .fail e :: rest → e.Caught

/-- So do the fetches behind rows that `WriteRow` accepts. -/
def CaughtBehind : SuperChunkWriter → List Fetch → Prop
  | _, [] => True
  | _, .fail e :: _ => e.Caught
  | w, .row row :: rest => ∀ w', w.writeRow row = .ok (true, w') → CaughtBehind w' rest

theorem CaughtBehind.first {w : SuperChunkWriter} {fetches : List Fetch}
    (h : CaughtBehind w fetches) : FirstCaught fetches := by
  rintro e rest rfl
  exact h

theorem Response.length_fetches_le (response : Response) :
    (response.fetches true).length ≤ response.rows.length + 1 := by
  unfold Response.fetches Response.cells
  split
  · simp
  · simp only [if_true, List.length_append, List.length_map, List.length_take,
      List.length_singleton]
    omega

namespace S2Connection

variable {conn conn' : S2Connection} {w : SuperChunkWriter} {n : Nat} {e : ReadException}

theorem advance_caught (hfirst : FirstCaught conn.pending) (h : conn.advance = .error e) :
    e.Caught := by
  obtain ⟨more, hpending⟩ := advance_fail h
  exact hfirst e more hpending

/-- The counter of the rows does not come back to 0. -/
theorem nextChunkLoop_caught (hcaught : CaughtBehind w conn.rest)
    (hcount : w.currentChunk.chunk.rowCount.toNat + conn.rest.length ≤ 2 ^ 64)
    (hfits : w.currentChunk.chunk.rowCount = 0 → ∀ row, conn.lastFetchedRow = some row →
      w.hasEnoughSpace (rowSize w.rowSchema row) = true)
    (h : nextChunkLoop n w conn = .error e) : e.Caught := by
  induction n generalizing w conn with
  | zero => cases h
  | succ n ih =>
    rw [nextChunkLoop] at h
    cases hrow : conn.lastFetchedRow with
    | none => simp [hrow] at h
    | some row =>
      simp only [hrow] at h
      rw [rest_of_row hrow] at hcaught hcount
      rw [List.length_cons] at hcount
      split at h
      · rename_i hwrite
        obtain rfl := Except.error.inj h
        exact writeRow_caught (fun hempty => hfits hempty row hrow) hwrite
      · cases h
      · rename_i w₁ hwrite
        have hbehind := hcaught w₁ hwrite
        split at h
        · rename_i hadvance
          obtain rfl := Except.error.inj h
          exact advance_caught hbehind.first hadvance
        · rename_i b conn₁ hadvance
          obtain ⟨-, hrest⟩ := advance_spec hadvance
          have hrowCount := (kept_writeRow hwrite).2
          have htoNat := congrArg UInt64.toNat hrowCount
          rw [UInt64.toNat_add] at htoNat
          have hone : (1 : UInt64).toNat = 1 := rfl
          rw [hone] at htoNat
          split at h
          · rename_i hloop
            obtain rfl := Except.error.inj h
            apply ih (by rw [hrest]; exact hbehind) ?_ ?_ hloop
            · rw [hrest, htoNat]
              have hmod := Nat.mod_le (w.currentChunk.chunk.rowCount.toNat + 1) (2 ^ 64)
              omega
            · -- the counter has not wrapped, since there is another row
              intro hzero row' hrow'
              rw [rest_of_row hrow'] at hrest
              have hlength := congrArg List.length hrest
              rw [List.length_cons] at hlength
              rw [hzero, Nat.mod_eq_of_lt (by omega)] at htoNat
              cases htoNat
          · cases h

/-- What `Prepare` throws, and the fetches that it leaves. -/
theorem prepare_caught (hfirst : conn.response.Starts → FirstCaught (conn.response.fetches true))
    (h : conn.prepare true true = .error e) : e.Caught := by
  unfold prepare at h
  split at h
  · obtain rfl := Except.error.inj h
    trivial
  · rename_i hstart
    dsimp only at h
    rw [if_pos rfl] at h
    split at h
    · rename_i hfields
      rw [if_pos rfl] at h
      split at h
      · cases h
      · rename_i hadvance
        obtain rfl := Except.error.inj h
        exact advance_caught (hfirst ⟨hstart, hfields⟩) hadvance
    · cases h

theorem prepare_fetches (h : conn.prepare true true = .ok (true, conn')) :
    conn.response.Starts ∧ conn'.Ready ∧ conn'.rest = conn.response.fetches true := by
  unfold prepare at h
  split at h
  · cases h
  · rename_i hstart
    dsimp only at h
    rw [if_pos rfl] at h
    split at h
    · rename_i hfields
      rw [if_pos rfl] at h
      split at h
      · rename_i hadvance
        obtain ⟨-, rfl⟩ := Prod.mk.inj (Except.ok.inj h)
        exact ⟨⟨hstart, hfields⟩, advance_spec hadvance⟩
      · cases h
    · cases h

/-! ## The requests -/

variable {schema : RowSchema} {resultTable : String} {partitionId : UInt32} {k : Int}

/-- The chunk of `GetSingleRow` has room for its row. -/
theorem getSingleRow_caught {malloc : UInt64 → Option Mem}
    (hfirst : conn.response.Starts → FirstCaught (conn.response.fetches true))
    (h : conn.getSingleRow schema resultTable partitionId k malloc = .error e) : e.Caught := by
  unfold getSingleRow at h
  split at h
  · rename_i hprepare
    obtain rfl := Except.error.inj h
    exact prepare_caught hfirst hprepare
  · split at h
    · dsimp only at h
      split at h
      · obtain rfl := Except.error.inj h
        trivial
      · split at h
        · rename_i hwrite
          obtain rfl := Except.error.inj h
          apply writeRow_caught ?_ hwrite
          intro _
          exact (hasEnoughSpace_reset _ _ _ _ _ _).mpr (UInt64.le_refl _)
        · cases h
    · obtain rfl := Except.error.inj h
      trivial

/-- The fetches into a chunk of `chunkSize` bytes, when they are reached. -/
structure ManyCaught (schema : RowSchema) (ptr : Mem) (chunkSize : UInt64) (partitionId : UInt32)
    (response : Response) : Prop where
  fetches : CaughtBehind (reset (newChunk ptr chunkSize 0 partitionId) schema)
    (response.fetches true)
  first : ∀ row rest, response.fetches true = .row row :: rest → rowSize schema row ≤ chunkSize
  length : response.rows.length < 2 ^ 64

theorem getMultipleRows_caught {ptr : Mem} {chunkSize : UInt64}
    (hcaught : conn.response.Starts → ManyCaught schema ptr chunkSize partitionId conn.response)
    (h : conn.getMultipleRows (newChunk ptr chunkSize 0 partitionId) schema resultTable k =
      .error e) : e.Caught := by
  unfold getMultipleRows at h
  split at h
  · rename_i hprepare
    obtain rfl := Except.error.inj h
    exact prepare_caught (fun hstarts => (hcaught hstarts).fetches.first) hprepare
  · rename_i result conn' hprepare
    split at h
    · rename_i first hfirst
      obtain ⟨hstarts, -, hrest⟩ := prepare_fetches hprepare
      have hmany := hcaught hstarts
      split at h
      · rename_i hloop
        obtain rfl := Except.error.inj h
        apply nextChunkLoop_caught ?_ ?_ ?_ hloop
        · rw [hrest]
          exact hmany.fetches
        · rw [hrest]
          have hfetched := conn.response.length_fetches_le
          have hlength := hmany.length
          show 0 + _ ≤ _
          omega
        · intro _ row hrow
          apply (hasEnoughSpace_reset _ _ _ _ _ _).mpr
          exact hmany.first row conn'.pending (by rw [← hrest, rest_of_row hrow])
      · cases h
    · obtain rfl := Except.error.inj h
      trivial

/-! ## What they return -/

/-- The chunk of the partition holds `rows`, which were fetched first, and there
is one. -/
structure RowsOf (schema : RowSchema) (partitionId : UInt32) (fetches : List Fetch)
    (rows : List (List Cell)) (chunk : Chunk) : Prop where
  ne_nil : rows ≠ []
  fetched : ∃ rest, fetches = rows.map .row ++ rest
  written : ∃ ptr size w,
    writeRows rows (reset (newChunk ptr size 0 partitionId) schema) = some w ∧
      chunk = { w.currentChunk.chunk with rowCount := UInt64.ofNat rows.length }

theorem rowsOf_getSingleRow {malloc : UInt64 → Option Mem} {chunk : Chunk}
    (h : conn.getSingleRow schema resultTable partitionId k malloc = .ok (chunk, conn')) :
    ∃ row, RowsOf schema partitionId (conn.response.fetches true) [row] chunk := by
  unfold getSingleRow at h
  split at h
  · cases h
  · rename_i b conn₁ hprepare
    split at h
    · rename_i row hrow
      obtain ⟨-, -, hrest⟩ := prepare_fetches hprepare
      dsimp only at h
      split at h
      · cases h
      · rename_i ptr _
        split at h
        · cases h
        · rename_i accepted w hwrite
          obtain ⟨rfl, -⟩ := Prod.mk.inj (Except.ok.inj h)
          obtain rfl : accepted = true := by
            by_contra hfalse
            rw [Bool.not_eq_true] at hfalse
            rw [hfalse] at hwrite
            exact SuperChunkWriter.writeRow_ne_false rfl hwrite
          have hcount : w.currentChunk.chunk.rowCount = UInt64.ofNat [row].length :=
            (kept_writeRow hwrite).2
          refine ⟨row, List.cons_ne_nil _ _, ⟨conn₁.pending, ?_⟩, ptr, rowSize schema row, w, ?_, ?_⟩
          · rw [← hrest, rest_of_row hrow]
            rfl
          · rw [writeRows, hwrite]
            rfl
          · rw [← hcount]
    · cases h

theorem rowsOf_getMultipleRows {ptr : Mem} {chunkSize : UInt64} {rows : List (List Cell)}
    {chunk : Chunk}
    (h : conn.getMultipleRows (newChunk ptr chunkSize 0 partitionId) schema resultTable k =
      .ok (rows, chunk, conn')) :
    RowsOf schema partitionId (conn.response.fetches true) rows chunk := by
  unfold getMultipleRows at h
  split at h
  · cases h
  · rename_i b conn₁ hprepare
    split at h
    · rename_i row hrow
      obtain ⟨-, -, hrest⟩ := prepare_fetches hprepare
      split at h
      · cases h
      · rename_i writer conn₂ hloop
        simp only [Except.ok.injEq, Prod.mk.injEq] at h
        obtain ⟨rfl, rfl, rfl⟩ := h
        obtain ⟨-, hfetched, hwritten⟩ := nextChunkLoop_spec hloop
        constructor
        · rw [rest_of_row hrow] at hloop
          exact nextChunkLoop_ne_nil hrow rfl hloop
        · exact ⟨_, by rw [← hrest, hfetched]⟩
        · exact ⟨ptr, chunkSize, writer, hwritten, rfl⟩
    · cases h

end S2Connection

end SasLibclient
