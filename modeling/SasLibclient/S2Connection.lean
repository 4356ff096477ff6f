import SasLibclient.ResultSet

/-!
# Fetching rows into chunks (`s2_connection.cpp`)

`Prepare` and `Execute` start a query, `Advance` fetches its next row and
`NextChunk` fills a chunk. The client library is the `Response`: whether the
query starts, the result set, and the fetch that fails, if one does. A
connection is not used any more after an exception.
-/

namespace SasLibclient

/-- What the thread of a reader may have to catch. -/
inductive ReadException where
  | invalidArgument (what : String)
  | badAlloc
  | s2 (error : S2ClientError)
  deriving DecidableEq, Repr

def WriteError.toException : WriteError → ReadException
  | .invalidArgument what => .invalidArgument what
  | .s2 error => .s2 error

/-- One `mysql_fetch_row` or `mysql_stmt_fetch` with the fetches of its fields. -/
inductive Fetch where
  | row (cells : List Cell)
  | fail (e : ReadException)
  deriving DecidableEq, Repr

/-- The answer to a query, and the rest of the world that a connection depends
on. -/
structure Response where
  /-- the error of the call that fails before the first fetch -/
  startError : Option S2ClientError
  fields : List MysqlField
  rows : List (List (Option FieldData))
  /-- the number of rows before the failing fetch, and its exception -/
  failAfter : Option (Nat × ReadException)
  /-- the bytes that `sscanf` stores -/
  sscanf : ScanFormat → List UInt8 → List UInt8
  /-- the element of a new array -/
  uninitialized : UInt64
  fields_lt : fields.length < 2 ^ 32
  noFields : fields = [] → rows = []

/-- The rows as the binary (`true`) and the text protocol leave them in
`m_last_fetched_row`. -/
def Response.cells (response : Response) (binary : Bool) : List (List Cell) :=
  if binary then
    response.rows.map binaryRow
  else
    response.rows.map (textRow response.sscanf response.uninitialized response.fields)

/-- What the fetches return, one after the other; then there is no more data. -/
def Response.fetches (response : Response) (binary : Bool) : List Fetch :=
  match response.failAfter with
  | none => (response.cells binary).map .row
  | some (n, e) => ((response.cells binary).take n).map .row ++ [.fail e]

theorem Response.mem_cells {response : Response} {binary : Bool} {row : List Cell}
    (h : .row row ∈ response.fetches binary) : row ∈ response.cells binary := by
  unfold Response.fetches at h
  cases hfail : response.failAfter with
  | none => simpa [hfail] using h
  | some fail =>
    simp only [hfail, List.mem_append, List.mem_map, Fetch.row.injEq, exists_eq_right,
      List.mem_singleton, reduceCtorEq, or_false] at h
    exact List.mem_of_mem_take h

structure S2Connection where
  response : Response
  useBinaryProtocol : Bool
  lastFetchedRow : Option (List Cell)
  /-- the fetches still to come -/
  pending : List Fetch

namespace S2Connection

/-- `Connect` -/
def connect (response : Response) : S2Connection where
  response := response
  useBinaryProtocol := true
  lastFetchedRow := none
  pending := []

/-- `Advance`: whether there was a row. -/
def advance (conn : S2Connection) : Except ReadException (Bool × S2Connection) :=
  match conn.pending with
  | [] => .ok (false, { conn with lastFetchedRow := none })
  | .row cells :: rest => .ok (true, { conn with lastFetchedRow := some cells, pending := rest })
  | .fail e :: _ => .error e

/-- `Execute`; its parameter `prefetch` is not used. -/
def execute (_prefetch : Bool) (conn : S2Connection) : Except ReadException (Bool × S2Connection) :=
  match conn.response.startError with
  | some e => .error (.s2 e)
  | none =>
    let conn :=
      { conn with useBinaryProtocol := false, pending := conn.response.fetches false }
    if conn.response.fields.length ≠ 0 then
      match conn.advance with
      | .ok (_, conn) => .ok (true, conn)
      | .error e => .error e
    else
      .ok (false, conn)

/-- `Prepare` -/
def prepare (execute prefetch : Bool) (conn : S2Connection) :
    Except ReadException (Bool × S2Connection) :=
  match conn.response.startError with
  | some e => .error (.s2 e)
  | none =>
    let conn := { conn with useBinaryProtocol := true, lastFetchedRow := none }
    if execute then
      let conn := { conn with pending := conn.response.fetches true }
      if conn.response.fields.length ≠ 0 then
        if prefetch then
          match conn.advance with
          | .ok (_, conn) => .ok (true, conn)
          | .error e => .error e
        else
          .ok (true, conn)
      else
        .ok (false, conn)
    else
      .ok (false, conn)

def hasNextRow (conn : S2Connection) : Bool := conn.lastFetchedRow.isSome

/-- The row last fetched and the fetches still to come. -/
def rest (conn : S2Connection) : List Fetch :=
  (conn.lastFetchedRow.toList.map .row) ++ conn.pending

/-- The loop of `NextChunk`, with the rows it writes; their number is
`row_count`. The first argument bounds the turns. -/
def nextChunkLoop : Nat → SuperChunkWriter → S2Connection →
    Except ReadException (List (List Cell) × SuperChunkWriter × S2Connection)
  | 0, writer, conn => .ok ([], writer, conn)
  | n + 1, writer, conn =>
    match conn.lastFetchedRow with
    | none => .ok ([], writer, conn)
    | some row =>
      match writer.writeRow row with
      | .error e => .error e.toException
      | .ok (false, writer) => .ok ([], writer, conn)
      | .ok (true, writer) =>
        match conn.advance with
        | .error e => .error e
        | .ok (_, conn) =>
          match nextChunkLoop n writer conn with
          | .error e => .error e
          | .ok (rows, writer, conn) => .ok (row :: rows, writer, conn)

/-- `NextChunk`: the rows it wrote, the chunk, and the connection after it. -/
def nextChunk (chunk : Chunk) (rowSchema : RowSchema) (conn : S2Connection) :
    Except ReadException (List (List Cell) × Chunk × S2Connection) :=
  match nextChunkLoop conn.rest.length (SuperChunkWriter.reset chunk rowSchema) conn with
  | .error e => .error e
  | .ok (rows, writer, conn) =>
    .ok (rows, { writer.currentChunk.chunk with rowCount := UInt64.ofNat rows.length }, conn)

/-! ## The rows that are left -/

/-- The state between two fetches: without a row there is nothing to fetch. -/
def Ready (conn : S2Connection) : Prop := conn.lastFetchedRow = none → conn.pending = []

variable {conn conn' : S2Connection} {row : List Cell} {rows : List (List Cell)}
  {writer writer' : SuperChunkWriter} {n : Nat} {b : Bool}

theorem rest_of_row (h : conn.lastFetchedRow = some row) :
    conn.rest = .row row :: conn.pending := by
  simp [rest, h]

theorem Ready.rest_eq_nil (h : conn.Ready) (hrow : conn.lastFetchedRow = none) :
    conn.rest = [] := by
  simp [rest, hrow, h hrow]

theorem advance_spec (h : conn.advance = .ok (b, conn')) :
    conn'.Ready ∧ conn'.rest = conn.pending := by
  unfold advance at h
  split at h
  · rename_i hnil
    obtain ⟨_, rfl⟩ := Prod.mk.inj (Except.ok.inj h)
    exact ⟨fun _ => hnil, by simp [rest]⟩
  · rename_i hcons
    obtain ⟨_, rfl⟩ := Prod.mk.inj (Except.ok.inj h)
    refine ⟨?_, by simp [rest, hcons]⟩
    intro hnone
    cases hnone
  · cases h

theorem advance_fail {e : ReadException} (h : conn.advance = .error e) :
    ∃ more, conn.pending = .fail e :: more := by
  unfold advance at h
  split at h
  · cases h
  · cases h
  · rename_i e' more hpending
    obtain rfl := Except.error.inj h
    exact ⟨more, hpending⟩

/-- **The loop of `NextChunk`** writes the rows it takes, in order. -/
theorem nextChunkLoop_spec (h : nextChunkLoop n writer conn = .ok (rows, writer', conn')) :
    (conn.Ready → conn'.Ready) ∧ conn.rest = rows.map .row ++ conn'.rest ∧
      writeRows rows writer = some writer' := by
  induction n generalizing rows writer conn with
  | zero =>
    simp only [nextChunkLoop, Except.ok.injEq, Prod.mk.injEq] at h
    obtain ⟨rfl, rfl, rfl⟩ := h
    exact ⟨id, rfl, rfl⟩
  | succ n ih =>
    rw [nextChunkLoop] at h
    cases hrow : conn.lastFetchedRow with
    | none =>
      simp only [hrow, Except.ok.injEq, Prod.mk.injEq] at h
      obtain ⟨rfl, rfl, rfl⟩ := h
      exact ⟨id, rfl, rfl⟩
    | some row =>
      simp only [hrow] at h
      split at h
      · cases h
      · -- the row does not fit any more
        rename_i w hwrite
        simp only [Except.ok.injEq, Prod.mk.injEq] at h
        obtain ⟨rfl, rfl, rfl⟩ := h
        have hsame := SuperChunkWriter.writeRow_false hwrite
        exact ⟨id, rfl, by rw [hsame]; rfl⟩
      · rename_i w hwrite
        split at h
        · cases h
        · rename_i b conn₁ hadvance
          obtain ⟨hready₁, hrest⟩ := advance_spec hadvance
          split at h
          · cases h
          · rename_i rows₁ w₁ conn₂ hloop
            simp only [Except.ok.injEq, Prod.mk.injEq] at h
            obtain ⟨rfl, rfl, rfl⟩ := h
            obtain ⟨hready₂, hrest₂, hwritten⟩ := ih hloop
            refine ⟨fun _ => hready₂ hready₁, ?_, ?_⟩
            · rw [rest_of_row hrow, ← hrest, hrest₂]
              simp
            · simp [writeRows, hwrite, hwritten]

theorem nextChunkLoop_ne_nil (hrow : conn.lastFetchedRow = some row)
    (hempty : writer.currentChunk.chunk.rowCount = 0)
    (h : nextChunkLoop (n + 1) writer conn = .ok (rows, writer', conn')) : rows ≠ [] := by
  rintro rfl
  simp only [nextChunkLoop, hrow] at h
  split at h
  · cases h
  · rename_i hwrite
    exact SuperChunkWriter.writeRow_ne_false hempty hwrite
  · split at h
    · cases h
    · split at h
      · cases h
      · simp at h

structure ChunkFilled (chunk : Chunk) (rowSchema : RowSchema) (conn : S2Connection)
    (rows : List (List Cell)) (chunk' : Chunk) (conn' : S2Connection) : Prop where
  ready : conn'.Ready
  rest : conn.rest = rows.map .row ++ conn'.rest
  nonempty : conn.hasNextRow = true → rows ≠ []
  written : ∃ writer, writeRows rows (SuperChunkWriter.reset chunk rowSchema) = some writer ∧
    chunk' = { writer.currentChunk.chunk with rowCount := UInt64.ofNat rows.length }

theorem nextChunk_spec {chunk chunk' : Chunk} {rowSchema : RowSchema} (hready : conn.Ready)
    (hempty : chunk.rowCount = 0)
    (h : nextChunk chunk rowSchema conn = .ok (rows, chunk', conn')) :
    ChunkFilled chunk rowSchema conn rows chunk' conn' := by
  unfold nextChunk at h
  split at h
  · cases h
  · rename_i rows₁ writer conn₁ hloop
    simp only [Except.ok.injEq, Prod.mk.injEq] at h
    obtain ⟨rfl, rfl, rfl⟩ := h
    obtain ⟨hready₁, hrest, hwritten⟩ := nextChunkLoop_spec hloop
    constructor
    · exact hready₁ hready
    · exact hrest
    · intro hnext
      obtain ⟨row, hrow⟩ := Option.isSome_iff_exists.mp hnext
      rw [rest_of_row hrow] at hloop
      exact nextChunkLoop_ne_nil hrow hempty hloop
    · exact ⟨writer, hwritten, rfl⟩

end S2Connection

end SasLibclient
