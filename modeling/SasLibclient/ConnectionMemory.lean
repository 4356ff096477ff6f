import SasLibclient.Ownership.Heap
import SasLibclient.Ownership.Programs
import SasLibclient.S2Connection

/-!
# What a connection allocates (`s2_connection.hpp`, `s2_connection.cpp`)

`S2Connection` owns the connection and the statement of the client library and
the arrays of the row last fetched. The methods are those of the source, over
the pointers that they allocate, delete and overwrite; what the client library
answers, whether `new` finds memory and what the writer does with a row come
from a `World`. A pointer that is dereferenced while it is null, or deleted
twice, is a `Fault`.
-/

namespace SasLibclient

open Ownership

/-- The address of a block, or null. -/
abbrev Pointer := Option Nat

/-- The array `m_last_fetched_row` with its cells. -/
structure RowArray where
  address : Nat
  cells : List Pointer
  deriving DecidableEq, Repr

/-- The calls that may fail, or tell something. -/
inductive LibraryCall where
  | init
  | realConnect
  | stmtInit
  | stmtPrepare
  | stmtExecute
  | query
  | useResult
  | fieldCount
  | resultMetadata
  | metadata (columns : Nat)
  | fields (columns : Nat)
  | newLengths (columns : Nat)
  | newRow (columns : Nat)
  | newBind
  | newCell
  | newColumn
  | bindResult
  | fetch
  | fetchColumn
  | isNull
  | malloc
  | newChunk
  | writeRow
  | writeSingleRow
  | localInfile
  | chunkToTSV
  deriving DecidableEq, Repr

/-- The answer to a call; a call uses the fields that it has. -/
structure Reply where
  /-- not null, not an error code, no `std::bad_alloc` -/
  ok : Bool
  count : Nat
  types : List FieldType
  /-- a fetch did not reach the end of the data -/
  hasData : Bool
  isNull : Bool
  /-- `WriteRow` returned true -/
  written : Bool
  isInfileEnabled : Bool
  error : S2ClientError
  /-- what `WriteRow` throws -/
  exception : ReadException

/-- The answers, one after the other. -/
abbrev World := Nat → Reply

/-- The fields of a connection, the heap, and what has been answered so far. -/
structure ConnectionState where
  heap : Heap
  clock : Nat
  answers : List (LibraryCall × Reply)
  conn : Pointer
  stmt : Pointer
  res : Pointer
  needStmtClose : Bool
  useBinaryProtocol : Bool
  lastFetchedRow : Option RowArray
  lastFetchedLengths : Pointer
  lastColumnsNum : Nat

abbrev Method (α : Type) := Prog ConnectionState ReadException α

/-- The constructor. -/
def ConnectionState.create : ConnectionState where
  heap := .empty
  clock := 0
  answers := []
  conn := none
  stmt := none
  res := none
  needStmtClose := true
  useBinaryProtocol := true
  lastFetchedRow := none
  lastFetchedLengths := none
  lastColumnsNum := 0

namespace ConnectionMemory

variable (W : World)

/-! ## Calls and blocks -/

def ask (call : LibraryCall) : Method Reply := fun s =>
  .ret (W s.clock) { s with clock := s.clock + 1, answers := s.answers ++ [(call, W s.clock)] }

/-- A call with an error code. -/
def check (call : LibraryCall) : Method Unit := do
  let reply ← ask W call
  if reply.ok then pure () else .throws (.s2 reply.error)

def allocate : Method Nat := fun s => .ret s.heap.next { s with heap := s.heap.alloc }

/-- `new` -/
def newBlock (call : LibraryCall) : Method Nat := do
  let reply ← ask W call
  if reply.ok then allocate else .throws .badAlloc

/-- `delete[]`, and the functions of the client library that free; null is ignored. -/
def release : Pointer → Method Unit
  | none => pure ()
  | some a => fun s =>
    if a ∈ s.heap.live then
      .ret () { s with heap := s.heap.free a }
    else
      .fault .doubleFree s

/-- The argument of a call of the client library. -/
def deref : Pointer → Method Unit
  | none => .fault .nullDereference
  | some a => fun s => if a ∈ s.heap.live then .ret () s else .fault .useAfterFree s

/-! ## The row last fetched -/

/-- `m_last_fetched_row[i] = p` -/
def setCell (i : Nat) (p : Pointer) : Method Unit :=
  .modify fun s =>
    { s with lastFetchedRow := s.lastFetchedRow.map fun row => { row with cells := row.cells.set i p } }

/-- `delete[] m_last_fetched_row[i]` -/
def deleteCell (i : Nat) : Method Unit := do
  let s ← .get
  match s.lastFetchedRow with
  | none => .fault .nullDereference
  | some row =>
    match row.cells[i]? with
    | none => .fault .outOfBounds
    | some p => release p

/-- `delete[] m_last_fetched_row[i]; m_last_fetched_row[i] = nullptr` -/
def freeCell (i : Nat) : Method Unit := do
  deleteCell i
  setCell i none

def freeLastFetched : Method Unit := do
  let s ← .get
  .each (List.range s.lastColumnsNum) freeCell
  let s ← .get
  release (s.lastFetchedRow.map (·.address))
  release s.lastFetchedLengths
  .modify fun s =>
    { s with lastFetchedRow := none, lastFetchedLengths := none, lastColumnsNum := 0 }

def cleanupStatement (needFreeResult : Bool) : Method Unit := do
  let s ← .get
  release s.stmt
  .modify fun s => { s with stmt := none }
  if needFreeResult then freeLastFetched else pure ()

/-- The error path of a fetch. -/
def orFree (ok : Bool) (e : S2ClientError) : Method Unit :=
  if ok then
    pure ()
  else do
    freeLastFetched
    .throws (.s2 e)

/-- The arrays of `n` columns, with null cells. -/
def newArrays (n : Nat) : Method Unit := do
  let lengths ← newBlock W (.newLengths n)
  .modify fun s => { s with lastFetchedLengths := some lengths }
  let row ← newBlock W (.newRow n)
  .modify fun s => { s with lastFetchedRow := some ⟨row, List.replicate n none⟩ }

/-- The loop that binds the buffers. -/
def bindCell (i : Nat) : Method Unit := do
  let cell ← newBlock W .newCell
  setCell i (some cell)

/-- `need_column_re_fetch[i]` -/
def needColumnReFetch : FieldType → Bool
  | .long | .longLong | .double => false
  | .datetime | .date | .time | .newdate | .datetime2 => false
  | _ => true

/-- The loop that fetches the fields. -/
def fetchCell (types : List FieldType) (i : Nat) : Method Unit := do
  let reply ← ask W .isNull
  if reply.isNull then
    freeCell i
  else if needColumnReFetch (types.getD i .other) then do
    deleteCell i
    let tmp ← newBlock W .newColumn
    setCell i (some tmp)
    let reply ← ask W .fetchColumn
    orFree reply.ok reply.error
  else
    pure ()

def advanceBinary : Method Bool := do
  freeLastFetched
  let s ← .get
  deref s.stmt
  let count ← ask W .fieldCount
  .modify fun s => { s with lastColumnsNum := count.count }
  let metadata ← ask W (.metadata count.count)
  orFree metadata.ok ⟨s2cErrorUnknownFailure, "Failed to get binary result set metadata"⟩
  let fields ← ask W (.fields count.count)
  orFree fields.ok ⟨s2cErrorUnknownFailure, "Failed to get binary result set fields"⟩
  newArrays W count.count
  let bind ← ask W .newBind
  if bind.ok then do
    .each (List.range count.count) (bindCell W)
    let bound ← ask W .bindResult
    orFree bound.ok bound.error
    let status ← ask W .fetch
    if status.hasData then do
      orFree status.ok status.error
      .each (List.range count.count) (fetchCell W fields.types)
      pure true
    else do
      cleanupStatement true
      pure false
  else
    .throws .badAlloc

/-- The cells that `AdvanceText` allocates. -/
def hasTextCell : FieldType → Bool
  | .datetime | .date | .time | .newdate | .datetime2 | .other => false
  | _ => true

/-- The loop that copies the fields. -/
def copyCell (types : List FieldType) (i : Nat) : Method Unit := do
  let reply ← ask W .isNull
  if reply.isNull then
    setCell i none
  else if hasTextCell (types.getD i .other) then
    bindCell W i
  else
    pure ()

def advanceText : Method Bool := do
  freeLastFetched
  let s ← .get
  deref s.res
  let count ← ask W .fieldCount
  .modify fun s => { s with lastColumnsNum := count.count }
  let fields ← ask W (.fields count.count)
  orFree fields.ok ⟨s2cErrorUnknownFailure, "Failed to get text result set fields"⟩
  newArrays W count.count
  let row ← ask W .fetch
  if row.hasData then do
    .each (List.range count.count) (copyCell W fields.types)
    pure true
  else if row.ok then do
    freeLastFetched
    pure false
  else
    .throws (.s2 row.error)

def advance : Method Bool := do
  let s ← .get
  if s.useBinaryProtocol then advanceBinary W else advanceText W

/-! ## Queries -/

/-- `m_stmt = mysql_stmt_init(m_conn)` -/
def stmtInit : Method Unit := do
  let reply ← ask W .stmtInit
  if reply.ok then do
    let stmt ← allocate
    .modify fun s => { s with stmt := some stmt }
  else do
    .modify fun s => { s with stmt := none }
    .throws (.s2 reply.error)

def prepare (execute prefetch : Bool) : Method Bool := do
  cleanupStatement true
  .modify fun s => { s with useBinaryProtocol := true }
  stmtInit W
  check W .stmtPrepare
  if execute then do
    check W .stmtExecute
    let count ← ask W .fieldCount
    if count.count ≠ 0 then
      if prefetch then do
        let _ ← advance W
        pure true
      else
        pure true
    else
      pure false
  else
    pure false

/-- `m_res = mysql_use_result(m_conn)` -/
def useResult : Method Unit := do
  let reply ← ask W .useResult
  if reply.ok then do
    let res ← allocate
    .modify fun s => { s with res := some res }
  else do
    .modify fun s => { s with res := none }
    .throws (.s2 reply.error)

def execute : Method Bool := do
  .modify fun s => { s with useBinaryProtocol := false }
  check W .query
  useResult W
  let count ← ask W .fieldCount
  if count.count ≠ 0 then do
    let _ ← advance W
    pure true
  else
    pure false

/-- The part of `GetRowSchema` that uses the statement or the result. -/
def getRowSchema : Method Unit := do
  let s ← .get
  if s.useBinaryProtocol then do
    deref s.stmt
    check W .resultMetadata
  else
    deref s.res

/-! ## Rows for the writer -/

/-- The writer reads the row, its cells and their lengths. -/
def readRow : Method Unit := do
  let s ← .get
  match s.lastFetchedRow with
  | none => .fault .nullDereference
  | some row => do
    deref (some row.address)
    .each row.cells fun p => if p.isSome then deref p else pure ()
    deref s.lastFetchedLengths

/-- `WriteRow`: whether the row fits. -/
def writeRow (call : LibraryCall) : Method Bool := do
  readRow
  let reply ← ask W call
  if reply.ok then pure reply.written else .throws reply.exception

/-- `while (HasNextRow())`; the first argument bounds the turns. -/
def writeRows : Nat → Method Unit
  | 0 => pure ()
  | n + 1 => do
    let s ← .get
    if s.lastFetchedRow.isSome then do
      let written ← writeRow W .writeRow
      if written then do
        let _ ← advance W
        writeRows n
      else
        pure ()
    else
      pure ()

/-- `Prepare` in `GetSingleRow` and `GetMultipleRows`, and the check after it. -/
def prepareRows (failure : S2ClientError) : Method Unit := do
  let result ← prepare W true true
  let s ← .get
  if !result || s.lastFetchedLengths.isNone || s.lastFetchedRow.isNone then
    .throws (.s2 failure)
  else
    pure ()

def getMultipleRows (failure : S2ClientError) (turns : Nat) : Method Unit := do
  prepareRows W failure
  writeRows W turns

/-- `NewChunk`: a chunk, and the buffer that was allocated for it. -/
def newChunk : Method (Nat × Nat) := do
  let ptr ← allocate
  let chunk ← newBlock W .newChunk
  pure (chunk, ptr)

def getSingleRow (failure : S2ClientError) : Method (Nat × Nat) := do
  prepareRows W failure
  let s ← .get
  deref s.lastFetchedLengths
  let memory ← ask W .malloc
  if memory.ok then do
    let row ← newChunk W
    let _ ← writeRow W .writeSingleRow
    cleanupStatement true
    pure row
  else
    .throws (.s2 ⟨s2cErrorMemoryAllocation, "GetSingleRow cannot allocate chunk size"⟩)

/-! ## Rows for the server -/

/-- `WriteChunk` and `WriteAvro`; only the first converts. -/
def writeChunk (convert : Bool) : Method Unit := do
  let option ← ask W .localInfile
  orFree option.ok option.error
  orFree option.isInfileEnabled
    ⟨s2cErrorBadConnection, "LOAD DATA INFILE LOCAL is disabled on the server side"⟩
  if convert then do
    check W .chunkToTSV
    check W .query
  else
    check W .query

/-! ## From the constructor to the destructor -/

def connect : Method Unit := do
  let reply ← ask W .init
  if reply.ok then do
    let conn ← allocate
    .modify fun s => { s with conn := some conn }
    check W .realConnect
    stmtInit W
  else
    .throws (.s2 ⟨s2cErrorUnknownFailure, "Failed to init a connection using MySQL C client"⟩)

def closeStatement : Method Unit := do
  let s ← .get
  if s.stmt.isSome && s.needStmtClose then cleanupStatement false else pure ()

def destructor : Method Unit := do
  freeLastFetched
  closeStatement
  let s ← .get
  release s.conn
  .modify fun s => { s with conn := none }
  let s ← .get
  if s.stmt.isSome then cleanupStatement false else pure ()

/-- How a reader begins: `PrepareRead`, and without parallel reads
`UpdateRowSchema` and `Prefetch`. -/
inductive ReaderStart where
  | parallel
  | prepared
  | text
  deriving DecidableEq, Repr

def prepareRead : ReaderStart → Method Unit
  | .parallel => do
    let _ ← prepare W true true
  | .prepared => do
    let _ ← prepare W true false
    getRowSchema W
    let _ ← advance W
  | .text => do
    let _ ← execute W
    getRowSchema W
    let _ ← advance W

/-- What readers, consumers and the client do with a connection. -/
inductive Request where
  | nextChunk (turns : Nat)
  | singleRow (failure : S2ClientError)
  | multipleRows (failure : S2ClientError) (turns : Nat)
  | clientRowSchema
  | writeChunk (convert : Bool)
  | discardStmtClose

/-- A request and its caller, who deletes the chunk of a single row (in
`MoveChunk`) and frees its buffer (with `ChunkFree`). -/
def answer : Request → Method Unit
  | .nextChunk turns => writeRows W turns
  | .singleRow failure => do
    let (chunk, ptr) ← getSingleRow W failure
    release (some chunk)
    release (some ptr)
  | .multipleRows failure turns => getMultipleRows W failure turns
  | .clientRowSchema => do
    let _ ← prepare W false false
    getRowSchema W
  | .writeChunk convert => ConnectionMemory.writeChunk W convert
  | .discardStmtClose => .modify fun s => { s with needStmtClose := false }

/-- The whole life of a connection. The callers catch what is thrown; a
connection that cannot be made is destroyed. -/
def session (start : Option ReaderStart) (requests : List Request) : Method Unit := do
  let connected ← .attempt (connect W)
  if connected then do
    let _ ← .attempt (match start with
      | none => pure ()
      | some start => prepareRead W start)
    .each requests fun request => do
      let _ ← .attempt (answer W request)
  else
    pure ()
  destructor

end ConnectionMemory

end SasLibclient
