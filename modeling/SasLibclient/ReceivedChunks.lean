import SasLibclient.ApiCalls
import SasLibclient.ParallelRead
import SasLibclient.Queue.Provenance

/-!
# The headers of received chunks

A chunk that a reader or a request for rows has filled describes its contents:
`consumed_size` is the length of its rows, `variable_offset` that of their
payloads. The caller gets all of the header but `variable_offset`, which
`MoveChunk` does not copy; so the caller's chunk describes the contents exactly
when it had that value before (`received_describes_iff`).
-/

namespace SasLibclient

open Monitors QueueItem Bytes Loops

/-! ## Filled chunks -/

/-- The chunk was filled with rows that suit the schema. -/
structure Filled (schema : RowSchema) (rows : List (List Cell)) (chunk : Chunk) : Prop where
  fits : ∀ row ∈ rows, RowFits schema.columnInfo row
  written : ∃ ptr size id partition w,
    writeRows rows (SuperChunkWriter.reset (newChunk ptr size id partition) schema) = some w ∧
      chunk = { w.currentChunk.chunk with rowCount := UInt64.ofNat rows.length }

/-- The header of `received` is the one of `filled`, whose rows are `rows`. -/
structure Describes (columns : List Column) (rows : List (List Cell)) (filled received : Chunk) :
    Prop where
  rowCount : received.rowCount = filled.rowCount
  id : received.id = filled.id
  partitionId : received.partitionId = filled.partitionId
  size : received.size = filled.size
  consumedSize : received.consumedSize = filled.consumedSize
  variableOffset : received.variableOffset = filled.variableOffset
  consumed : received.consumedSize.toNat =
    received.rowCount.toNat * rowWidth columns + received.variableOffset.toNat
  fits : received.consumedSize.toNat ≤ received.size.toNat
  payloads : received.variableOffset.toNat = rowsWritten columns rows

theorem ofNat_mul_toNat {n width : Nat} (h : n * width < 2 ^ 64) :
    (UInt64.ofNat n).toNat * width = n * width := by
  rw [UInt64.toNat_ofNat']
  cases width with
  | zero => rw [Nat.mul_zero, Nat.mul_zero]
  | succ width =>
    have hn : n ≤ n * (width + 1) := Nat.le_mul_of_pos_right n (Nat.succ_pos width)
    rw [Nat.mod_eq_of_lt (by omega)]

/-- **A filled chunk** describes its contents. -/
theorem Filled.describes {schema : RowSchema} {rows : List (List Cell)} {chunk : Chunk}
    (h : Filled schema rows chunk) : Describes schema.columnInfo rows chunk chunk := by
  obtain ⟨ptr, size, id, partition, w, hw, rfl⟩ := h.written
  have hs : (SuperChunkWriter.reset (newChunk ptr size id partition) schema).Sound :=
    SuperChunkWriter.Sound.reset (Nat.zero_le _) schema
  have hadded := writeRows_added hs rfl h.fits hw
  have hused := hadded.sound.fits
  rw [hadded.sound.chunkSize, SuperChunk.used, hadded.offset, hadded.variableOffset] at hused
  have hlt := w.currentChunk.chunk.size.toNat_lt
  -- the offset and `variable_offset` start at 0
  have hfixed : rows.length * rowWidth schema.columnInfo +
      rowsWritten schema.columnInfo rows ≤ w.currentChunk.chunk.size.toNat := by
    have hzero : ((0 : UInt64).toNat + rows.length * rowWidth schema.columnInfo) +
        ((0 : UInt64).toNat + rowsWritten schema.columnInfo rows) ≤
        w.currentChunk.chunk.size.toNat := hused
    rw [UInt64.toNat_zero] at hzero
    omega
  have hpayloads : w.currentChunk.chunk.variableOffset.toNat =
      rowsWritten schema.columnInfo rows := by
    rw [hadded.variableOffset]
    exact Nat.zero_add _
  have hconsumed : w.currentChunk.chunk.consumedSize.toNat =
      rows.length * rowWidth schema.columnInfo + rowsWritten schema.columnInfo rows := by
    have hsum : w.currentChunk.chunk.consumedSize = UInt64.ofNat
        (rows.length * rowWidth schema.columnInfo + rowsWritten schema.columnInfo rows) := by
      rw [hadded.consumedSize]
      exact UInt64.zero_add _
    rw [hsum, UInt64.toNat_ofNat', Nat.mod_eq_of_lt (by omega)]
  refine ⟨rfl, rfl, rfl, rfl, rfl, rfl, ?_, ?_, hpayloads⟩
  · show w.currentChunk.chunk.consumedSize.toNat =
      (UInt64.ofNat rows.length).toNat * _ + w.currentChunk.chunk.variableOffset.toNat
    rw [hconsumed, hpayloads, ofNat_mul_toNat (by omega)]
  · show w.currentChunk.chunk.consumedSize.toNat ≤ w.currentChunk.chunk.size.toNat
    rw [hconsumed]
    exact hfixed

/-- What `MoveChunk` copies. -/
structure HeaderCopied (filled received : Chunk) : Prop where
  rowCount : received.rowCount = filled.rowCount
  id : received.id = filled.id
  partitionId : received.partitionId = filled.partitionId
  size : received.size = filled.size
  consumedSize : received.consumedSize = filled.consumedSize

theorem headerCopied_moveChunk (out inn : Chunk) : HeaderCopied inn (moveChunk out inn) :=
  ⟨rfl, rfl, rfl, rfl, rfl⟩

/-- **After `MoveChunk`** the caller's chunk describes the contents exactly when
`variable_offset` was right before. -/
theorem Filled.moveChunk_describes_iff {schema : RowSchema} {rows : List (List Cell)}
    {chunk : Chunk} (h : Filled schema rows chunk) (out : Chunk) :
    Describes schema.columnInfo rows chunk (moveChunk out chunk) ↔
      out.variableOffset.toNat = rowsWritten schema.columnInfo rows := by
  have hself := h.describes
  constructor
  · exact fun hmoved => hmoved.payloads
  · intro hout
    have hsame : out.variableOffset = chunk.variableOffset := by
      rw [← UInt64.toNat_inj, hout, hself.payloads]
    refine ⟨rfl, rfl, rfl, rfl, rfl, hsame, ?_, hself.fits, hout⟩
    show chunk.consumedSize.toNat = chunk.rowCount.toNat * _ + out.variableOffset.toNat
    rw [hsame]
    exact hself.consumed

/-! ## Who fills chunks -/

/-- The rows among the fetches suit the columns. -/
def FetchesFit (columns : List Column) (fetches : List Fetch) : Prop :=
  ∀ row, Fetch.row row ∈ fetches → RowFits columns row

/-- The rows of the result suit the columns, in both protocols. -/
def Response.Fits (columns : List Column) (response : Response) : Prop :=
  ∀ binary, ∀ row ∈ response.cells binary, RowFits columns row

/-- What the connection has fetched and still fetches suits the columns. -/
structure S2Connection.Fits (columns : List Column) (conn : S2Connection) : Prop where
  response : conn.response.Fits columns
  rest : FetchesFit columns conn.rest

variable {columns : List Column} {schema : RowSchema} {conn conn' : S2Connection}
  {rows : List (List Cell)}

theorem Response.Fits.fetches {response : Response} (h : response.Fits columns) (binary : Bool) :
    FetchesFit columns (response.fetches binary) := by
  intro row hrow
  exact h binary row (Response.mem_cells hrow)

namespace S2Connection

theorem rest_advance {b : Bool} (h : conn.advance = .ok (b, conn')) :
    conn'.rest = conn.pending :=
  (advance_spec h).2

/-- After `Execute` the connection has the rows of the result only. -/
theorem Fits.execute {prefetch b : Bool} (h : conn.response.Fits columns)
    (hok : conn.execute prefetch = .ok (b, conn')) (hrest : FetchesFit columns conn.rest) :
    FetchesFit columns conn'.rest := by
  unfold S2Connection.execute at hok
  split at hok
  · cases hok
  · dsimp only at hok
    split at hok
    · split at hok
      · rename_i hadvance
        obtain ⟨_, rfl⟩ := Prod.mk.inj (Except.ok.inj hok)
        rw [rest_advance hadvance]
        exact h.fetches false
      · cases hok
    · obtain ⟨_, rfl⟩ := Prod.mk.inj (Except.ok.inj hok)
      intro row hrow
      rcases List.mem_append.mp hrow with hlast | hpending
      · exact hrest row (List.mem_append_left _ hlast)
      · exact h.fetches false row hpending

/-- After `Prepare` the connection has the rows of the result only. -/
theorem Fits.prepare {prefetch b : Bool} (h : conn.response.Fits columns)
    (hok : conn.prepare true prefetch = .ok (b, conn')) : FetchesFit columns conn'.rest := by
  unfold S2Connection.prepare at hok
  split at hok
  · cases hok
  · simp only [if_true] at hok
    split at hok
    · split at hok
      · split at hok
        · rename_i hadvance
          obtain ⟨_, rfl⟩ := Prod.mk.inj (Except.ok.inj hok)
          rw [rest_advance hadvance]
          exact h.fetches true
        · cases hok
      · obtain ⟨_, rfl⟩ := Prod.mk.inj (Except.ok.inj hok)
        exact h.fetches true
    · obtain ⟨_, rfl⟩ := Prod.mk.inj (Except.ok.inj hok)
      exact h.fetches true

/-- The loop of `NextChunk` fills the chunk. -/
theorem filled_nextChunkLoop {n : Nat} {ptr : Mem} {size id : UInt64} {partition : UInt32}
    {writer : SuperChunkWriter} (hrest : FetchesFit schema.columnInfo conn.rest)
    (h : nextChunkLoop n (SuperChunkWriter.reset (newChunk ptr size id partition) schema) conn =
      .ok (rows, writer, conn')) :
    Filled schema rows { writer.currentChunk.chunk with rowCount := UInt64.ofNat rows.length } ∧
      FetchesFit schema.columnInfo conn'.rest := by
  obtain ⟨-, hrows, hwritten⟩ := nextChunkLoop_spec h
  refine ⟨⟨?_, ptr, size, id, partition, writer, hwritten, rfl⟩, ?_⟩
  · intro row hrow
    apply hrest
    rw [hrows]
    exact List.mem_append_left _ (List.mem_map_of_mem hrow)
  · intro row hrow
    apply hrest
    rw [hrows]
    exact List.mem_append_right _ hrow

theorem filled_nextChunk {ptr : Mem} {size id : UInt64} {partition : UInt32} {chunk : Chunk}
    (hrest : FetchesFit schema.columnInfo conn.rest)
    (h : conn.nextChunk (newChunk ptr size id partition) schema = .ok (rows, chunk, conn')) :
    Filled schema rows chunk ∧ FetchesFit schema.columnInfo conn'.rest := by
  unfold nextChunk at h
  split at h
  · cases h
  · rename_i hloop
    simp only [Except.ok.injEq, Prod.mk.injEq] at h
    obtain ⟨rfl, rfl, rfl⟩ := h
    exact filled_nextChunkLoop hrest hloop

/-- `GetSingleRow` fills a chunk. -/
theorem filled_getSingleRow {resultTable : String} {partitionId : UInt32} {rowId : Int}
    {malloc : UInt64 → Option Mem} {chunk : Chunk} (h : conn.response.Fits schema.columnInfo)
    (hok : conn.getSingleRow schema resultTable partitionId rowId malloc = .ok (chunk, conn')) :
    ∃ rows, Filled schema rows chunk := by
  unfold getSingleRow at hok
  split at hok
  · cases hok
  · rename_i b conn₁ hprepare
    have hfit := Fits.prepare h hprepare
    split at hok
    · rename_i row hrow
      dsimp only at hok
      split at hok
      · cases hok
      · rename_i ptr _
        split at hok
        · cases hok
        · rename_i accepted w hwrite
          obtain ⟨rfl, _⟩ := Prod.mk.inj (Except.ok.inj hok)
          have htrue : accepted = true := by
            by_contra hfalse
            rw [Bool.not_eq_true] at hfalse
            rw [hfalse] at hwrite
            exact SuperChunkWriter.writeRow_ne_false rfl hwrite
          rw [htrue] at hwrite
          have hrowFits : RowFits schema.columnInfo row := by
            apply hfit
            rw [rest_of_row hrow]
            exact List.mem_cons_self
          have hadded := writeRow_added (SuperChunkWriter.Sound.reset (Nat.zero_le _) schema) rfl
            hrowFits hwrite
          have hcount : w.currentChunk.chunk.rowCount = UInt64.ofNat [row].length := by
            rw [hadded.rowCount]
            rfl
          refine ⟨[row], ?_, ptr, rowSize schema row, 0, partitionId, w, ?_, ?_⟩
          · intro row' hrow'
            rw [List.mem_singleton.mp hrow']
            exact hrowFits
          · rw [writeRows, hwrite]
            rfl
          · rw [← hcount]
    · cases hok

/-- `GetMultipleRows` fills its chunk. -/
theorem filled_getMultipleRows {ptr : Mem} {size id : UInt64} {partition : UInt32}
    {resultTable : String} {rowIdsNum : Int} {chunk : Chunk}
    (h : conn.response.Fits schema.columnInfo)
    (hok : conn.getMultipleRows (newChunk ptr size id partition) schema resultTable rowIdsNum =
      .ok (rows, chunk, conn')) : Filled schema rows chunk := by
  unfold getMultipleRows at hok
  split at hok
  · cases hok
  · rename_i b conn₁ hprepare
    split at hok
    · split at hok
      · cases hok
      · rename_i hloop
        simp only [Except.ok.injEq, Prod.mk.injEq] at hok
        obtain ⟨rfl, rfl, rfl⟩ := hok
        exact (filled_nextChunkLoop (Fits.prepare h hprepare) hloop).1
    · cases hok

end S2Connection

namespace ResultTableReader

variable {r : ResultTableReader} {v : ReadChunk}

theorem filled_readLoop {n chunkId : Nat} (hrest : FetchesFit schema.columnInfo conn.rest)
    (hv : v ∈ (r.readLoop schema n chunkId conn).1) : ∃ rows, Filled schema rows v.chunk := by
  induction n generalizing chunkId conn with
  | zero => cases hv
  | succ n ih =>
    rw [readLoop] at hv
    split at hv
    · cases hv
    · split at hv
      · cases hv
      · split at hv
        · cases hv
        · rename_i rows chunk conn₁ hchunk
          obtain ⟨hfilled, hrest₁⟩ := S2Connection.filled_nextChunk hrest hchunk
          split at hv
          · cases hv
          · rcases List.mem_cons.mp hv with rfl | hmore
            · exact ⟨rows, hfilled⟩
            · exact ih hrest₁ hmore

theorem fits_prepareRead {r' : ResultTableReader} {prefetch : Bool}
    {actions : List (ReaderAction ReadChunk)} (hfits : r.conn.Fits columns)
    (h : r.prepareRead prefetch = .ok (r', actions)) :
    FetchesFit columns r'.conn.rest ∧ ∀ v, .push v ∉ actions := by
  unfold prepareRead at h
  split at h
  · rename_i b conn₁ hstart
    obtain ⟨rfl, rfl⟩ := Prod.mk.inj (Except.ok.inj h)
    refine ⟨?_, fun v => List.not_mem_nil⟩
    split at hstart
    · exact S2Connection.Fits.prepare hfits.response hstart
    · exact S2Connection.Fits.execute hfits.response hstart hfits.rest
  · obtain ⟨rfl, rfl⟩ := Prod.mk.inj (Except.ok.inj h)
    exact ⟨hfits.rest, by simp⟩
  · cases h

/-- **Every chunk that a reader pushes** is filled. -/
theorem filled_read (hfits : r.conn.Fits schema.columnInfo) (hschema : r.rowSchema = some schema)
    (hv : .push v ∈ r.read) : ∃ rows, Filled schema rows v.chunk := by
  unfold read at hv
  rw [hschema] at hv
  dsimp only at hv
  split at hv
  · cases hv
  · rename_i r' actions hprepare
    have hstart : FetchesFit schema.columnInfo r'.conn.rest ∧ ∀ v, .push v ∉ actions := by
      split at hprepare
      · exact fits_prepareRead hfits hprepare
      · obtain ⟨rfl, rfl⟩ := Prod.mk.inj (Except.ok.inj hprepare)
        exact ⟨hfits.rest, fun v => List.not_mem_nil⟩
    split at hv
    · simp [hstart.2 v] at hv
    · simp only [List.mem_append, hstart.2 v, false_or, List.mem_map, ReaderAction.push.injEq,
        exists_eq_right, List.mem_singleton, reduceCtorEq, or_false] at hv
      rcases hv with hchunk | herror
      · exact filled_readLoop hstart.1 hchunk
      · simp at herror

end ResultTableReader

/-! ## The calls -/

/-- The answer to the query of a request suits the columns. -/
def ApiRequest.Fits (columns : List Column) : ApiRequest → Prop
  | .getNextChunk _ => True
  | .getChunkMulti _ _ => True
  | .getChunkRow _ _ _ world => world.response.Fits columns
  | .getChunkMultipleRows _ _ _ _ world => world.response.Fits columns

/-- The rows that the server sends suit the schema of the chunk queue. -/
structure ApiQueue.Fits (Q : ApiQueue) : Prop where
  readers : ∀ p ∈ Q.partitions, (Q.reader p).conn.Fits Q.rowSchema.columnInfo

variable {Q : ApiQueue}

theorem connectConsumer_response {threadId : Nat} {world : RowWorld} {conns : Conns}
    (h : connectConsumer threadId world conns = .ok conn) : conn.response = world.response := by
  unfold connectConsumer at h
  split at h
  · obtain rfl := Except.ok.inj h
    rfl
  · split at h
    · cases h
    · obtain rfl := Except.ok.inj h
      rfl

/-- The chunk of a request for rows comes from the body that the connection
serves. -/
theorem withConsumer_chunk {threadId : Nat} {world : RowWorld} {conns : Conns}
    {body : S2Connection → Except ReadException (Chunk × S2Connection)} {chunk : Chunk}
    {err : S2ClientError} (h : (Q.withConsumer threadId world conns body).1 = .ok (some chunk, err)) :
    threadId < Q.consumers ∧
      ∃ conn conn', conn.response = world.response ∧ body conn = .ok (chunk, conn') := by
  unfold ApiQueue.withConsumer at h
  split at h
  · cases h
  · split at h
    · cases h
    · rename_i hindex
      split at h
      · cases h
      · rename_i conn hconn
        split at h
        · rename_i chunk' conn' hbody
          obtain ⟨hchunk, _⟩ := Prod.mk.inj (Except.ok.inj h)
          obtain rfl := Option.some.inj hchunk
          exact ⟨by omega, conn, conn', connectConsumer_response hconn, hbody⟩
        · cases h
        · cases h

theorem filled_serveRows {call : RowCall} {conns : Conns} {chunk : Chunk} {err : S2ClientError}
    (hfits : call.world.response.Fits Q.rowSchema.columnInfo)
    (h : (Q.serveRows call conns).1 = .ok (some chunk, err)) :
    ∃ rows, Filled Q.rowSchema rows chunk := by
  cases call with
  | getSingleRow partitionId rowId threadId world =>
    obtain ⟨_, conn, conn', hresponse, hbody⟩ := withConsumer_chunk h
    exact S2Connection.filled_getSingleRow (by rw [hresponse]; exact hfits) hbody
  | getMultipleRows chunkSize partitionId rowIdsNum threadId world =>
    obtain ⟨_, conn, conn', hresponse, hbody⟩ := withConsumer_chunk h
    split at hbody
    · cases hbody
    · split at hbody
      · rename_i hrows
        obtain ⟨rfl, rfl⟩ := Prod.mk.inj (Except.ok.inj hbody)
        exact ⟨_, S2Connection.filled_getMultipleRows (by rw [hresponse]; exact hfits) hrows⟩
      · cases hbody

/-- The chunk that the call of an answered request returned is filled. -/
def ApiAnswer.FromFilled (schema : RowSchema) (a : ApiAnswer) : Prop :=
  ∀ filled, a.res = some filled → ∃ rows, Filled schema rows filled

/-- What every thread keeps: a reader has filled chunks to push, a caller has
got filled chunks. -/
def ApiThread.Keeps (schema : RowSchema) : ApiThread → Prop
  | .reader _ todo => ∀ v, .push v ∈ todo → ∃ rows, Filled schema rows v.chunk
  | .caller requests answers _ =>
    (∀ r ∈ requests, r.1.Fits schema.columnInfo) ∧ ∀ a ∈ answers, a.FromFilled schema

/-- What the queues keep. -/
def ApiState.Keeps (schema : RowSchema) (d : ApiState) : Prop :=
  ∀ i, (d.shared.queues i).Holds fun v => ∃ rows, Filled schema rows v.chunk

section Threads

variable {requests : List (ApiRequest × Chunk)} {answers : List ApiAnswer}

theorem keeps_answer {res : Option Chunk} {err : S2ClientError}
    (h : ApiThread.Keeps schema (.caller requests answers .popping))
    (hres : ∀ filled, res = some filled → ∃ rows, Filled schema rows filled) :
    (ApiQueue.answer requests answers res err).Keeps schema := by
  cases requests with
  | nil => exact h
  | cons r requests =>
    obtain ⟨hrequests, hanswers⟩ := h
    refine ⟨fun r' hr' => hrequests r' (List.mem_cons_of_mem _ hr'), ?_⟩
    intro a ha
    rcases List.mem_append.mp ha with hold | hnew
    · exact hanswers a hold
    · rw [List.mem_singleton.mp hnew]
      exact hres

theorem keeps_afterErrors {readers : List Int} {err : S2ClientError}
    (h : ApiThread.Keeps schema (.caller requests answers .popping)) :
    (ApiQueue.afterErrors requests answers readers err).Keeps schema := by
  unfold ApiQueue.afterErrors
  split
  · exact h
  · split
    · exact h
    · exact keeps_answer h (by simp)

theorem keeps_afterCall {r : ApiResult}
    (h : ApiThread.Keeps schema (.caller requests answers .popping))
    (hvalue : ∀ v, r = .shared (.queue (.value v)) → ∃ rows, Filled schema rows v.chunk)
    (hrows : ∀ chunk err, r = .rows (.ok (some chunk, err)) → ∃ rows, Filled schema rows chunk) :
    (Q.afterCall requests answers r).Keeps schema := by
  unfold ApiQueue.afterCall
  split
  · rename_i v
    apply keeps_answer h
    intro filled hfilled
    rw [← Option.some.inj hfilled]
    exact hvalue v rfl
  · exact keeps_afterErrors h
  · exact keeps_answer h (by simp)
  · rename_i res err
    apply keeps_answer h
    intro filled hfilled
    rw [hfilled] at hrows
    exact hrows filled err rfl
  · exact ⟨by simp, h.2⟩
  · exact h

end Threads

theorem filled_of_push {l : ApiThread} {i : Nat} {v : ReadChunk} (hl : l.Keeps Q.rowSchema)
    (hcall : Q.threads.call l = some (.shared (.queue i (.push v)))) :
    ∃ rows, Filled Q.rowSchema rows v.chunk := by
  have hof := ApiQueue.call_cases hcall
  generalize hpush : ApiCall.shared (.queue i (.push v)) = call at hof
  cases hof with
  | push p w todo =>
    simp only [ApiCall.shared.injEq, SharedCall.queue.injEq, Call.push.injEq] at hpush
    rw [hpush.2]
    exact hl w List.mem_cons_self
  | request request chunk requests answers =>
    rcases Q.requestCall_cases request with ⟨_, h⟩ | ⟨_, _, _, h⟩ | ⟨_, h⟩ | ⟨_, h⟩ <;>
      simp [h] at hpush
  | setError p e todo => simp at hpush
  | deleteProducer p todo => simp at hpush
  | collect requests answers p readers err => simp at hpush
  | report requests answers err => simp at hpush

theorem fits_of_rows {l : ApiThread} {call : RowCall} (hl : l.Keeps Q.rowSchema)
    (hcall : Q.threads.call l = some (.rows call)) :
    call.world.response.Fits Q.rowSchema.columnInfo := by
  have hof := ApiQueue.call_cases hcall
  generalize hrows : ApiCall.rows call = call' at hof
  cases hof with
  | request request chunk requests answers =>
    have hfits := hl.1 _ List.mem_cons_self
    unfold ApiQueue.requestCall at hrows
    cases hkind : Q.kind <;> cases request <;> simp [hkind] at hrows
    · rw [hrows]
      exact hfits
    · rw [hrows]
      exact hfits
  | push p w todo => cases hrows
  | setError p e todo => cases hrows
  | deleteProducer p todo => cases hrows
  | collect requests answers p readers err => cases hrows
  | report requests answers err => cases hrows

/-- **What every step keeps.** -/
theorem keepsFilled (Q : ApiQueue) :
    LocalInvariant (apiMonitor Q) Q.threads (ApiState.Keeps Q.rowSchema)
      (ApiThread.Keeps Q.rowSchema) := by
  have hpush : ∀ {l : ApiThread} {call : SharedCall ReadChunk}, l.Keeps Q.rowSchema →
      Q.threads.call l = some (.shared call) →
      ∀ i v, call = .queue i (.push v) → ∃ rows, Filled Q.rowSchema rows v.chunk := by
    rintro l call hl hcall i v rfl
    exact filled_of_push hl hcall
  constructor
  · intro l i s d seg hl hd hi hseg
    rcases apiMonitor_segment hseg with ⟨call, seg', rfl, hseg', rfl⟩ | ⟨call, rfl, rfl⟩
    · exact (holds_segment hd (hpush hl hi) hseg').1
    · exact hd
  · intro l i s d seg r hl hd hi hseg hexit
    have hvalue : ∀ v, r = .shared (.queue (.value v)) →
        ∃ rows, Filled Q.rowSchema rows v.chunk := by
      rintro v rfl
      rcases apiMonitor_segment hseg with ⟨call, seg', rfl, hseg', rfl⟩ | ⟨call, rfl, rfl⟩
      · apply (holds_segment hd (hpush hl hi) hseg').2 v
        cases hexit' : seg'.exit with
        | wait cv => simp [onShared, hexit', tagApiExit] at hexit
        | ret r => simpa [onShared, hexit', tagApiExit] using hexit
      · simp [onRows] at hexit
    have hrows : ∀ chunk err, r = .rows (.ok (some chunk, err)) →
        ∃ rows, Filled Q.rowSchema rows chunk := by
      rintro chunk err rfl
      rcases apiMonitor_segment hseg with ⟨call, seg', rfl, hseg', rfl⟩ | ⟨call, rfl, rfl⟩
      · cases hexit' : seg'.exit <;> simp [onShared, hexit', tagApiExit] at hexit
      · simp only [onRows, Exit.ret.injEq, ApiResult.rows.injEq] at hexit
        exact filled_serveRows (fits_of_rows hl hi) hexit
    cases l with
    | reader p todo => exact fun v hv => hl v (List.mem_of_mem_tail hv)
    | caller requests answers state =>
      cases state with
      | popping => exact keeps_afterCall hl hvalue hrows
      | collecting readers err =>
        cases r with
        | shared r =>
          cases r with
          | error curError => exact keeps_afterErrors hl
          | unit => exact hl
          | queue r => exact hl
        | rows r => exact hl
      | reporting err => exact keeps_answer hl (by simp)

/-! ## Runs -/

/-- What an answer that returned `true` gives the caller: the header of a filled
chunk, which describes the contents exactly when the caller's chunk had their
`variable_offset` before. -/
def DescribedIff (schema : RowSchema) (a : ApiAnswer) : Prop :=
  ∃ filled rows, a.res = some filled ∧ Filled schema rows filled ∧
    HeaderCopied filled a.received.chunk ∧
    (Describes schema.columnInfo rows filled a.received.chunk ↔
      a.chunk.variableOffset.toNat = rowsWritten schema.columnInfo rows)

theorem received_returned (a : ApiAnswer) : a.received.returned = a.res.isSome := by
  unfold ApiAnswer.received
  cases a.request <;> rfl

theorem received_chunk {a : ApiAnswer} {filled : Chunk} (h : a.res = some filled) :
    a.received.chunk = moveChunk a.chunk filled := by
  unfold ApiAnswer.received
  rw [h]
  cases a.request <;> rfl

theorem ApiAnswer.FromFilled.describedIff {a : ApiAnswer} (h : a.FromFilled schema)
    (hreturned : a.received.returned = true) : DescribedIff schema a := by
  rw [received_returned] at hreturned
  obtain ⟨filled, hres⟩ := Option.isSome_iff_exists.mp hreturned
  obtain ⟨rows, hfilled⟩ := h filled hres
  refine ⟨filled, rows, hres, hfilled, ?_, ?_⟩
  · rw [received_chunk hres]
    exact headerCopied_moveChunk a.chunk filled
  · rw [received_chunk hres]
    exact hfilled.moveChunk_describes_iff a.chunk

/-- At the start nothing has been pushed. -/
theorem keeps_start {ς : Type} {requests : ς → List (ApiRequest × Chunk)}
    (hreaders : ∀ p ∈ Q.partitions, (Q.reader p).conn.Fits Q.rowSchema.columnInfo)
    (hrequests : ∀ s, ∀ r ∈ requests s, r.1.Fits Q.rowSchema.columnInfo) :
    (Q.start requests).data.Keeps Q.rowSchema ∧
      ∀ t, ((Q.start requests).thread t).Keeps Q.rowSchema := by
  constructor
  · intro i
    show ConsumerQueue.Holds _ (Q.queues.getD i (ConsumerQueue.create Q.kind Q.capacity []))
    rw [List.getD_eq_getElem?_getD]
    cases hq : Q.queues[i]? with
    | none => exact ConsumerQueue.holds_create _ _ _
    | some q =>
      obtain ⟨ids, rfl⟩ := Q.fresh q (List.mem_of_getElem? hq)
      exact ConsumerQueue.holds_create _ _ _
  · rintro (p | s)
    · intro v hv
      split at hv
      · rename_i hp
        exact ResultTableReader.filled_read (hreaders p hp) (Q.readers_rowSchema p) hv
      · cases hv
    · exact ⟨hrequests s, by simp⟩

/-- **The headers that callers receive**, in every run of the readers and any
number of callers with any requests and any chunks of their own. For callers
that mix `GetNextChunk` and `GetChunkMulti` on one queue this is about the
chunks as they were read; the code may then pop one that is deleted. -/
theorem received_describes_iff {ς : Type} [DecidableEq ς] (Q : ApiQueue)
    (requests : ς → List (ApiRequest × Chunk))
    (hreaders : ∀ p ∈ Q.partitions, (Q.reader p).conn.Fits Q.rowSchema.columnInfo)
    (hrequests : ∀ s, ∀ r ∈ requests s, r.1.Fits Q.rowSchema.columnInfo)
    {c : Config ApiState (Nat × CondVar) ApiCall ApiResult ApiThread (Int ⊕ ς)}
    (hreach : Reachable (apiMonitor Q) Q.threads (Q.start requests) c)
    {s : ς} {todo : List (ApiRequest × Chunk)} {answers : List ApiAnswer} {state : GetState}
    (hthread : c.thread (.inr s) = .caller todo answers state)
    {a : ApiAnswer} (ha : a ∈ answers) (hreturned : a.received.returned = true) :
    DescribedIff Q.rowSchema a := by
  obtain ⟨hdata, hthreads⟩ := keeps_start hreaders hrequests
  have hkeeps := (keepsFilled Q).reachable hreach hdata hthreads
  have hcaller := hkeeps.2 (.inr s)
  rw [hthread] at hcaller
  exact (hcaller.2 a ha).describedIff hreturned

/-- A result with one row, of a number and a text. -/
def textResponse : Response where
  startError := none
  fields := [⟨"id", .longLong, 20⟩, ⟨"text", .varString, 255⟩]
  rows := [[some ⟨[7, 0, 0, 0, 0, 0, 0, 0], [55]⟩, some ⟨[104, 105], [104, 105]⟩]]
  failAfter := none
  sscanf := fun _ _ => [7, 0, 0, 0, 0, 0, 0, 0]
  uninitialized := 0
  fields_lt := by decide
  noFields := by simp

theorem textResponse_fits : textResponse.Fits numberAndText.columnInfo := by
  intro binary row hrow
  have hcells : textResponse.cells binary =
      [[⟨some [7, 0, 0, 0, 0, 0, 0, 0], 8⟩, ⟨some [104, 105], 2⟩]] := by
    cases binary <;> rfl
  rw [hcells] at hrow
  rw [List.mem_singleton.mp hrow]
  refine ⟨.cons ?_ (.cons ?_ .nil), by decide⟩
  · constructor <;> simp
  · constructor <;> simp

theorem textResponse_read :
    ∃ v, (ResultTableReader.createReader textResponse (some numberAndText) 0 64
        fun _ => some fun _ => 0).read = [.push v, .deleteProducer] ∧
      v.chunk.variableOffset = 2 :=
  ⟨_, rfl, rfl⟩

theorem textResponse_run (out : Chunk) : ∃ Q c a filled,
    parallelReadGetQueue ⟨1, 0, 1⟩ "t" 64 1 1 false numberAndText (fun _ => textResponse)
      (fun _ _ => some fun _ => 0) 0 = .ok Q ∧
    Q.rowSchema = numberAndText ∧
    (∀ p ∈ Q.partitions, (Q.reader p).conn.Fits numberAndText.columnInfo) ∧
    Reachable (apiMonitor Q) Q.threads (Q.start fun _ : Unit => [(.getNextChunk 0, out)]) c ∧
    c.thread (.inr ()) = .caller [] [a] .popping ∧ a.chunk = out ∧ a.res = some filled ∧
    filled.variableOffset = 2 := by
  have hone : strided 0 1 1 = [0] := strided_zero_one 1
  have hpart : workerPartitions (1 : Nat) (0 : Nat) (1 : Nat) = .ok [0] := by
    rw [workerPartitions_ok (by decide)]
    exact congrArg Except.ok hone
  have hpick : pick (1 : Nat) (0 : Nat) (strided (0 : Nat) (1 : Nat) (1 : Nat)) = [0] := by
    show pick 1 0 (strided 0 1 1) = [0]
    rw [hone]
    exact pick_single 0
  obtain ⟨u, hqueues, hu⟩ := createQueues_spec (w := 0) (T := 1) (W := 1) (n := 1) .streaming 1
    (by decide) (by decide) (by decide)
  have huser : u.getD 0 (-1) = 0 :=
    hu 0 (by decide) 0 (by rw [hpick]; exact List.mem_singleton_self 0)
  replace hqueues : createQueues .streaming ⟨1, 0, 1⟩ 1 1 = .ok ([.simple ⟨[], 1, 1⟩], u) := by
    refine hqueues.trans ?_
    show Except.ok ([ConsumerQueue.create .streaming 1 (pick _ _ _)], u) = _
    rw [hpick]
    rfl
  obtain ⟨v, hread, hoffset⟩ := textResponse_read
  have hcreate : ApiQueue.createChunkQueue .streaming ⟨1, 0, 1⟩ "t" 1 64 1 numberAndText
      (fun _ => textResponse) (fun _ _ => some fun _ => 0) 0 = .ok _ :=
    createChunkQueue_eq hpart hqueues
  generalize hQ : ApiQueue.make .streaming ⟨1, 0, 1⟩ "t" 1 64 1 numberAndText
    (fun _ => textResponse) (fun _ _ => some fun _ => 0) 0 [0] _ u hqueues = Q at hcreate
  have hqueueOf : Q.queueOf 0 = 0 := by
    rw [← hQ]
    show (u.getD 0 (-1)).toNat = 0
    rw [huser]
    rfl
  have hpartitions : Q.partitions = [0] := by
    rw [← hQ]
    rfl
  have hreader : (Q.reader 0).read = [.push v, .deleteProducer] := by
    rw [← hQ]
    exact hread
  -- the push
  have hpush : Q.threads.call ((Q.start fun _ : Unit => [(.getNextChunk 0, out)]).thread (.inl 0)) =
      some (.shared (.queue 0 (.push v))) := by
    rw [← hqueueOf]
    show Q.threads.call (.reader 0 (if 0 ∈ Q.partitions then (Q.reader 0).read else [])) = _
    rw [hpartitions, if_pos (List.mem_singleton_self 0), hreader]
    rfl
  have hqueue : (Q.start fun _ : Unit => [(.getNextChunk 0, out)]).data.shared.queues 0 =
      .simple ⟨[], 1, 1⟩ := by
    rw [← hQ]
    rfl
  obtain ⟨c₁, hstep₁, hdata₁, hthread₁, hready₁⟩ := Step.of_ready (M := apiMonitor Q)
    (r := .shared (.queue .unit)) (fun _ => rfl) hpush (by
      simp [apiMonitor, onShared, sharedMonitor, onQueue, hqueue, ConsumerQueue.enter,
        ThreadSafeSimpleQueue.segment, ThreadSafeSimpleQueue.push, tagExit, tagApiExit])
  have hqueue₁ : c₁.data.shared.queues 0 = .simple ⟨[v], 1, 1⟩ := by
    rw [hdata₁]
    simp [apiMonitor, onShared, sharedMonitor, onQueue, hqueue, ConsumerQueue.enter,
      ThreadSafeSimpleQueue.segment, ThreadSafeSimpleQueue.push]
  have hcaller₁ : c₁.thread (.inr ()) = .caller [(.getNextChunk 0, out)] [] .popping := by
    rw [hthread₁, Function.update_of_ne (by simp)]
    rfl
  -- the call of `GetNextChunk`
  have hpop : Q.threads.call (c₁.thread (.inr ())) = some (.shared (.queue 0 .pop)) := by
    rw [hcaller₁]
    rfl
  obtain ⟨c₂, hstep₂, -, hthread₂, -⟩ := Step.of_ready (M := apiMonitor Q)
    (r := .shared (.queue (.value v))) hready₁ hpop (by
      simp [apiMonitor, onShared, sharedMonitor, onQueue, hqueue₁, ConsumerQueue.enter,
        ThreadSafeSimpleQueue.segment, ThreadSafeSimpleQueue.pop, tagExit, tagApiExit])
  refine ⟨Q, c₂, ⟨.getNextChunk 0, out, some v.chunk, .none⟩, v.chunk, hcreate, ?_, ?_,
    (Reachable.refl.next hstep₁).next hstep₂, ?_, rfl, rfl, hoffset⟩
  · rw [← hQ]
    rfl
  · intro p _
    rw [← hQ]
    exact ⟨textResponse_fits, by simp [FetchesFit, S2Connection.rest, ApiQueue.make,
      ResultTableReader.createReader, S2Connection.connect]⟩
  · rw [hthread₂, Function.update_self, hcaller₁]
    rfl

/-- A caller whose chunk is cleared gets no `variable_offset`. -/
theorem received_offset_lost : ∃ Q c a filled,
    parallelReadGetQueue ⟨1, 0, 1⟩ "t" 64 1 1 false numberAndText (fun _ => textResponse)
      (fun _ _ => some fun _ => 0) 0 = .ok Q ∧
    Reachable (apiMonitor Q) Q.threads
      (Q.start fun _ : Unit => [(.getNextChunk 0, newChunk (fun _ => 0) 0 0 0)]) c ∧
    c.thread (.inr ()) = .caller [] [a] .popping ∧ a.received.returned = true ∧
    a.res = some filled ∧ filled.variableOffset = 2 ∧ a.received.chunk.variableOffset = 0 ∧
    ∀ rows, ¬ Describes numberAndText.columnInfo rows filled a.received.chunk := by
  obtain ⟨Q, c, a, filled, hQ, -, -, hreach, hthread, hout, hres, hoffset⟩ :=
    textResponse_run (newChunk (fun _ => 0) 0 0 0)
  have hlost : a.received.chunk.variableOffset = 0 := by
    rw [received_chunk hres, hout]
    rfl
  refine ⟨Q, c, a, filled, hQ, hreach, hthread, ?_, hres, hoffset, hlost, ?_⟩
  · rw [received_returned, hres]
    rfl
  · intro rows hdescribes
    have hsame := hdescribes.variableOffset
    rw [hlost, hoffset] at hsame
    cases hsame

/-- A caller whose chunk had the `variable_offset` by chance. -/
theorem received_describes_iff_text : ∃ Q c a,
    parallelReadGetQueue ⟨1, 0, 1⟩ "t" 64 1 1 false numberAndText (fun _ => textResponse)
      (fun _ _ => some fun _ => 0) 0 = .ok Q ∧
    Reachable (apiMonitor Q) Q.threads (Q.start fun _ : Unit =>
      [(.getNextChunk 0, { newChunk (fun _ => 0) 0 0 0 with variableOffset := 2 })]) c ∧
    c.thread (.inr ()) = .caller [] [a] .popping ∧ a.chunk.variableOffset = 2 ∧
    DescribedIff numberAndText a := by
  obtain ⟨Q, c, a, filled, hQ, hschema, hreaders, hreach, hthread, hout, hres, -⟩ :=
    textResponse_run { newChunk (fun _ => 0) 0 0 0 with variableOffset := 2 }
  rw [← hschema] at hreaders
  have hiff := received_describes_iff Q _ hreaders (by simp [ApiRequest.Fits]) hreach hthread
    (List.mem_singleton_self a) (by rw [received_returned, hres]; rfl)
  rw [hschema] at hiff
  exact ⟨Q, c, a, hQ, hreach, hthread, by rw [hout], hiff⟩

end SasLibclient
