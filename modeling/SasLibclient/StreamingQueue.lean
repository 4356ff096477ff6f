import SasLibclient.ChunkQueue

/-!
# `StreamingQueue` (`queue/streaming_queue.cpp`)

The threads of a streaming read, from the start of the readers to the end of
the destructor. `Read` looks at `m_stop_reading` before every turn of its loop;
`StopReaders` sets that flag; the destructor drains the queues of the consumers
one after the other, with the `Get` that the consumers use, deletes them, frees
the row schema and joins the readers.

The chunks of a reader and the error it ends with are those of
`ResultTableReader.readLoop`: `begin_calls` says that without the flag the
thread makes the calls of `ResultTableReader.read`.
-/

namespace SasLibclient

open Monitors

/-! ## `Read` -/

/-- Where the thread of a reader is: at the condition of the loop, in its body
before `Push`, at `Push`, at a handler, at `DeleteProducer`, at
`SetActive(false)`, at its end. A chunk is one that is pushed: `Read` frees an
empty one, and loses the one that it is filling when `NextChunk` throws. -/
inductive ReaderState (T : Type) where
  | checking (todo : List T) (error : Option S2ClientError)
  | filling (todo : List T) (error : Option S2ClientError)
  | pushing (v : T) (todo : List T) (error : Option S2ClientError)
  | storing (e : S2ClientError)
  | leaving
  | inactive
  | returning
  | ended

variable {T : Type}

/-- `DeleteProducer` has returned. -/
def ReaderState.hasLeft : ReaderState T → Bool
  | .inactive | .returning | .ended => true
  | _ => false

/-- Where `Read` may begin: at its loop, or past it after an error. -/
def ReaderState.Begins : ReaderState T → Prop
  | .checking _ _ | .storing _ | .leaving => True
  | _ => False

/-- The calls that a reader which is never stopped still makes. -/
def ReaderState.calls : ReaderState T → List (ReaderAction T)
  | .checking todo error => readerActions todo error
  | .filling todo error => readerActions todo error
  | .pushing v todo error => .push v :: readerActions todo error
  | .storing e => [.setError e, .deleteProducer]
  | .leaving => [.deleteProducer]
  | _ => []

/-- The thread of a reader that `StartReading` creates; `none` when an exception
ends the process. -/
def ResultTableReader.begin (r : ResultTableReader) : Option (ReaderState ReadChunk) :=
  match r.rowSchema with
  | none => some (.storing ⟨s2cErrorUnknownFailure, "Failed to get RowSchema from the queue"⟩)
  | some rowSchema =>
    match if r.isParallel then r.prepareRead true else .ok (r, []) with
    | .error _ => none
    | .ok (_, .setError e :: _) => some (.storing e)
    | .ok (r, _) =>
      if r.error.errorCode ≠ 0 then
        some .leaving
      else
        let (chunks, error) := r.readLoop rowSchema r.conn.rest.length 0 r.conn
        some (.checking chunks error)

namespace ResultTableReader

variable {r r' : ResultTableReader} {actions : List (ReaderAction ReadChunk)} {shouldPrefetch : Bool}

theorem prepare_error {execute : Bool} {conn : S2Connection} {e : ReadException}
    (hcodes : conn.response.ErrorCodes) (h : conn.prepare execute shouldPrefetch = .error e) :
    e.toError.errorCode ≠ 0 := by
  unfold S2Connection.prepare at h
  split at h
  · rename_i e' hstart
    obtain rfl := Except.error.inj h
    exact hcodes.start e' hstart
  · dsimp only at h
    split at h
    · split at h
      · split at h
        · split at h
          · cases h
          · rename_i hadvance
            obtain rfl := Except.error.inj h
            exact advance_error (hcodes.fetches true) hadvance
        · cases h
      · cases h
    · cases h

theorem execute_error {conn : S2Connection} {e : ReadException}
    (hcodes : conn.response.ErrorCodes) (h : conn.execute shouldPrefetch = .error e) :
    e.toError.errorCode ≠ 0 := by
  unfold S2Connection.execute at h
  split at h
  · rename_i e' hstart
    obtain rfl := Except.error.inj h
    exact hcodes.start e' hstart
  · dsimp only at h
    split at h
    · split at h
      · cases h
      · rename_i hadvance
        obtain rfl := Except.error.inj h
        exact advance_error (hcodes.fetches false) hadvance
    · cases h

/-- `PrepareRead` stores nothing, or the error that it caught. -/
theorem prepareRead_cases (hcodes : r.conn.response.ErrorCodes)
    (h : r.prepareRead shouldPrefetch = .ok (r', actions)) :
    actions = [] ∧ r'.error = r.error ∨
      ∃ e, actions = [.setError e] ∧ r'.error = e ∧ e.errorCode ≠ 0 := by
  unfold prepareRead at h
  split at h
  · obtain ⟨rfl, rfl⟩ := Prod.mk.inj (Except.ok.inj h)
    exact Or.inl ⟨rfl, rfl⟩
  · rename_i e hfail
    obtain ⟨rfl, rfl⟩ := Prod.mk.inj (Except.ok.inj h)
    refine Or.inr ⟨e, rfl, rfl, ?_⟩
    split at hfail
    · exact prepare_error hcodes hfail
    · exact execute_error hcodes hfail
  · cases h

/-- **A reader that is never stopped** makes the calls of `Read`. -/
theorem begin_calls (hcodes : r.conn.response.ErrorCodes) :
    r.read = (r.begin.map ReaderState.calls).getD [] := by
  unfold read begin
  cases r.rowSchema with
  | none => rfl
  | some rowSchema =>
    dsimp only
    cases hprepare : if r.isParallel then r.prepareRead true else .ok (r, []) with
    | error e => rfl
    | ok prepared =>
      obtain ⟨r₁, actions⟩ := prepared
      have hactions : actions = [] ∨
          ∃ e, actions = [.setError e] ∧ r₁.error = e ∧ e.errorCode ≠ 0 := by
        split at hprepare
        · rcases prepareRead_cases hcodes hprepare with ⟨hnil, -⟩ | herror
          · exact Or.inl hnil
          · exact Or.inr herror
        · exact Or.inl (Prod.mk.inj (Except.ok.inj hprepare)).2.symm
      rcases hactions with rfl | ⟨e, rfl, he, hcode⟩
      · by_cases herror : r₁.error.errorCode = 0
        · simp [herror, ReaderState.calls, readerActions]
        · simp [herror, ReaderState.calls]
      · simp [he, hcode, ReaderState.calls]

end ResultTableReader

/-! ## The calls -/

/-- The data behind the mutexes, the atomic flags of the readers, and what the
destructor has deleted. -/
structure StreamState (T : Type) where
  queue : Nat → ThreadSafeSimpleQueue T
  readerError : Int → S2ClientError
  error : S2ClientError
  stopReading : Int → Bool
  active : Int → Bool
  needStmtClose : Int → Bool
  /-- the function of the thread has returned -/
  ended : Int → Bool
  queueDeleted : Nat → Bool
  rowSchemaFreed : Bool

/-- The calls of the threads. The body of the loop of `Read` is the call
`nextChunk`, for it uses the row schema. -/
inductive StreamCall (T : Type) where
  | shared (call : SharedCall T)
  | isStopReading (p : Int)
  | nextChunk
  | setInactive (p : Int)
  | endThread (p : Int)
  | isActive (p : Int)
  | stopReading (p : Int)
  | discardStmtClose (p : Int)
  | chunkFree (v : T)
  | deleteQueue (i : Nat)
  | rowSchemaFree
  | join (p : Int)
  deriving DecidableEq, Repr

inductive StreamResult (T : Type) where
  | shared (r : SharedResult T)
  | flag (b : Bool)
  | unit
  deriving DecidableEq, Repr

/-- The condition variables of the queues, and the end of a thread. -/
inductive StreamCV where
  | queue (i : Nat) (cv : CondVar)
  | ended (p : Int)
  deriving DecidableEq, Repr

abbrev StreamSegment (T : Type) := Segment (StreamState T) StreamCV (StreamResult T)

def streamSignal (i : Nat) : Signal CondVar → Signal StreamCV
  | .one cv => .one (.queue i cv)
  | .all cv => .all (.queue i cv)

def streamExit (i : Nat) : Exit CondVar (Result T) → Exit StreamCV (StreamResult T)
  | .wait cv => .wait (.queue i cv)
  | .ret r => .ret (.shared (.queue r))

def StreamState.setQueue (i : Nat) (q : ThreadSafeSimpleQueue T) (d : StreamState T) :
    StreamState T :=
  { d with queue := Function.update d.queue i q }

def onStream (i : Nat) (seg : Segment (ThreadSafeSimpleQueue T) CondVar (Result T))
    (d : StreamState T) : StreamSegment T where
  data := d.setQueue i seg.data
  signals := seg.signals.map (streamSignal i)
  exit := streamExit i seg.exit

/-- The calls that do not wait and notify nobody. -/
def StreamState.returns (d : StreamState T) (r : StreamResult T) : StreamSegment T := ⟨d, [], .ret r⟩

/-- A call, from its entry or from its wait. -/
def streamSegment : StreamCall T → StreamState T → StreamSegment T
  | .shared (.queue i call), d => onStream i (ThreadSafeSimpleQueue.segment call (d.queue i)) d
  | .shared (.setReaderError p e), d =>
    { d with readerError := Function.update d.readerError p e }.returns (.shared .unit)
  | .shared (.getReaderError p), d => d.returns (.shared (.error (d.readerError p)))
  | .shared (.setError e), d => { d with error := e }.returns (.shared .unit)
  | .isStopReading p, d => d.returns (.flag (d.stopReading p))
  | .nextChunk, d => d.returns .unit
  | .setInactive p, d => { d with active := Function.update d.active p false }.returns .unit
  | .endThread p, d =>
    ⟨{ d with ended := Function.update d.ended p true }, [.all (.ended p)], .ret .unit⟩
  | .isActive p, d => d.returns (.flag (d.active p))
  | .stopReading p, d =>
    { d with stopReading := Function.update d.stopReading p true }.returns .unit
  | .discardStmtClose p, d =>
    { d with needStmtClose := Function.update d.needStmtClose p false }.returns .unit
  | .chunkFree _, d => d.returns .unit
  | .deleteQueue i, d =>
    { d with queueDeleted := Function.update d.queueDeleted i true }.returns .unit
  | .rowSchemaFree, d => { d with rowSchemaFreed := true }.returns .unit
  | .join p, d => if d.ended p then d.returns .unit else ⟨d, [], .wait (.ended p)⟩

def streamMonitor : Monitor (StreamState T) StreamCV (StreamCall T) (StreamResult T) where
  enter := streamSegment
  resume := streamSegment

theorem streamMonitor_segment {s : Status StreamCV} {i : StreamCall T} {d : StreamState T}
    {seg : StreamSegment T} (h : streamMonitor.segment s i d = some seg) : seg = streamSegment i d := by
  rcases Monitor.segment_eq_some h with e | e <;> exact e

/-! ## `Get` -/

def GetState.call (consumerId : Nat) : GetState → Option (SharedCall T)
  | .popping => some (.queue consumerId .pop)
  | .collecting [] _ => none
  | .collecting (p :: _) _ => some (.getReaderError p)
  | .reporting err => some (.setError err)

/-- `Get` goes on, or returns a chunk (`none` is a null pointer) and an error. -/
inductive GetNext (T : Type) where
  | goOn (state : GetState)
  | returns (chunk : Option T) (err : S2ClientError)

/-- `Get` in and after the loop over the readers. -/
def getLoop : List Int → S2ClientError → GetNext T
  | p :: ps, err => .goOn (.collecting (p :: ps) err)
  | [], err => if err.errorCode ≠ 0 then .goOn (.reporting (finalError err)) else .returns none err

def GetState.next (readers : List Int) : GetState → SharedResult T → GetNext T
  | .popping, .queue (.value v) => .returns (some v) .none
  | .popping, .queue (.outOfRange _) => getLoop readers .none
  | .collecting rs err, .error curError => getLoop rs.tail (collectError err curError)
  | .reporting err, _ => .returns none err
  | state, _ => .goOn state

/-- The `Get` of the consumers in `chunkQueueThreads` takes the same steps. -/
theorem chunkQueueThreads_get (partitions : List Int) (queueOf : Int → Nat) (consumerId : Nat)
    (results : List (Option T × S2ClientError)) (state : GetState) (r : SharedResult T) :
    (chunkQueueThreads partitions queueOf).call (.consumer consumerId results state) =
        state.call consumerId ∧
      (chunkQueueThreads partitions queueOf).after (.consumer consumerId results state) r =
        match state.next partitions r with
        | .goOn state => .consumer consumerId results state
        | .returns chunk err => .consumer consumerId (results ++ [(chunk, err)]) .popping := by
  have hloop : ∀ (rs : List Int) (err : S2ClientError),
      afterLoop (T := T) consumerId results rs err =
        match getLoop rs err with
        | .goOn state => .consumer consumerId results state
        | .returns chunk err => .consumer consumerId (results ++ [(chunk, err)]) .popping := by
    intro rs err
    cases rs with
    | nil =>
      simp only [afterLoop, getLoop]
      split <;> rfl
    | cons p ps => rfl
  cases state with
  | popping =>
    refine ⟨rfl, ?_⟩
    cases r with
    | unit | error e => rfl
    | queue r =>
      cases r with
      | outOfRange what => exact hloop partitions .none
      | unit | value v | abort what => rfl
  | collecting rs err =>
    refine ⟨by cases rs <;> rfl, ?_⟩
    cases r with
    | error e => exact hloop rs.tail _
    | unit | queue r => rfl
  | reporting err => exact ⟨rfl, rfl⟩

/-! ## The threads -/

/-- Where the destructor is: in the first loop of `StopReaders` at `IsActive` or
at `StopReading`, in its second loop, in `Get`, at `ChunkFree`, at the `delete`
of a queue, at `RowSchemaFree`, at the `join` of a reader. -/
inductive Stage (T : Type) where
  | asking (readers : List Int) (isReadFinished : Bool)
  | stopping (readers : List Int) (isReadFinished : Bool)
  | notifying (readers : List Int)
  | draining (consumerId : Nat) (state : GetState)
  | freeing (consumerId : Nat) (c : T)
  | deleting (consumerId : Nat)
  | freeingSchema
  | joining (readers : List Int)
  | done

/-- The local state of a thread; an absent thread makes no calls. -/
inductive StreamThread (T : Type) where
  | reader (p : Int) (state : ReaderState T)
  | consumer (consumerId : Nat) (state : GetState)
  | destructor (stage : Stage T)
  | absent

/-- The readers of a streaming queue with `consumers` queues. -/
structure StreamSetup (T : Type) where
  partitions : List Int
  nodup : partitions.Nodup
  consumers : Nat
  queueOf : Int → Nat
  queueOf_lt : ∀ p ∈ partitions, queueOf p < consumers
  begin : Int → ReaderState T
  begins : ∀ p ∈ partitions, (begin p).Begins

/-- The partitions of a consumer. -/
def StreamSetup.ids (S : StreamSetup T) (i : Nat) : List Int :=
  S.partitions.filter fun p => decide (S.queueOf p = i)

def ReaderState.call (S : StreamSetup T) (p : Int) : ReaderState T → Option (StreamCall T)
  | .checking _ _ => some (.isStopReading p)
  | .filling _ _ => some .nextChunk
  | .pushing v _ _ => some (.shared (.queue (S.queueOf p) (.push v)))
  | .storing e => some (.shared (.setReaderError p e))
  | .leaving => some (.shared (.queue (S.queueOf p) (.deleteProducer p)))
  | .inactive => some (.setInactive p)
  | .returning => some (.endThread p)
  | .ended => none

def ReaderState.after : ReaderState T → StreamResult T → ReaderState T
  | .checking todo error, .flag stop => if stop then .leaving else .filling todo error
  | .checking todo error, _ => .checking todo error
  | .filling (v :: todo) error, _ => .pushing v todo error
  | .filling [] (some e), _ => .storing e
  | .filling [] none, _ => .leaving
  | .pushing _ todo error, _ => .checking todo error
  | .storing _, _ => .leaving
  | .leaving, _ => .inactive
  | .inactive, _ => .returning
  | .returning, _ => .ended
  | .ended, _ => .ended

def joinFrom : List Int → Stage T
  | p :: ps => .joining (p :: ps)
  | [] => .done

/-- The destructor in and after its loop over the queues. -/
def drainFrom (S : StreamSetup T) (consumerId : Nat) : Stage T :=
  if consumerId < S.consumers then .draining consumerId .popping else .freeingSchema

/-- The second loop of `StopReaders`. -/
def notifyFrom (S : StreamSetup T) : List Int → Stage T
  | p :: ps => .notifying (p :: ps)
  | [] => drainFrom S 0

/-- The first loop of `StopReaders`. -/
def stopFrom (S : StreamSetup T) : List Int → Bool → Stage T
  | p :: ps, isReadFinished => .asking (p :: ps) isReadFinished
  | [], isReadFinished => if !isReadFinished then notifyFrom S S.partitions else drainFrom S 0

def Stage.call : Stage T → Option (StreamCall T)
  | .asking (p :: _) _ => some (.isActive p)
  | .stopping (p :: _) _ => some (.stopReading p)
  | .notifying (p :: _) => some (.discardStmtClose p)
  | .draining consumerId state => (state.call consumerId).map .shared
  | .freeing _ c => some (.chunkFree c)
  | .deleting consumerId => some (.deleteQueue consumerId)
  | .freeingSchema => some .rowSchemaFree
  | .joining (p :: _) => some (.join p)
  | .asking [] _ | .stopping [] _ | .notifying [] | .joining [] | .done => none

def Stage.after (S : StreamSetup T) : Stage T → StreamResult T → Stage T
  | .asking readers isReadFinished, .flag active => .stopping readers (isReadFinished && !active)
  | .stopping readers isReadFinished, _ => stopFrom S readers.tail isReadFinished
  | .notifying readers, _ => notifyFrom S readers.tail
  | .draining consumerId state, .shared r =>
    match state.next S.partitions r with
    | .goOn state => .draining consumerId state
    | .returns (some c) _ => .freeing consumerId c
    | .returns none _ => .deleting consumerId
  | .freeing consumerId _, _ => .draining consumerId .popping
  | .deleting consumerId, _ => drainFrom S (consumerId + 1)
  | .freeingSchema, _ => joinFrom S.partitions
  | .joining readers, _ => joinFrom readers.tail
  | stage, _ => stage

/-- The code of all threads; a consumer calls `Get` again and again. -/
def streamThreads (S : StreamSetup T) : Program (StreamThread T) (StreamCall T) (StreamResult T) where
  call
    | .reader p state => state.call S p
    | .consumer consumerId state => (state.call consumerId).map .shared
    | .destructor stage => stage.call
    | .absent => none
  after
    | .reader p state, r => .reader p (state.after r)
    | .consumer consumerId state, .shared r =>
      match state.next S.partitions r with
      | .goOn state => .consumer consumerId state
      | .returns _ _ => .consumer consumerId .popping
    | .consumer consumerId state, _ => .consumer consumerId state
    | .destructor stage, r => .destructor (stage.after S r)
    | .absent, _ => .absent

/-- The threads: the readers, the consumers, and the one that destroys the queue. -/
inductive StreamId (ς : Type) where
  | reader (p : Int)
  | consumer (s : ς)
  | destructor
  deriving DecidableEq

abbrev StreamConfig (T ς : Type) :=
  Config (StreamState T) StreamCV (StreamCall T) (StreamResult T) (StreamThread T) (StreamId ς)

variable {ς : Type}

/-- `CreateChunkQueue` has started the readers; `consumerOf` is the argument
that a consumer passes to `Get`. -/
def streamStart (S : StreamSetup T) (capacity : Nat) (consumerOf : ς → Nat) : StreamConfig T ς where
  data :=
    { queue := fun i => ThreadSafeSimpleQueue.create capacity (S.ids i).length
      readerError := fun _ => .none
      error := .none
      stopReading := fun _ => false
      active := fun _ => true
      needStmtClose := fun _ => true
      ended := fun _ => false
      queueDeleted := fun _ => false
      rowSchemaFreed := false }
  thread
    | .reader p => if p ∈ S.partitions then .reader p (S.begin p) else .absent
    | .consumer s => .consumer (consumerOf s) .popping
    | .destructor => .absent
  status := fun _ => .ready
  history := []

/-- The destructor starts: no consumer comes back. -/
def shutdownStart (S : StreamSetup T) (c : StreamConfig T ς) : StreamConfig T ς where
  data := c.data
  thread
    | .reader p => c.thread (.reader p)
    | .consumer _ => .absent
    | .destructor => .destructor (stopFrom S S.partitions true)
  status := c.status
  history := []

/-- No consumer is inside `Get`. -/
def StreamIdle (c : StreamConfig T ς) : Prop :=
  ∀ s, c.status (.consumer s) = .ready ∧ ∃ i, c.thread (.consumer s) = .consumer i .popping

end SasLibclient
