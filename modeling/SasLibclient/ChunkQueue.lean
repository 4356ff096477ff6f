import SasLibclient.Queue.ConsumerQueue
import SasLibclient.ResultTableReader

/-!
# `ChunkQueue` (`queue/chunk_queue.hpp`)

The readers of a chunk queue and the consumers that call `Get` share the queues
of the consumers, the `m_error` of every reader and the `m_error` of the chunk
queue. Each has its own mutex; the model interleaves their critical sections,
so one monitor with all of the data stands for them. `Get` calls `Pop`; when it
throws, `Get` asks all readers for their errors, one after the other.
-/

namespace SasLibclient

open Monitors QueueItem

/-- The data behind the mutexes. -/
structure SharedState (T : Type) where
  queues : Nat → ConsumerQueue T
  readerError : Int → S2ClientError
  error : S2ClientError

/-- The calls that lock a mutex. -/
inductive SharedCall (T : Type) where
  | queue (i : Nat) (call : Call T)
  | setReaderError (p : Int) (e : S2ClientError)
  | getReaderError (p : Int)
  | setError (e : S2ClientError)
  deriving DecidableEq, Repr

inductive SharedResult (T : Type) where
  | unit
  | queue (r : Result T)
  | error (e : S2ClientError)
  deriving DecidableEq, Repr

abbrev SharedSegment (T : Type) := Segment (SharedState T) (Nat × CondVar) (SharedResult T)

def tagSignal (i : Nat) : Signal CondVar → Signal (Nat × CondVar)
  | .one cv => .one (i, cv)
  | .all cv => .all (i, cv)

def tagExit {T : Type} (i : Nat) : Exit CondVar (Result T) → Exit (Nat × CondVar) (SharedResult T)
  | .wait cv => .wait (i, cv)
  | .ret r => .ret (.queue r)

variable {T : Type}

def onQueue (i : Nat) (method : ConsumerQueue T → Segment (ConsumerQueue T) CondVar (Result T))
    (d : SharedState T) : SharedSegment T where
  data := { d with queues := Function.update d.queues i (method (d.queues i)).data }
  signals := (method (d.queues i)).signals.map (tagSignal i)
  exit := tagExit i (method (d.queues i)).exit

variable {i : Nat} {d : SharedState T}
  {method : ConsumerQueue T → Segment (ConsumerQueue T) CondVar (Result T)}

theorem onQueue_wait {cv : CondVar} (hexit : (method (d.queues i)).exit = .wait cv)
    (hdata : (method (d.queues i)).data = d.queues i) :
    (onQueue i method d).data = d ∧ (onQueue i method d).exit = .wait (i, cv) := by
  simp [onQueue, hexit, hdata, tagExit]

theorem onQueue_ret {r : Result T} (hexit : (method (d.queues i)).exit = .ret r) :
    (onQueue i method d).exit = .ret (.queue r) := by
  simp [onQueue, hexit, tagExit]

variable [QueueItem T]

/-- The monitor of all mutexes. -/
def sharedMonitor : Monitor (SharedState T) (Nat × CondVar) (SharedCall T) (SharedResult T) where
  enter
    | .queue i call, d => onQueue i (ConsumerQueue.enter call) d
    | .setReaderError p e, d =>
      ⟨{ d with readerError := Function.update d.readerError p e }, [], .ret .unit⟩
    | .getReaderError p, d => ⟨d, [], .ret (.error (d.readerError p))⟩
    | .setError e, d => ⟨{ d with error := e }, [], .ret .unit⟩
  resume
    | .queue i call, d => onQueue i (ConsumerQueue.resume call) d
    | .setReaderError p e, d =>
      ⟨{ d with readerError := Function.update d.readerError p e }, [], .ret .unit⟩
    | .getReaderError p, d => ⟨d, [], .ret (.error (d.readerError p))⟩
    | .setError e, d => ⟨{ d with error := e }, [], .ret .unit⟩

/-! ## `Get` -/

/-- Where a call of `Get` is: before `Pop`, at the readers not yet asked, or at
`SetError`. -/
inductive GetState where
  | popping
  | collecting (readers : List Int) (err : S2ClientError)
  | reporting (err : S2ClientError)
  deriving DecidableEq, Repr

/-- One turn of the loop over the readers. -/
def collectError (err curError : S2ClientError) : S2ClientError :=
  if curError.errorCode ≠ 0 then
    ⟨s2cErrorReaderFailed, err.errorMessage ++ (" - " ++ curError.errorMessage ++ "\n")⟩
  else
    err

/-- The text that `Get` reports. -/
def finalError (err : S2ClientError) : S2ClientError :=
  { err with errorMessage := "Some readers failed:\n" ++ err.errorMessage }

/-- The local state of a thread: the calls a reader still makes, or the calls of
`Get` that a consumer has finished and the one it is in. -/
inductive ReadThread (T : Type) where
  | reader (p : Int) (todo : List (ReaderAction T))
  | consumer (consumerId : Nat) (results : List (Option T × S2ClientError)) (state : GetState)

/-- `Get` after the loop over the readers. -/
def afterLoop (consumerId : Nat) (results : List (Option T × S2ClientError)) :
    List Int → S2ClientError → ReadThread T
  | p :: ps, err => .consumer consumerId results (.collecting (p :: ps) err)
  | [], err =>
    if err.errorCode ≠ 0 then
      .consumer consumerId results (.reporting (finalError err))
    else
      .consumer consumerId (results ++ [(none, err)]) .popping

/-- The threads of a chunk queue whose `m_readers` read `partitions`, into the
queues `queueOf`. -/
def chunkQueueThreads (partitions : List Int) (queueOf : Int → Nat) :
    Program (ReadThread T) (SharedCall T) (SharedResult T) where
  call
    | .reader _ [] => none
    | .reader p (.push v :: _) => some (.queue (queueOf p) (.push v))
    | .reader p (.setError e :: _) => some (.setReaderError p e)
    | .reader p (.deleteProducer :: _) => some (.queue (queueOf p) (.deleteProducer p))
    | .consumer consumerId _ .popping => some (.queue consumerId .pop)
    | .consumer _ _ (.collecting [] _) => none
    | .consumer _ _ (.collecting (p :: _) _) => some (.getReaderError p)
    | .consumer _ _ (.reporting err) => some (.setError err)
  after
    | .reader p todo, _ => .reader p todo.tail
    | .consumer consumerId results .popping, .queue (.value v) =>
      .consumer consumerId (results ++ [(some v, .none)]) .popping
    | .consumer consumerId results .popping, .queue (.outOfRange _) =>
      afterLoop consumerId results partitions .none
    | .consumer consumerId results .popping, _ => .consumer consumerId results .popping
    | .consumer consumerId results (.collecting readers err), .error curError =>
      afterLoop consumerId results readers.tail (collectError err curError)
    | .consumer consumerId results (.collecting readers err), _ =>
      .consumer consumerId results (.collecting readers err)
    | .consumer consumerId results (.reporting err), _ =>
      .consumer consumerId (results ++ [(none, err)]) .popping

/-! ## What the queues were used for -/

def queueEvents {τ : Type} (i : Nat) (h : List (Event τ (SharedCall T) (SharedResult T))) :
    List (Event τ (Call T) (Result T)) :=
  h.filterMap fun e =>
    match e.call, e.result with
    | .queue j call, .queue r => if j = i then some ⟨e.thread, call, r⟩ else none
    | _, _ => none

/-- The producers that called `DeleteProducer`. -/
def deleted {τ : Type} (h : List (Event τ (Call T) (Result T))) : List Int :=
  h.filterMap fun e =>
    match e.call with
    | .deleteProducer p => some p
    | _ => none

def logOf {τ : Type} (i : Nat) (h : List (Event τ (SharedCall T) (SharedResult T))) :
    QueueLog T where
  pushed := pushed (queueEvents i h)
  popped := popped (queueEvents i h)
  deleted := deleted (queueEvents i h)

end SasLibclient
