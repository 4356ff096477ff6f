import Mathlib.Algebra.Order.BigOperators.Group.List
import Mathlib.Algebra.Order.Group.Nat
import SasLibclient.StreamingReaders

/-!
# The shutdown of a streaming queue

`~StreamingQueue` against the readers that are still running, from any state in
which no consumer is inside `Get`. `ShutdownInv` follows the destructor: what it
has deleted is no longer used by any reader, what it has popped it has freed, in
the order of the queues, and a queue never holds more than its readers pushed
before they saw the flag.
-/

namespace SasLibclient

open Monitors

variable {T ς : Type}

/-! ## Where the destructor is -/

namespace Stage

/-- The queues deleted so far: those before this one. -/
def deleted (S : StreamSetup T) : Stage T → Nat
  | .asking _ _ | .stopping _ _ | .notifying _ => 0
  | .draining i _ | .freeing i _ | .deleting i => i
  | .freeingSchema | .joining _ | .done => S.consumers

/-- The queues that `Get` has found empty and without producers. -/
def drained (S : StreamSetup T) : Stage T → Nat
  | .asking _ _ | .stopping _ _ | .notifying _ => 0
  | .draining i .popping | .freeing i _ => i
  | .draining i _ | .deleting i => i + 1
  | .freeingSchema | .joining _ | .done => S.consumers

/-- The queues that the destructor may have popped from. -/
def reached (S : StreamSetup T) : Stage T → Nat
  | .asking _ _ | .stopping _ _ | .notifying _ => 0
  | .draining i _ | .freeing i _ | .deleting i => i + 1
  | .freeingSchema | .joining _ | .done => S.consumers

/-- A loop over readers is at a reader, and the queue of a turn exists. -/
def InRange (S : StreamSetup T) : Stage T → Prop
  | .asking readers _ | .stopping readers _ | .notifying readers => readers ≠ []
  | .draining i (.collecting readers _) => i < S.consumers ∧ readers ≠ []
  | .draining i _ | .freeing i _ | .deleting i => i < S.consumers
  | .joining readers => readers ≠ [] ∧ ∀ p ∈ readers, p ∈ S.partitions
  | .freeingSchema | .done => True

/-- `RowSchemaFree` has returned. -/
def schemaFreed : Stage T → Bool
  | .joining _ | .done => true
  | _ => false

/-- The chunk that was popped and is not freed yet. -/
def pending : Stage T → List T
  | .freeing _ c => [c]
  | _ => []

/-- The readers whose `m_stop_reading` may not be set yet. -/
def unstopped : Stage T → List Int
  | .asking readers _ | .stopping readers _ => readers
  | _ => []

/-- The readers that may not have been joined yet. -/
def unjoined (S : StreamSetup T) : Stage T → List Int
  | .joining readers => readers
  | .done => []
  | _ => S.partitions

end Stage

/-- The queue is empty for good: its readers have left. -/
def DrainedQueue (S : StreamSetup T) (c : StreamConfig T ς) (i : Nat) : Prop :=
  (c.data.queue i).queue = [] ∧ ∀ p ∈ S.partitions, S.queueOf p = i → readerLeft c.thread p = true

/-- The destructor at a stage. -/
structure StageInv (S : StreamSetup T) (stage : Stage T) (c : StreamConfig T ς) : Prop where
  inRange : stage.InRange S
  deleted : ∀ i, c.data.queueDeleted i = decide (i < stage.deleted S)
  schema : c.data.rowSchemaFreed = stage.schemaFreed
  drained : ∀ i, i < stage.drained S → DrainedQueue S c i
  stopped : ∀ p ∈ S.partitions, c.data.stopReading p = true ∨ p ∈ stage.unstopped
  joined : ∀ p ∈ S.partitions, c.data.ended p = true ∨ p ∈ stage.unjoined S
  frees : freedChunks c.history ++ stage.pending =
    (List.range S.consumers).flatMap fun i => (streamLog i c.history).popped
  later : ∀ i, stage.reached S ≤ i → (streamLog i c.history).popped = []

/-- The invariant of the shutdown. -/
structure ShutdownInv (S : StreamSetup T) (C : Nat) (stored : Nat → List T) (c : StreamConfig T ς) :
    Prop where
  queues : QueuesInv S C stored c
  consumers : ∀ s, c.thread (.consumer s) = .absent
  stopping : StoppingInv c
  stage : ∃ stage, c.thread .destructor = .destructor stage ∧ StageInv S stage c
  count : ∀ i, (streamLog i c.history).popped.length + (c.data.queue i).queue.length ≤
    C + ((S.ids i).map fun p => latePushes p c.history).sum

variable {S : StreamSetup T} {C : Nat} {stored : Nat → List T} {c c' : StreamConfig T ς}

/-! ## The destructor -/

theorem stage_call {stage : Stage T} {call : StreamCall T} (hcall : stage.call = some call)
    (hplain : ∀ i m, call ≠ .shared (.queue i m)) :
    (∃ p ps fin, stage = .asking (p :: ps) fin ∧ call = .isActive p) ∨
    (∃ p ps fin, stage = .stopping (p :: ps) fin ∧ call = .stopReading p) ∨
    (∃ p ps, stage = .notifying (p :: ps) ∧ call = .discardStmtClose p) ∨
    (∃ i p ps err, stage = .draining i (.collecting (p :: ps) err) ∧
      call = .shared (.getReaderError p)) ∨
    (∃ i err, stage = .draining i (.reporting err) ∧ call = .shared (.setError err)) ∨
    (∃ i v, stage = .freeing i v ∧ call = .chunkFree v) ∨
    (∃ i, stage = .deleting i ∧ call = .deleteQueue i) ∨
    (stage = .freeingSchema ∧ call = .rowSchemaFree) ∨
    (∃ p ps, stage = .joining (p :: ps) ∧ call = .join p) := by
  rcases stage with ⟨_ | _, _⟩ | ⟨_ | _, _⟩ | ⟨_ | _⟩ | ⟨i, _ | ⟨_ | _, _⟩ | _⟩ | _ | _ | _ |
    ⟨_ | _⟩ | _
  case draining.popping =>
    simp only [Stage.call, GetState.call, Option.map_some, Option.some.injEq] at hcall
    exact absurd hcall.symm (hplain _ _)
  all_goals
    simp only [Stage.call, GetState.call, Option.map_some, Option.map_none, Option.some.injEq,
      reduceCtorEq] at hcall
  all_goals simp [← hcall]

/-- A queue that gets one chunk more, with nothing popped from the queues after it. -/
theorem flatMap_range_concat {N i : Nat} {f f' : Nat → List T} {v : T} (hi : i < N)
    (hself : f' i = f i ++ [v]) (hother : ∀ j, j ≠ i → f' j = f j) (hlater : ∀ j, i < j → f j = []) :
    (List.range N).flatMap f' = (List.range N).flatMap f ++ [v] := by
  induction N with
  | zero => omega
  | succ N ih =>
    rw [List.range_succ, List.flatMap_append, List.flatMap_append]
    simp only [List.flatMap_cons, List.flatMap_nil, List.append_nil]
    by_cases e : i = N
    · subst e
      have hbefore : (List.range i).flatMap f' = (List.range i).flatMap f := by
        apply List.flatMap_congr
        intro j hj
        exact hother j (by have := List.mem_range.mp hj; omega)
      rw [hbefore, hself, List.append_assoc]
    · rw [ih (by omega), hother N (Ne.symm e), hlater N (by omega)]
      simp

/-- Nothing is deleted, popped or freed yet. -/
structure Fresh (c : StreamConfig T ς) : Prop where
  deleted : ∀ i, c.data.queueDeleted i = false
  schema : c.data.rowSchemaFreed = false
  frees : freedChunks c.history = []
  popped : ∀ i, (streamLog i c.history).popped = []

/-- The destructor enters the turn of its loop for the queue `i`, or leaves the loop. -/
theorem StageInv.drain {i : Nat} (hi : i ≤ S.consumers)
    (hdeleted : ∀ j, c.data.queueDeleted j = decide (j < i)) (hschema : c.data.rowSchemaFreed = false)
    (hdrained : ∀ j, j < i → DrainedQueue S c j)
    (hstopped : ∀ p ∈ S.partitions, c.data.stopReading p = true)
    (hfrees : freedChunks c.history =
      (List.range S.consumers).flatMap fun j => (streamLog j c.history).popped)
    (hlater : ∀ j, i ≤ j → (streamLog j c.history).popped = []) :
    StageInv S (drainFrom S i) c := by
  by_cases hlt : i < S.consumers
  · rw [drainFrom, if_pos hlt]
    exact ⟨hlt, hdeleted, hschema, hdrained, fun p hp => Or.inl (hstopped p hp),
      fun p hp => Or.inr hp, by simpa [Stage.pending] using hfrees,
      fun j hj => hlater j (Nat.le_of_succ_le hj)⟩
  · obtain rfl : i = S.consumers := by omega
    rw [drainFrom, if_neg hlt]
    exact ⟨trivial, hdeleted, hschema, hdrained, fun p hp => Or.inl (hstopped p hp),
      fun p hp => Or.inr hp, by simpa [Stage.pending] using hfrees, hlater⟩

theorem StageInv.join {ps : List Int} (hps : ∀ p ∈ ps, p ∈ S.partitions)
    (hdeleted : ∀ j, c.data.queueDeleted j = decide (j < S.consumers))
    (hschema : c.data.rowSchemaFreed = true) (hdrained : ∀ j, j < S.consumers → DrainedQueue S c j)
    (hstopped : ∀ p ∈ S.partitions, c.data.stopReading p = true)
    (hjoined : ∀ p ∈ S.partitions, c.data.ended p = true ∨ p ∈ ps)
    (hfrees : freedChunks c.history =
      (List.range S.consumers).flatMap fun j => (streamLog j c.history).popped)
    (hlater : ∀ j, S.consumers ≤ j → (streamLog j c.history).popped = []) :
    StageInv S (joinFrom ps) c := by
  have hpending : freedChunks c.history ++ [] =
      (List.range S.consumers).flatMap fun j => (streamLog j c.history).popped := by
    rw [List.append_nil]
    exact hfrees
  cases ps with
  | nil =>
    exact ⟨trivial, hdeleted, hschema, hdrained, fun p hp => Or.inl (hstopped p hp), hjoined,
      hpending, hlater⟩
  | cons p ps =>
    exact ⟨⟨List.cons_ne_nil p ps, hps⟩, hdeleted, hschema, hdrained,
      fun p hp => Or.inl (hstopped p hp), hjoined, hpending, hlater⟩

namespace Fresh

variable (h : Fresh c)

include h

theorem flatMap : (List.range S.consumers).flatMap (fun i => (streamLog i c.history).popped) = [] := by
  simp [h.popped]

theorem asking {readers : List Int} {fin : Bool} (hne : readers ≠ [])
    (hstop : ∀ p ∈ S.partitions, c.data.stopReading p = true ∨ p ∈ readers) :
    StageInv S (.asking readers fin) c :=
  ⟨hne, fun i => h.deleted i, h.schema, fun i hi => absurd hi (Nat.not_lt_zero i), hstop,
    fun p hp => Or.inr hp, by rw [h.flatMap]; simp [h.frees, Stage.pending], fun i _ => h.popped i⟩

theorem stopping {readers : List Int} {fin : Bool} (hne : readers ≠ [])
    (hstop : ∀ p ∈ S.partitions, c.data.stopReading p = true ∨ p ∈ readers) :
    StageInv S (.stopping readers fin) c :=
  ⟨hne, fun i => h.deleted i, h.schema, fun i hi => absurd hi (Nat.not_lt_zero i), hstop,
    fun p hp => Or.inr hp, by rw [h.flatMap]; simp [h.frees, Stage.pending], fun i _ => h.popped i⟩

theorem drain (hstop : ∀ p ∈ S.partitions, c.data.stopReading p = true) :
    StageInv S (drainFrom S 0) c :=
  StageInv.drain (Nat.zero_le _) (fun i => h.deleted i) h.schema
    (fun i hi => absurd hi (Nat.not_lt_zero i)) hstop (by rw [h.flatMap, h.frees])
    fun i _ => h.popped i

theorem notify {readers : List Int} (hstop : ∀ p ∈ S.partitions, c.data.stopReading p = true) :
    StageInv S (notifyFrom S readers) c := by
  cases readers with
  | nil => exact h.drain hstop
  | cons p ps =>
    rw [notifyFrom]
    exact ⟨by simp [Stage.InRange], fun i => h.deleted i, h.schema, fun i hi => absurd hi (Nat.not_lt_zero i),
      fun p hp => Or.inl (hstop p hp), fun p hp => Or.inr hp,
      by rw [h.flatMap]; simp [h.frees, Stage.pending], fun i _ => h.popped i⟩

theorem stop {readers : List Int} {fin : Bool}
    (hstop : ∀ p ∈ S.partitions, c.data.stopReading p = true ∨ p ∈ readers) :
    StageInv S (stopFrom S readers fin) c := by
  cases readers with
  | nil =>
    have hall : ∀ p ∈ S.partitions, c.data.stopReading p = true := by
      intro p hp
      exact (hstop p hp).resolve_right List.not_mem_nil
    rw [stopFrom]
    split
    · exact h.notify hall
    · exact h.drain hall
  | cons p ps => exact h.asking (by simp) hstop

end Fresh

theorem StageInv.fresh {stage : Stage T} (h : StageInv S stage c) (hreached : stage.reached S = 0)
    (hdeleted : stage.deleted S = 0) (hpending : stage.pending = [])
    (hschema : stage.schemaFreed = false) : Fresh c := by
  have hpopped : ∀ i, (streamLog i c.history).popped = [] := by
    intro i
    exact h.later i (by rw [hreached]; exact Nat.zero_le i)
  refine ⟨?_, by rw [h.schema, hschema], ?_, hpopped⟩
  · intro i
    rw [h.deleted i, hdeleted]
    rfl
  · have hfrees := h.frees
    rw [hpending, List.append_nil] at hfrees
    rw [hfrees]
    simp [hpopped]

theorem Fresh.of_quiet (h : Fresh c) (hdeleted : c'.data.queueDeleted = c.data.queueDeleted)
    (hschema : c'.data.rowSchemaFreed = c.data.rowSchemaFreed)
    (hfreed : freedChunks c'.history = freedChunks c.history)
    (hlog : ∀ i, streamLog i c'.history = streamLog i c.history) : Fresh c' where
  deleted := by rw [hdeleted]; exact h.deleted
  schema := by rw [hschema]; exact h.schema
  frees := by rw [hfreed]; exact h.frees
  popped i := by rw [hlog]; exact h.popped i

/-! ### What a step keeps -/

variable [DecidableEq ς]

/-- A call of a reader that has not left is on another queue. -/
theorem DrainedQueue.reader {i : Nat} (h : DrainedQueue S c i) {p : Int} {state : ReaderState T}
    {w : StreamThread T} {q : ThreadSafeSimpleQueue T} (hp : p ∈ S.partitions)
    (hw : c.thread (.reader p) = .reader p state) (hleft : state.hasLeft = false)
    (hd : c'.data = c.data.setQueue (S.queueOf p) q)
    (hth : c'.thread = Function.update c.thread (.reader p) w) : DrainedQueue S c' i := by
  have hne : i ≠ S.queueOf p := by
    rintro rfl
    have hgone := h.2 p hp rfl
    rw [readerLeft_eq hw, hleft] at hgone
    cases hgone
  refine ⟨by rw [hd, StreamState.setQueue_queue, Function.update_of_ne hne]; exact h.1, ?_⟩
  intro q hq hqueue
  have hother : q ≠ p := by
    rintro rfl
    exact hne hqueue.symm
  rw [hth, readerLeft_congr (Function.update_of_ne (by simpa using hother) _ _)]
  exact h.2 q hq hqueue

theorem DrainedQueue.step {i : Nat} (h : DrainedQueue S c i) {t : StreamId ς}
    (hs : StreamStep S c t c') : DrainedQueue S c' i := by
  have hempty := h.1
  have hleft := h.2
  cases hs with
  | idle hd hth hh => exact ⟨by rw [hd]; exact hempty, fun p hp hq => by rw [hth]; exact hleft p hp hq⟩
  | push v todo error hp hw hroom hd hth hh => exact h.reader hp hw rfl hd hth
  | leave hp hw hd hth hh => exact h.reader hp hw rfl hd hth
  | pop j v rest hcall hq hd hth hh =>
    have hne : i ≠ j := by
      rintro rfl
      rw [hempty] at hq
      cases hq
    refine ⟨by rw [hd, StreamState.setQueue_queue, Function.update_of_ne hne]; exact hempty, ?_⟩
    intro q hqp hqueue
    rw [hth, readerLeft_update hcall (by simp)]
    exact hleft q hqp hqueue
  | throw j hcall hq hzero hd hth hh =>
    refine ⟨by rw [hd]; exact hempty, ?_⟩
    intro q hqp hqueue
    rw [hth, readerLeft_update hcall (by simp)]
    exact hleft q hqp hqueue
  | plain call r hcall hplain hexit hd hth hh =>
    refine ⟨by rw [hd, streamSegment_queue hplain]; exact hempty, ?_⟩
    intro q hqp hqueue
    rw [hth, readerLeft_update hcall fun i p => hplain i _]
    exact hleft q hqp hqueue

omit [DecidableEq ς] in
/-- A step that the stage does not depend on. -/
theorem StageInv.of_quiet {stage : Stage T} (h : StageInv S stage c)
    (hdeleted : c'.data.queueDeleted = c.data.queueDeleted)
    (hschema : c'.data.rowSchemaFreed = c.data.rowSchemaFreed)
    (hstop : c'.data.stopReading = c.data.stopReading)
    (hended : ∀ p, c.data.ended p = true → c'.data.ended p = true)
    (hdrained : ∀ i, DrainedQueue S c i → DrainedQueue S c' i)
    (hfreed : freedChunks c'.history = freedChunks c.history)
    (hpopped : ∀ i, (streamLog i c'.history).popped = (streamLog i c.history).popped) :
    StageInv S stage c' where
  inRange := h.inRange
  deleted := by rw [hdeleted]; exact h.deleted
  schema := by rw [hschema]; exact h.schema
  drained := fun i hi => hdrained i (h.drained i hi)
  stopped := by rw [hstop]; exact h.stopped
  joined := fun p hp => (h.joined p hp).imp_left (hended p)
  frees := by rw [hfreed]; simpa only [hpopped] using h.frees
  later := fun i hi => by rw [hpopped]; exact h.later i hi

/-! ### `Get` in the destructor -/

section Get

variable {i : Nat} {readers : List Int} {err : S2ClientError}

omit [DecidableEq ς] in
theorem StageInv.deleting_of_drained (h : StageInv S (.draining i .popping) c)
    (hdrained : DrainedQueue S c i) : StageInv S (.deleting i) c := by
  refine ⟨h.inRange, h.deleted, h.schema, ?_, h.stopped, h.joined, h.frees, h.later⟩
  intro j hj
  rcases Nat.lt_succ_iff_lt_or_eq.mp hj with hlt | rfl
  · exact h.drained j hlt
  · exact hdrained

omit [DecidableEq ς] in
theorem StageInv.deleting_of_collecting (h : StageInv S (.draining i (.collecting readers err)) c) :
    StageInv S (.deleting i) c :=
  ⟨h.inRange.1, h.deleted, h.schema, h.drained, h.stopped, h.joined, h.frees, h.later⟩

omit [DecidableEq ς] in
theorem StageInv.deleting_of_reporting (h : StageInv S (.draining i (.reporting err)) c) :
    StageInv S (.deleting i) c :=
  ⟨h.inRange, h.deleted, h.schema, h.drained, h.stopped, h.joined, h.frees, h.later⟩

/-- The stage of the destructor after a part of `Get`. -/
def Stage.ofNext (i : Nat) : GetNext T → Stage T
  | .goOn state => .draining i state
  | .returns (some c) _ => .freeing i c
  | .returns none _ => .deleting i

omit [DecidableEq ς] in
/-- `Get` collects the errors of the readers, and returns a null pointer. -/
theorem StageInv.getLoop (h : StageInv S (.deleting i) c) (readers : List Int) (err : S2ClientError) :
    StageInv S (Stage.ofNext i (SasLibclient.getLoop readers err)) c := by
  cases readers with
  | nil =>
    rw [SasLibclient.getLoop]
    split
    · exact ⟨h.inRange, h.deleted, h.schema, h.drained, h.stopped, h.joined, h.frees, h.later⟩
    · exact h
  | cons p ps =>
    exact ⟨⟨h.inRange, by simp⟩, h.deleted, h.schema, h.drained, h.stopped, h.joined, h.frees, h.later⟩

omit [DecidableEq ς] in
theorem after_draining (state : GetState) (r : SharedResult T) :
    Stage.after S (.draining i state) (.shared r) = Stage.ofNext i (state.next S.partitions r) := by
  rw [Stage.after]
  cases state.next S.partitions r with
  | goOn state' => rfl
  | returns chunk err => cases chunk <;> rfl

end Get

/-! ### The steps of the destructor -/

section Destructor

variable {t : StreamId ς} {stage : Stage T}

omit [DecidableEq ς] in
/-- `Pop` returns a chunk. -/
theorem StageInv.popped {i : Nat} {v : T} {q : ThreadSafeSimpleQueue T}
    (h : StageInv S (.draining i .popping) c) (hdrained : ∀ j, DrainedQueue S c j → DrainedQueue S c' j)
    (hd : c'.data = c.data.setQueue i q)
    (hh : c'.history = c.history ++
      [⟨t, .shared (.queue i .pop), .shared (.queue (.value v))⟩]) : StageInv S (.freeing i v) c' where
  inRange := h.inRange
  deleted := by rw [hd]; exact h.deleted
  schema := by rw [hd]; exact h.schema
  drained := fun j hj => hdrained j (h.drained j hj)
  stopped := by rw [hd]; exact h.stopped
  joined := by rw [hd]; exact h.joined
  frees := by
    have hfrees := h.frees
    simp only [Stage.pending, List.append_nil] at hfrees
    have hpopped : (List.range S.consumers).flatMap (fun j => (streamLog j c'.history).popped) =
        (List.range S.consumers).flatMap (fun j => (streamLog j c.history).popped) ++ [v] := by
      refine flatMap_range_concat h.inRange ?_ ?_ fun j hj => h.later j hj
      · rw [hh, streamLog_value, if_pos rfl]
        rfl
      · intro j hj
        rw [hh, streamLog_value, if_neg (Ne.symm hj)]
    rw [hpopped, ← hfrees, hh, freedChunks_append]
    simp [freedChunks, Stage.pending]
  later := by
    intro j hj
    rw [hh, streamLog_value, if_neg]
    · exact h.later j hj
    · rintro rfl
      exact absurd hj (Nat.not_succ_le_self _)

omit [DecidableEq ς] in
theorem StageInv.plain (h : StageInv S stage c) {call : StreamCall T} {r : StreamResult T}
    (hdrained : ∀ j, DrainedQueue S c j → DrainedQueue S c' j)
    (hcall : stage.call = some call) (hplain : ∀ i m, call ≠ .shared (.queue i m))
    (hexit : (streamSegment call c.data).exit = .ret r)
    (hd : c'.data = (streamSegment call c.data).data)
    (hh : c'.history = c.history ++ [⟨t, call, r⟩]) : StageInv S (stage.after S r) c' := by
  have hlog : ∀ i, streamLog i c'.history = streamLog i c.history := by
    intro i
    rw [hh]
    exact streamLog_plain hplain
  have hfreed : (∀ v, call ≠ .chunkFree v) → freedChunks c'.history = freedChunks c.history := by
    intro hnot
    rw [hh, freedChunks_append, freedChunks_other hnot, List.append_nil]
  have hfrees : freedChunks c.history ++ stage.pending =
      (List.range S.consumers).flatMap fun i => (streamLog i c'.history).popped := by
    simpa only [hlog] using h.frees
  have hlater : ∀ i, stage.reached S ≤ i → (streamLog i c'.history).popped = [] := by
    intro i hi
    rw [hlog]
    exact h.later i hi
  rcases stage_call hcall hplain with ⟨p, ps, fin, rfl, rfl⟩ | ⟨p, ps, fin, rfl, rfl⟩ |
    ⟨p, ps, rfl, rfl⟩ | ⟨i, p, ps, err, rfl, rfl⟩ | ⟨i, err, rfl, rfl⟩ | ⟨i, v, rfl, rfl⟩ |
    ⟨i, rfl, rfl⟩ | ⟨rfl, rfl⟩ | ⟨p, ps, rfl, rfl⟩
  · -- `IsActive`
    have hfresh := h.fresh rfl rfl rfl rfl
    simp only [streamSegment, StreamState.returns, Exit.ret.injEq] at hexit hd
    subst hexit
    refine Fresh.stopping (hfresh.of_quiet (by rw [hd]) (by rw [hd]) (hfreed (by simp)) hlog)
      (by simp) ?_
    rw [hd]
    exact h.stopped
  · -- `StopReading`
    have hfresh := h.fresh rfl rfl rfl rfl
    simp only [streamSegment, StreamState.returns] at hd
    refine Fresh.stop (hfresh.of_quiet (by rw [hd]) (by rw [hd]) (hfreed (by simp)) hlog) ?_
    intro q hq
    rw [hd]
    by_cases e : q = p
    · subst e
      exact Or.inl (Function.update_self _ _ _)
    · simp only [Function.update_of_ne e, List.tail_cons]
      rcases h.stopped q hq with hstop | hmem
      · exact Or.inl hstop
      · exact Or.inr ((List.mem_cons.mp hmem).resolve_left e)
  · -- `NotifyConnUnfinishedStmt`
    have hfresh := h.fresh rfl rfl rfl rfl
    simp only [streamSegment, StreamState.returns] at hd
    refine Fresh.notify (hfresh.of_quiet (by rw [hd]) (by rw [hd]) (hfreed (by simp)) hlog) ?_
    intro q hq
    rw [hd]
    exact (h.stopped q hq).resolve_right List.not_mem_nil
  · -- `GetError`
    simp only [streamSegment, StreamState.returns, Exit.ret.injEq] at hexit hd
    subst hexit
    rw [after_draining]
    exact (h.deleting_of_collecting.getLoop ps _).of_quiet (by rw [hd]) (by rw [hd]) (by rw [hd])
      (by rw [hd]; exact fun _ hq => hq) hdrained (hfreed (by simp)) fun i => by rw [hlog]
  · -- `SetError`
    simp only [streamSegment, StreamState.returns, Exit.ret.injEq] at hexit hd
    subst hexit
    rw [after_draining]
    exact h.deleting_of_reporting.of_quiet (by rw [hd]) (by rw [hd]) (by rw [hd])
      (by rw [hd]; exact fun _ hq => hq) hdrained (hfreed (by simp)) fun i => by rw [hlog]
  · -- `ChunkFree`
    simp only [streamSegment, StreamState.returns] at hd
    refine ⟨h.inRange, by rw [hd]; exact h.deleted, by rw [hd]; exact h.schema,
      fun j hj => hdrained j (h.drained j hj), by rw [hd]; exact h.stopped,
      by rw [hd]; exact h.joined, ?_, hlater⟩
    rw [← hfrees, hh, freedChunks_append]
    simp [freedChunks, Stage.pending, Stage.after]
  · -- `delete` of the queue
    simp only [streamSegment, StreamState.returns] at hd
    refine StageInv.drain h.inRange ?_ (by rw [hd]; exact h.schema)
      (fun j hj => hdrained j (h.drained j hj)) ?_ ?_ hlater
    · intro j
      rw [hd]
      by_cases e : j = i
      · subst e
        simp
      · simp only [Function.update_of_ne e]
        rw [h.deleted j]
        simp only [Stage.deleted]
        by_cases hlt : j < i
        · simp [hlt, Nat.lt_succ_of_lt hlt]
        · simp [hlt, show ¬ j < i + 1 by omega]
    · intro p hp
      rw [hd]
      exact (h.stopped p hp).resolve_right List.not_mem_nil
    · simp only [Stage.pending, List.append_nil] at hfrees
      rw [hfreed (by simp), hfrees]
  · -- `RowSchemaFree`
    simp only [streamSegment, StreamState.returns] at hd
    simp only [Stage.pending, List.append_nil] at hfrees
    rw [← hfreed (by simp)] at hfrees
    refine StageInv.join (fun _ hp => hp) (by rw [hd]; exact h.deleted) (by rw [hd])
      (fun j hj => hdrained j (h.drained j hj)) ?_ (fun _ hp => Or.inr hp) hfrees hlater
    intro p hp
    rw [hd]
    exact (h.stopped p hp).resolve_right List.not_mem_nil
  · -- `join`
    cases hended : c.data.ended p with
    | false => simp [streamSegment, hended] at hexit
    | true =>
      simp only [streamSegment, hended, if_true, StreamState.returns] at hd
      simp only [Stage.pending, List.append_nil] at hfrees
      rw [← hfreed (by simp)] at hfrees
      refine StageInv.join (fun q hq => h.inRange.2 q (List.mem_cons_of_mem _ hq))
        (by rw [hd]; exact h.deleted) (by rw [hd]; exact h.schema)
        (fun j hj => hdrained j (h.drained j hj)) ?_ ?_ hfrees hlater
      · intro q hq
        rw [hd]
        exact (h.stopped q hq).resolve_right List.not_mem_nil
      · intro q hq
        rw [hd]
        rcases h.joined q hq with hj | hmem
        · exact Or.inl hj
        · rcases List.mem_cons.mp hmem with rfl | hrest
          · exact Or.inl hended
          · exact Or.inr hrest

end Destructor

/-! ## Every step -/

/-- The pushes that come too late, by the readers of the queue `i`. -/
def lateOf (S : StreamSetup T) (i : Nat)
    (h : List (Event (StreamId ς) (StreamCall T) (StreamResult T))) : Nat :=
  ((S.ids i).map fun p => latePushes p h).sum

omit [DecidableEq ς] in
theorem lateOf_le (i : Nat) (h : List (Event (StreamId ς) (StreamCall T) (StreamResult T)))
    (e : Event (StreamId ς) (StreamCall T) (StreamResult T)) : lateOf S i h ≤ lateOf S i (h ++ [e]) := by
  apply List.sum_le_sum
  intro p _
  rw [latePushes_append stops_not_push]
  exact Nat.le_add_right _ _

omit [DecidableEq ς] in
theorem lateOf_push {p : Int} (hp : p ∈ S.partitions) {v : T} {r : StreamResult T}
    {h : List (Event (StreamId ς) (StreamCall T) (StreamResult T))}
    (hstop : h.any (stops p) = true) :
    lateOf S (S.queueOf p) h <
      lateOf S (S.queueOf p) (h ++ [⟨.reader p, .shared (.queue (S.queueOf p) (.push v)), r⟩]) := by
  apply List.sum_lt_sum
  · intro q _
    rw [latePushes_append stops_not_push]
    exact Nat.le_add_right _ _
  · refine ⟨p, mem_ids hp, ?_⟩
    rw [latePushes_append stops_not_push, hstop]
    simp [pushesBy]

omit [DecidableEq ς] in
/-- The stage at which a reader may still not be told to stop. -/
theorem StageInv.reached_of_running {stage : Stage T} (h : StageInv S stage c) {p : Int}
    (hp : p ∈ S.partitions) (hrun : c.data.stopReading p = false) : stage.reached S = 0 := by
  rcases h.stopped p hp with hstop | hmem
  · rw [hrun] at hstop
    cases hstop
  · cases stage with
    | asking | stopping => rfl
    | _ => exact absurd hmem List.not_mem_nil

namespace ShutdownInv

variable (h : ShutdownInv S C stored c)

include h

omit [DecidableEq ς] in
theorem congr (hd : c'.data = c.data) (hth : c'.thread = c.thread) (hh : c'.history = c.history)
    (hqueues : QueuesInv S C stored c') : ShutdownInv S C stored c' where
  queues := hqueues
  consumers := by rw [hth]; exact h.consumers
  stopping := by
    have hstopping := h.stopping
    refine ⟨?_, ?_, ?_⟩
    · rw [hd, hth]; exact hstopping.ended
    · rw [hd, hh]; exact hstopping.told
    · rw [hd, hth, hh]; exact hstopping.prompt
  stage := by
    obtain ⟨stage, hw, hstage⟩ := h.stage
    refine ⟨stage, by rw [hth]; exact hw, hstage.of_quiet (by rw [hd]) (by rw [hd]) (by rw [hd])
      (by rw [hd]; exact fun _ hq => hq) ?_ (by rw [hh]) (fun i => by rw [hh])⟩
    intro i hi
    exact ⟨by rw [hd]; exact hi.1, fun p hp hq => by rw [hth]; exact hi.2 p hp hq⟩
  count := by rw [hd, hh]; exact h.count

theorem consumers_update {t : StreamId ς} {w : StreamThread T}
    (hth : c'.thread = Function.update c.thread t w) (ht : ∀ s, t ≠ .consumer s) (s : ς) :
    c'.thread (.consumer s) = .absent := by
  rw [hth, Function.update_of_ne (Ne.symm (ht s))]
  exact h.consumers s

omit [DecidableEq ς] in
/-- The count when neither a push nor a pop changes it. -/
theorem count_quiet {e : Event (StreamId ς) (StreamCall T) (StreamResult T)}
    (hqueue : ∀ i, (c'.data.queue i).queue = (c.data.queue i).queue)
    (hh : c'.history = c.history ++ [e])
    (hpopped : ∀ i, (streamLog i c'.history).popped = (streamLog i c.history).popped) (i : Nat) :
    (streamLog i c'.history).popped.length + (c'.data.queue i).queue.length ≤
      C + ((S.ids i).map fun p => latePushes p c'.history).sum := by
  rw [hqueue, hpopped, hh]
  exact le_trans (h.count i) (Nat.add_le_add_left (lateOf_le (S := S) i c.history e) C)

theorem push {p : Int} {v : T} {todo : List T} {error : Option S2ClientError}
    (hqueues : QueuesInv S C stored c') (hdrained : ∀ j, DrainedQueue S c j → DrainedQueue S c' j)
    (hp : p ∈ S.partitions) (hw : c.thread (.reader p) = .reader p (.pushing v todo error))
    (hd : c'.data = c.data.setQueue (S.queueOf p)
      { c.data.queue (S.queueOf p) with queue := (c.data.queue (S.queueOf p)).queue ++ [v] })
    (hth : c'.thread = Function.update c.thread (.reader p) (.reader p (.checking todo error)))
    (hh : c'.history = c.history ++
      [⟨.reader p, .shared (.queue (S.queueOf p) (.push v)), .shared (.queue .unit)⟩]) :
    ShutdownInv S C stored c' := by
  have hpopped : ∀ i, (streamLog i c'.history).popped = (streamLog i c.history).popped := by
    intro i
    rw [hh, streamLog_push]
    split <;> rfl
  obtain ⟨stage, hstage, hI⟩ := h.stage
  refine ⟨hqueues, h.consumers_update hth (by simp), h.stopping.push hw hd hth hh,
    ⟨stage, ?_, ?_⟩, ?_⟩
  · rw [hth, Function.update_of_ne (by simp)]
    exact hstage
  · refine hI.of_quiet (by rw [hd]; rfl) (by rw [hd]; rfl) (by rw [hd]; rfl)
      (by rw [hd]; exact fun _ hq => hq) hdrained ?_ hpopped
    rw [hh, freedChunks_append, freedChunks_other (by simp), List.append_nil]
  · intro i
    by_cases e : i = S.queueOf p
    · subst e
      cases hstop : c.data.stopReading p with
      | true =>
        have hlate := lateOf_push hp (v := v) (r := .shared (.queue .unit))
          (h := c.history) (by rw [← h.stopping.told p]; exact hstop)
        have hcount := h.count (S.queueOf p)
        rw [hpopped, hd, hh, StreamState.setQueue_queue, Function.update_self]
        simp only [List.length_append, List.length_singleton]
        simp only [lateOf] at hlate
        omega
      | false =>
        -- the destructor has not begun to pop
        have hnone := hI.later (S.queueOf p) (by rw [hI.reached_of_running hp hstop]; exact Nat.zero_le _)
        rw [hpopped, hnone, List.length_nil, Nat.zero_add]
        exact le_trans (hqueues.bounded _) (Nat.le_add_right _ _)
    · have hqueue : (c'.data.queue i).queue = (c.data.queue i).queue := by
        rw [hd, StreamState.setQueue_queue, Function.update_of_ne e]
      rw [hqueue, hpopped, hh]
      exact le_trans (h.count i) (Nat.add_le_add_left (lateOf_le (S := S) i c.history _) C)

theorem leave {p : Int} (hqueues : QueuesInv S C stored c')
    (hdrained : ∀ j, DrainedQueue S c j → DrainedQueue S c' j)
    (hw : c.thread (.reader p) = .reader p .leaving)
    (hd : c'.data = c.data.setQueue (S.queueOf p)
      { c.data.queue (S.queueOf p) with producers := (c.data.queue (S.queueOf p)).producers - 1 })
    (hth : c'.thread = Function.update c.thread (.reader p) (.reader p .inactive))
    (hh : c'.history = c.history ++
      [⟨.reader p, .shared (.queue (S.queueOf p) (.deleteProducer p)), .shared (.queue .unit)⟩]) :
    ShutdownInv S C stored c' := by
  have hpopped : ∀ i, (streamLog i c'.history).popped = (streamLog i c.history).popped := by
    intro i
    rw [hh]
    exact streamLog_delete.2
  have hqueue : ∀ i, (c'.data.queue i).queue = (c.data.queue i).queue := by
    intro i
    rw [hd, StreamState.setQueue_queue, Function.update_apply]
    split
    · rename_i e
      rw [e]
    · rfl
  obtain ⟨stage, hstage, hI⟩ := h.stage
  refine ⟨hqueues, h.consumers_update hth (by simp), h.stopping.leave hw hd hth hh,
    ⟨stage, ?_, ?_⟩, h.count_quiet hqueue hh hpopped⟩
  · rw [hth, Function.update_of_ne (by simp)]
    exact hstage
  · refine hI.of_quiet (by rw [hd]; rfl) (by rw [hd]; rfl) (by rw [hd]; rfl)
      (by rw [hd]; exact fun _ hq => hq) hdrained ?_ hpopped
    rw [hh, freedChunks_append, freedChunks_other (by simp), List.append_nil]

theorem reader {p : Int} {state : ReaderState T} {call : StreamCall T} {r : StreamResult T}
    (hqueues : QueuesInv S C stored c') (hdrained : ∀ j, DrainedQueue S c j → DrainedQueue S c' j)
    (hw : c.thread (.reader p) = .reader p state) (hcall : state.call S p = some call)
    (hplain : ∀ i m, call ≠ .shared (.queue i m))
    (hexit : (streamSegment call c.data).exit = .ret r)
    (hd : c'.data = (streamSegment call c.data).data)
    (hth : c'.thread = Function.update c.thread (.reader p) (.reader p (state.after r)))
    (hh : c'.history = c.history ++ [⟨.reader p, call, r⟩]) : ShutdownInv S C stored c' := by
  have heffect := readerCall hcall hplain hexit
  rw [← hd] at heffect
  have hpopped : ∀ i, (streamLog i c'.history).popped = (streamLog i c.history).popped := by
    intro i
    rw [hh, streamLog_plain hplain]
  have hqueue : ∀ i, (c'.data.queue i).queue = (c.data.queue i).queue := by
    intro i
    rw [hd, streamSegment_queue hplain]
  obtain ⟨stage, hstage, hI⟩ := h.stage
  refine ⟨hqueues, h.consumers_update hth (by simp),
    h.stopping.reader hw hcall hplain hexit hd hth hh, ⟨stage, ?_, ?_⟩,
    h.count_quiet hqueue hh hpopped⟩
  · rw [hth, Function.update_of_ne (by simp)]
    exact hstage
  · refine hI.of_quiet heffect.queueDeleted heffect.rowSchemaFreed heffect.stopReading
      (fun q hq => (heffect.ended q).mpr (Or.inl hq)) hdrained ?_ hpopped
    rw [hh, freedChunks_append, heffect.frees, List.append_nil]

theorem destructor {stage : Stage T} {call : StreamCall T} {r : StreamResult T}
    (hqueues : QueuesInv S C stored c') (hdrained : ∀ j, DrainedQueue S c j → DrainedQueue S c' j)
    (hI : StageInv S stage c) (hcall : stage.call = some call)
    (hplain : ∀ i m, call ≠ .shared (.queue i m))
    (hexit : (streamSegment call c.data).exit = .ret r)
    (hd : c'.data = (streamSegment call c.data).data)
    (hth : c'.thread = Function.update c.thread .destructor (.destructor (stage.after S r)))
    (hh : c'.history = c.history ++ [⟨.destructor, call, r⟩]) : ShutdownInv S C stored c' := by
  have hpopped : ∀ i, (streamLog i c'.history).popped = (streamLog i c.history).popped := by
    intro i
    rw [hh, streamLog_plain hplain]
  have hqueue : ∀ i, (c'.data.queue i).queue = (c.data.queue i).queue := by
    intro i
    rw [hd, streamSegment_queue hplain]
  have hreaders : ∀ p, c'.thread (.reader p) = c.thread (.reader p) := by
    intro p
    rw [hth, Function.update_of_ne (by simp)]
  refine ⟨hqueues, h.consumers_update hth (by simp), ?_, ⟨_, ?_, hI.plain hdrained hcall hplain hexit hd hh⟩,
    h.count_quiet hqueue hh hpopped⟩
  · by_cases hstops : ∃ p, call = .stopReading p
    · obtain ⟨p, rfl⟩ := hstops
      obtain rfl : StreamResult.unit = r := by simpa [streamSegment, StreamState.returns] using hexit
      exact h.stopping.stop hd hreaders hh
    · have hflags : (streamSegment call c.data).data.ended = c.data.ended ∧
          (streamSegment call c.data).data.stopReading = c.data.stopReading := by
        rcases stage_call hcall hplain with ⟨p, ps, fin, rfl, rfl⟩ | ⟨p, ps, fin, rfl, rfl⟩ |
          ⟨p, ps, rfl, rfl⟩ | ⟨i, p, ps, err, rfl, rfl⟩ | ⟨i, err, rfl, rfl⟩ | ⟨i, v, rfl, rfl⟩ |
          ⟨i, rfl, rfl⟩ | ⟨rfl, rfl⟩ | ⟨p, ps, rfl, rfl⟩
        case inr.inl => exact absurd ⟨p, rfl⟩ hstops
        case inr.inr.inr.inr.inr.inr.inr.inr =>
          simp only [streamSegment]
          split <;> exact ⟨rfl, rfl⟩
        all_goals exact ⟨rfl, rfl⟩
      refine h.stopping.of_other (by rw [hd]; exact hflags.1) (by rw [hd]; exact hflags.2) hreaders hh ?_
      intro p
      refine ⟨?_, rfl⟩
      unfold stops
      split
      · rename_i hstop
        exact absurd ⟨_, hstop⟩ hstops
      · rfl
  · rw [hth, Function.update_self]

/-- `Pop` in the destructor. -/
theorem pop {i : Nat} {v : T} {rest : List T}
    (hqueues : QueuesInv S C stored c') (hdrained : ∀ j, DrainedQueue S c j → DrainedQueue S c' j)
    (hI : StageInv S (.draining i .popping) c) (hq : (c.data.queue i).queue = v :: rest)
    (hd : c'.data = c.data.setQueue i { c.data.queue i with queue := rest })
    (hth : c'.thread = Function.update c.thread .destructor (.destructor (.freeing i v)))
    (hh : c'.history = c.history ++
      [⟨.destructor, .shared (.queue i .pop), .shared (.queue (.value v))⟩]) :
    ShutdownInv S C stored c' := by
  refine ⟨hqueues, h.consumers_update hth (by simp),
    h.stopping.of_other (by rw [hd]; rfl) (by rw [hd]; rfl) (fun p => ?_) hh fun p => ⟨rfl, rfl⟩,
    ⟨_, ?_, hI.popped hdrained hd hh⟩, ?_⟩
  · rw [hth, Function.update_of_ne (by simp)]
  · rw [hth, Function.update_self]
  · intro j
    have hcount := h.count j
    have hlate := lateOf_le (S := S) j c.history
      (⟨.destructor, .shared (.queue i .pop), .shared (.queue (.value v))⟩ : Event (StreamId ς) _ _)
    simp only [lateOf] at hlate
    rw [hd, hh, streamLog_value, StreamState.setQueue_queue, Function.update_apply]
    by_cases e : j = i
    · subst e
      rw [hq, List.length_cons] at hcount
      simp only [if_true, QueueLog.pop, List.length_append, List.length_singleton]
      omega
    · rw [if_neg (Ne.symm e), if_neg e]
      omega

/-- `Pop` throws in the destructor. -/
theorem throw {i : Nat} (hqueues : QueuesInv S C stored c')
    (hI : StageInv S (.draining i .popping) c) (hq : (c.data.queue i).queue = [])
    (hzero : (c.data.queue i).producers = 0) (hd : c'.data = c.data)
    (hdrained : ∀ j, DrainedQueue S c j → DrainedQueue S c' j)
    (hth : c'.thread = Function.update c.thread .destructor
      (.destructor (Stage.ofNext i (getLoop S.partitions .none))))
    (hh : c'.history = c.history ++
      [⟨.destructor, .shared (.queue i .pop), .shared (.queue (.outOfRange "Queue is empty"))⟩]) :
    ShutdownInv S C stored c' := by
  have hpopped : ∀ j, (streamLog j c'.history).popped = (streamLog j c.history).popped := by
    intro j
    rw [hh, streamLog_throw]
  have hdrained' : DrainedQueue S c i :=
    ⟨hq, fun p hp hqueue => h.queues.left_of_zero hzero hp hqueue⟩
  refine ⟨hqueues, h.consumers_update hth (by simp),
    h.stopping.of_other (by rw [hd]) (by rw [hd]) (fun p => ?_) hh fun p => ⟨rfl, rfl⟩,
    ⟨_, ?_, ((hI.deleting_of_drained hdrained').getLoop S.partitions .none).of_quiet (by rw [hd])
      (by rw [hd]) (by rw [hd]) (by rw [hd]; exact fun _ hq => hq) hdrained ?_ hpopped⟩,
    h.count_quiet (fun j => by rw [hd]) hh hpopped⟩
  · rw [hth, Function.update_of_ne (by simp)]
  · rw [hth, Function.update_self]
  · rw [hh, freedChunks_append, freedChunks_other (by simp), List.append_nil]

omit [DecidableEq ς] in
/-- `Pop` is called by the destructor only. -/
theorem pop_call {t : StreamId ς} {i : Nat}
    (hcall : (streamThreads S).call (c.thread t) = some (.shared (.queue i .pop))) :
    t = .destructor ∧ c.thread .destructor = .destructor (.draining i .popping) ∧
      StageInv S (.draining i .popping) c := by
  rcases h.queues.threads.pop_call hcall with ⟨s, rfl, hw⟩ | ⟨rfl, hw⟩
  · rw [h.consumers s] at hw
    cases hw
  · obtain ⟨stage, hstage, hI⟩ := h.stage
    rw [hw] at hstage
    obtain rfl := StreamThread.destructor.inj hstage
    exact ⟨rfl, hw, hI⟩

theorem step {t : StreamId ς} (hs : Step streamMonitor (streamThreads S) c t c') :
    ShutdownInv S C stored c' := by
  have hqueues := h.queues.step hs
  have hcases := h.queues.threads.step_cases hs
  have hdrained : ∀ j, DrainedQueue S c j → DrainedQueue S c' j := fun j hj => hj.step hcases
  cases hcases with
  | idle hd hth hh => exact h.congr hd hth hh hqueues
  | push v todo error hp hw hroom hd hth hh => exact h.push hqueues hdrained hp hw hd hth hh
  | leave hp hw hd hth hh => exact h.leave hqueues hdrained hw hd hth hh
  | pop i v rest hcall hq hd hth hh =>
    obtain ⟨rfl, hw, hI⟩ := h.pop_call hcall
    rw [hw] at hth
    exact h.pop hqueues hdrained hI hq hd hth hh
  | throw i hcall hq hzero hd hth hh =>
    obtain ⟨rfl, hw, hI⟩ := h.pop_call hcall
    rw [hw] at hth
    refine h.throw hqueues hI hq hzero hd hdrained ?_ hh
    rw [hth]
    simp only [streamThreads, after_draining]
    rfl
  | @plain t _ call r hcall hplain hexit hd hth hh =>
    cases t with
    | reader p =>
      rcases h.queues.threads.reader p with ⟨_, state, hw⟩ | ⟨_, hw⟩
      · rw [hw] at hcall hth
        exact h.reader hqueues hdrained hw hcall hplain hexit hd hth hh
      · rw [hw] at hcall
        cases hcall
    | consumer s =>
      rw [h.consumers s] at hcall
      cases hcall
    | destructor =>
      obtain ⟨stage, hw, hI⟩ := h.stage
      rw [hw] at hcall hth
      exact h.destructor hqueues hdrained hI hcall hplain hexit hd hth hh

end ShutdownInv

end SasLibclient
