import SasLibclient.Monitor.Progress
import SasLibclient.StreamingDestructor
import SasLibclient.StreamingWaits

/-!
# The end of a streaming read

The destructor and the readers against each other: none waits forever, and the
number of calls until all have returned is bounded by the places of the queues
and the number of readers, whatever the readers have left to read. `streamRank`
counts the pushes and pops that `ShutdownInv` still admits.
-/

namespace SasLibclient

open Monitors

variable {T ς : Type} {S : StreamSetup T} {C : Nat} {stored : Nat → List T}
  {c c' d : StreamConfig T ς}

/-! ## Nobody waits forever -/

/-- A stage that is not the last has a call. -/
theorem Stage.call_of_inRange {stage : Stage T} (h : stage.InRange S) (hne : stage ≠ .done) :
    stage.call ≠ none := by
  rcases stage with ⟨_ | _, _⟩ | ⟨_ | _, _⟩ | ⟨_ | _⟩ | ⟨i, _ | ⟨_ | _, _⟩ | _⟩ | _ | _ | _ |
    ⟨_ | _⟩ | _ <;> simp_all [Stage.InRange, Stage.call, GetState.call]

variable [DecidableEq ς]

/-- The invariants of the shutdown. -/
structure ClosingInv (S : StreamSetup T) (C : Nat) (stored : Nat → List T) (c : StreamConfig T ς) :
    Prop where
  shutdown : ShutdownInv S C stored c
  waits : WaitsInv S C c
  empty : EmptyAsleep c

theorem ClosingInv.step (h : ClosingInv S C stored c) {t : StreamId ς}
    (hs : Step streamMonitor (streamThreads S) c t c') : ClosingInv S C stored c' where
  shutdown := h.shutdown.step hs
  waits := h.waits.step h.shutdown.queues hs
  empty := h.empty.step h.shutdown.queues h.waits h.shutdown.consumers hs

theorem WaitsInv.reachable {consumerOf : ς → Nat}
    (h : Reachable streamMonitor (streamThreads S) (streamStart S C consumerOf) c) :
    WaitsInv S C c := by
  refine (h.invariant (I := fun c => QueuesInv S C (fun _ => []) c ∧ WaitsInv S C c)
    ⟨.start consumerOf, .start consumerOf⟩ ?_).2
  intro c t c' ⟨hqueues, hwaits⟩ hs
  exact ⟨hqueues.step hs, hwaits.step hqueues hs⟩

/-- A thread that makes no calls is not inside one. -/
theorem WaitsInv.ready (h : WaitsInv S C c) {t : StreamId ς} (hth : c.thread t = .absent) :
    c.status t = .ready := by
  by_contra hne
  obtain ⟨call, hcall, _⟩ := h.inCall t hne
  rw [hth] at hcall
  cases hcall

/-- The destructor starts while no consumer is inside `Get`. -/
theorem ServingInv.closing (h : ServingInv S C c) (hwaits : WaitsInv S C c) (hidle : StreamIdle c) :
    ClosingInv S C (fun i => (c.data.queue i).queue) (shutdownStart S c) where
  shutdown := h.shutdown
  waits := by
    refine ⟨?_, ?_, hwaits.places⟩
    · intro t cv hasleep
      cases t with
      | reader p => exact hwaits.reason (.reader p) cv hasleep
      | consumer s =>
        rw [shutdownStart, (hidle s).1] at hasleep
        cases hasleep
      | destructor =>
        rw [shutdownStart, hwaits.ready h.destructor] at hasleep
        cases hasleep
    · intro t hne
      cases t with
      | reader p => exact hwaits.inCall (.reader p) hne
      | consumer s => exact absurd (hidle s).1 hne
      | destructor => exact absurd (hwaits.ready h.destructor) hne
  empty := by
    intro i hasleep
    rw [shutdownStart, hwaits.ready h.destructor] at hasleep
    cases hasleep

theorem ClosingInv.reachable {consumerOf : ς → Nat}
    (hserve : Reachable streamMonitor (streamThreads S) (streamStart S C consumerOf) c)
    (hidle : StreamIdle c) (h : Reachable streamMonitor (streamThreads S) (shutdownStart S c) d) :
    ClosingInv S C (fun i => (c.data.queue i).queue) d :=
  h.invariant ((ServingInv.reachable hserve).closing (.reachable hserve) hidle)
    fun _ _ _ hI hs => hI.step hs

omit [DecidableEq ς] in
theorem reader_unfinished {p : Int} {state : ReaderState T}
    (hw : c.thread (.reader p) = .reader p state) (hne : state ≠ .ended) :
    Unfinished (streamThreads S) c (.reader p) := by
  rw [Unfinished, hw]
  cases state <;> simp_all [streamThreads, ReaderState.call]

/-- A reader that sleeps is in `Push`, on a queue that is full. -/
theorem ClosingInv.full (hC : 0 < C) (h : ClosingInv S C stored c)
    (hwoken : ∀ K : Finset (StreamId ς), woken K c.status = 0) {p : Int} {cv : StreamCV}
    (hasleep : c.status (.reader p) = .asleep cv) :
    readerLeft c.thread p = false ∧ (c.data.queue (S.queueOf p)).queue ≠ [] := by
  rcases h.shutdown.queues.sleeper h.waits.reason hasleep with
    ⟨q, v, todo, error, hq, _, rfl, hw⟩ | ⟨_, _, _, ⟨_, hno, _⟩ | ⟨hno, _⟩⟩ | ⟨_, _, hno, _⟩
  · obtain rfl := StreamId.reader.inj hq
    refine ⟨readerLeft_eq hw, ?_⟩
    intro hempty
    -- the places of the queue would be covered by readers that were woken
    have hle := (h.waits.places (S.queueOf p)).resolve_left fun hno => hno _ hasleep
    rw [hwoken, freePlaces, hempty] at hle
    simp at hle
    omega
  all_goals cases hno

/-- **Nobody waits forever** for the destructor, nor the destructor for a reader. -/
theorem ClosingInv.not_stuck (hC : 0 < C) (h : ClosingInv S C stored c) :
    ¬ Stuck (streamThreads S) c := by
  rintro ⟨⟨t, ht⟩, hsleep⟩
  -- an unfinished thread is asleep, so none is woken
  have hwoken : ∀ K : Finset (StreamId ς), woken K c.status = 0 := by
    intro K
    refine Finset.card_eq_zero.mpr (Finset.filter_eq_empty_iff.mpr fun u _ hu => ?_)
    obtain ⟨call, hcall, _⟩ := h.waits.inCall u (by rw [hu]; simp)
    obtain ⟨cv, hcv⟩ := hsleep u (by rw [Unfinished, hcall]; simp)
    rw [hu] at hcv
    cases hcv
  have hfull : ∀ p ∈ S.partitions, c.thread (.reader p) ≠ .reader p .ended →
      readerLeft c.thread p = false ∧ (c.data.queue (S.queueOf p)).queue ≠ [] := by
    intro p hp hne
    rcases h.shutdown.queues.threads.reader p with ⟨_, state, hw⟩ | ⟨hno, _⟩
    · have hun : state ≠ .ended := by
        rintro rfl
        exact hne hw
      obtain ⟨cv, hcv⟩ := hsleep _ (reader_unfinished (S := S) hw hun)
      exact h.full hC hwoken hcv
    · exact absurd hp hno
  obtain ⟨stage, hw, hI⟩ := h.shutdown.stage
  by_cases hdone : stage = .done
  · -- all readers have been joined
    subst hdone
    cases t with
    | reader p =>
      rcases h.shutdown.queues.threads.reader p with ⟨hp, _⟩ | ⟨_, hth⟩
      · have hended := (hI.joined p hp).resolve_right List.not_mem_nil
        rw [Unfinished, (h.shutdown.stopping.ended p).mp hended] at ht
        exact ht rfl
      · rw [Unfinished, hth] at ht
        exact ht rfl
    | consumer s =>
      rw [Unfinished, h.shutdown.consumers s] at ht
      exact ht rfl
    | destructor =>
      rw [Unfinished, hw] at ht
      exact ht rfl
  · have hun : Unfinished (streamThreads S) c .destructor := by
      rw [Unfinished, hw]
      exact Stage.call_of_inRange hI.inRange hdone
    obtain ⟨cv, hcv⟩ := hsleep _ hun
    rcases h.shutdown.queues.sleeper h.waits.reason hcv with
      ⟨_, _, _, _, hno, _⟩ | ⟨i, rfl, hne, _⟩ | ⟨p, ps, _, rfl, hended, hjoin⟩
    · cases hno
    · -- a producer of the empty queue sleeps although there is room
      obtain ⟨p, hp, hleft⟩ : ∃ p ∈ S.ids i, readerLeft c.thread p = false := by
        by_contra hno
        apply hne
        rw [h.shutdown.queues.producers i, Int.natCast_eq_zero, List.countP_eq_zero]
        intro p hp
        by_contra hleft
        exact hno ⟨p, hp, by simpa using hleft⟩
      obtain ⟨hmem, hqueue⟩ := List.mem_filter.mp hp
      obtain rfl := of_decide_eq_true hqueue
      have hnot : c.thread (.reader p) ≠ .reader p .ended := by
        intro hended
        rw [readerLeft_eq hended] at hleft
        cases hleft
      exact (hfull p hmem hnot).2 (h.empty _ hcv)
    · -- the queue of a reader that is joined has been drained
      rw [hw] at hjoin
      obtain rfl := StreamThread.destructor.inj hjoin
      have hmem := hI.inRange.2 p List.mem_cons_self
      have hnot : c.thread (.reader p) ≠ .reader p .ended := by
        intro hthread
        rw [(h.shutdown.stopping.ended p).mpr hthread] at hended
        cases hended
      have hgone := (hI.drained _ (S.queueOf_lt p hmem)).2 p hmem rfl
      rw [(hfull p hmem hnot).1] at hgone
      cases hgone

/-! ## What is left to do -/

/-- The calls of a reader until it looks at the flag again, or returns. -/
def ReaderState.rank : ReaderState T → Nat
  | .checking _ _ => 7
  | .filling _ _ => 6
  | .pushing _ _ _ => 5
  | .storing _ => 4
  | .leaving => 3
  | .inactive => 2
  | .returning => 1
  | .ended => 0

def readerRank (thread : StreamId ς → StreamThread T) (p : Int) : Nat :=
  match thread (.reader p) with
  | .reader _ state => state.rank
  | _ => 0

/-- The calls of the destructor from its turn for queue `i` on, without the
chunks that it pops. -/
def drainRank (S : StreamSetup T) (i : Nat) : Nat :=
  (S.consumers - i) * (S.partitions.length + 5) + S.partitions.length + 2

def Stage.rank (S : StreamSetup T) : Stage T → Nat
  | .asking readers _ => drainRank S 0 + S.partitions.length + 2 * readers.length
  | .stopping readers _ => drainRank S 0 + S.partitions.length + 2 * readers.length - 1
  | .notifying readers => drainRank S 0 + readers.length
  | .draining i .popping => drainRank S (i + 1) + S.partitions.length + 3
  | .draining i (.collecting readers _) => drainRank S (i + 1) + readers.length + 2
  | .draining i (.reporting _) => drainRank S (i + 1) + 2
  | .freeing i _ => drainRank S (i + 1) + S.partitions.length + 4
  | .deleting i => drainRank S (i + 1) + 1
  | .freeingSchema => S.partitions.length + 1
  | .joining readers => readers.length
  | .done => 0

def destructorRank (S : StreamSetup T) (thread : StreamId ς → StreamThread T) : Nat :=
  match thread .destructor with
  | .destructor stage => stage.rank S
  | _ => 0

/-- The pushes of the readers. -/
def pushes (S : StreamSetup T) (h : List (Event (StreamId ς) (StreamCall T) (StreamResult T))) : Nat :=
  ((List.range S.consumers).map fun i => (streamLog i h).pushed.length).sum

/-- The pops of the destructor. -/
def pops (S : StreamSetup T) (h : List (Event (StreamId ς) (StreamCall T) (StreamResult T))) : Nat :=
  ((List.range S.consumers).map fun i => (streamLog i h).popped.length).sum

/-- The places of all queues, and a chunk for every reader. -/
def chunkBound (S : StreamSetup T) (C : Nat) : Nat := S.consumers * C + S.partitions.length

/-- What the threads may still do: a push takes a reader back to the condition
of its loop, and a pop takes the destructor to `ChunkFree`. -/
def streamRank (S : StreamSetup T) (C : Nat) (thread : StreamId ς → StreamThread T)
    (h : List (Event (StreamId ς) (StreamCall T) (StreamResult T))) : Nat :=
  3 * (chunkBound S C - pushes S h) + 2 * (chunkBound S C - pops S h) +
    (S.partitions.map (readerRank thread)).sum + destructorRank S thread

/-! ### The destructor -/

section Stages

omit [DecidableEq ς]

theorem drainFrom_rank (S : StreamSetup T) (i : Nat) :
    (drainFrom S i).rank S ≤ drainRank S i := by
  by_cases hlt : i < S.consumers
  · have hturns : S.consumers - i = S.consumers - (i + 1) + 1 := by omega
    rw [drainFrom, if_pos hlt]
    simp only [Stage.rank, drainRank, hturns, Nat.succ_mul]
    omega
  · rw [drainFrom, if_neg hlt]
    simp only [Stage.rank, drainRank]
    omega

theorem notifyFrom_rank (S : StreamSetup T) (readers : List Int) :
    (notifyFrom S readers).rank S ≤ drainRank S 0 + readers.length := by
  cases readers with
  | nil => exact drainFrom_rank S 0
  | cons p ps => exact Nat.le_refl _

theorem stopFrom_rank (S : StreamSetup T) (readers : List Int) (fin : Bool) :
    (stopFrom S readers fin).rank S ≤
      drainRank S 0 + S.partitions.length + 2 * readers.length := by
  cases readers with
  | nil =>
    have hnotify := notifyFrom_rank S S.partitions
    have hdrain := drainFrom_rank S 0
    rw [stopFrom]
    split
    · simpa using hnotify
    · simp only [List.length_nil]
      omega
  | cons p ps => exact Nat.le_refl _

theorem joinFrom_rank (S : StreamSetup T) (readers : List Int) :
    (joinFrom readers : Stage T).rank S = readers.length := by
  cases readers <;> rfl

theorem getLoop_rank (S : StreamSetup T) (i : Nat) (readers : List Int) (err : S2ClientError) :
    (Stage.ofNext i (getLoop readers err) : Stage T).rank S ≤
      drainRank S (i + 1) + readers.length + 2 := by
  cases readers with
  | nil =>
    rw [getLoop]
    split <;> simp [Stage.ofNext, Stage.rank]
  | cons p ps => exact Nat.le_refl _

theorem Stage.rank_plain {stage : Stage T} {call : StreamCall T} {r : StreamResult T}
    {d : StreamState T} (hcall : stage.call = some call) (hplain : ∀ i m, call ≠ .shared (.queue i m))
    (hexit : (streamSegment call d).exit = .ret r) : (stage.after S r).rank S < stage.rank S := by
  rcases stage_call hcall hplain with ⟨p, ps, fin, rfl, rfl⟩ | ⟨p, ps, fin, rfl, rfl⟩ |
    ⟨p, ps, rfl, rfl⟩ | ⟨i, p, ps, err, rfl, rfl⟩ | ⟨i, err, rfl, rfl⟩ | ⟨i, v, rfl, rfl⟩ |
    ⟨i, rfl, rfl⟩ | ⟨rfl, rfl⟩ | ⟨p, ps, rfl, rfl⟩
  · -- `IsActive`
    simp only [streamSegment, StreamState.returns, Exit.ret.injEq] at hexit
    subst hexit
    simp only [Stage.after, Stage.rank, List.length_cons]
    omega
  · -- `StopReading`
    refine lt_of_le_of_lt (stopFrom_rank S ps fin) ?_
    simp only [Stage.rank, List.length_cons]
    omega
  · -- `NotifyConnUnfinishedStmt`
    refine lt_of_le_of_lt (notifyFrom_rank S ps) ?_
    simp only [Stage.rank, List.length_cons]
    omega
  · -- `GetError`
    simp only [streamSegment, StreamState.returns, Exit.ret.injEq] at hexit
    subst hexit
    rw [after_draining]
    refine lt_of_le_of_lt (getLoop_rank S i ps (collectError err (d.readerError p))) ?_
    simp only [Stage.rank, List.length_cons]
    omega
  · -- `SetError`
    simp only [streamSegment, StreamState.returns, Exit.ret.injEq] at hexit
    subst hexit
    rw [after_draining]
    simp [GetState.next, Stage.ofNext, Stage.rank]
  · -- `ChunkFree`
    simp only [Stage.after, Stage.rank]
    omega
  · -- `delete` of the queue
    refine lt_of_le_of_lt (drainFrom_rank S (i + 1)) ?_
    simp only [Stage.rank]
    omega
  · -- `RowSchemaFree`
    refine lt_of_le_of_lt (le_of_eq (joinFrom_rank S S.partitions)) ?_
    simp only [Stage.rank]
    omega
  · -- `join`
    refine lt_of_le_of_lt (le_of_eq (joinFrom_rank S ps)) ?_
    simp only [Stage.rank, List.length_cons]
    omega

theorem ReaderState.rank_plain {p : Int} {state : ReaderState T} {call : StreamCall T}
    {r : StreamResult T} {d : StreamState T} (hcall : state.call S p = some call)
    (hplain : ∀ i m, call ≠ .shared (.queue i m)) (hexit : (streamSegment call d).exit = .ret r) :
    (state.after r).rank < state.rank := by
  rcases reader_call hcall hplain with ⟨todo, error, rfl, rfl⟩ | ⟨todo, error, rfl, rfl⟩ |
    ⟨e, rfl, rfl⟩ | ⟨rfl, rfl⟩ | ⟨rfl, rfl⟩
  · simp only [streamSegment, StreamState.returns, Exit.ret.injEq] at hexit
    subst hexit
    cases hstop : d.stopReading p <;> simp [ReaderState.after, ReaderState.rank]
  · rcases todo with _ | ⟨v, todo⟩
    · cases error <;> simp [ReaderState.after, ReaderState.rank]
    · simp [ReaderState.after, ReaderState.rank]
  all_goals simp [ReaderState.after, ReaderState.rank]

end Stages

/-! ### The counts -/

omit [DecidableEq ς] in
theorem sum_ids (S : StreamSetup T) :
    ((List.range S.consumers).map fun i => (S.ids i).length).sum = S.partitions.length := by
  have hlt := S.queueOf_lt
  simp only [StreamSetup.ids]
  generalize S.partitions = l at hlt
  induction l with
  | nil => simp
  | cons p l ih =>
    have hone := sum_map_of_one (List.nodup_range (n := S.consumers))
      (List.mem_range.mpr (hlt p List.mem_cons_self))
      (f := fun i => (l.filter fun q => decide (S.queueOf q = i)).length)
      (g := fun i => ((p :: l).filter fun q => decide (S.queueOf q = i)).length)
      (by intro i hi; simp [Ne.symm hi])
    have hrest := ih fun q hq => hlt q (List.mem_cons_of_mem _ hq)
    simp only [List.filter_cons, decide_true, if_true, List.length_cons] at hone ⊢
    omega

omit [DecidableEq ς] in
/-- A reader pushes at most one chunk after it was told to stop. -/
theorem StoppingInv.late_le (h : StoppingInv c) (p : Int) : latePushes p c.history ≤ 1 := by
  cases hstop : c.data.stopReading p with
  | true => exact Nat.le_of_add_right_le (h.prompt p hstop)
  | false =>
    rw [h.told p] at hstop
    rw [latePushes_of_not_stopped hstop]
    exact Nat.zero_le 1

omit [DecidableEq ς] in
theorem ShutdownInv.count_le (h : ShutdownInv S C stored c) (i : Nat) :
    (streamLog i c.history).popped.length + (c.data.queue i).queue.length ≤
      C + (S.ids i).length := by
  have hlate : ((S.ids i).map fun p => latePushes p c.history).sum ≤ (S.ids i).length := by
    have hsum := List.sum_le_card_nsmul ((S.ids i).map fun p => latePushes p c.history) 1 (by
      intro n hn
      obtain ⟨p, _, rfl⟩ := List.mem_map.mp hn
      exact h.stopping.late_le p)
    simpa using hsum
  exact le_trans (h.count i) (Nat.add_le_add_left hlate C)

omit [DecidableEq ς] in
theorem sum_bound (S : StreamSetup T) (C : Nat) {f : Nat → Nat}
    (hf : ∀ i, f i ≤ C + (S.ids i).length) :
    ((List.range S.consumers).map f).sum ≤ chunkBound S C := by
  have hsum : ((List.range S.consumers).map f).sum ≤
      ((List.range S.consumers).map fun i => C + (S.ids i).length).sum :=
    List.sum_le_sum fun i _ => hf i
  rw [List.sum_map_add, sum_ids] at hsum
  simpa [chunkBound] using hsum

omit [DecidableEq ς] in
theorem ShutdownInv.pops_le (h : ShutdownInv S C stored c) : pops S c.history ≤ chunkBound S C :=
  sum_bound S C fun i => le_trans (Nat.le_add_right _ _) (h.count_le i)

omit [DecidableEq ς] in
theorem ShutdownInv.pushes_le (h : ShutdownInv S C stored c) :
    pushes S c.history ≤ chunkBound S C := by
  refine sum_bound S C fun i => ?_
  have hlength := congrArg List.length (h.queues.order i)
  have hcount := h.count_le i
  simp only [List.length_append] at hlength
  omega

/-! ### One step -/

theorem readers_rank {thread : StreamId ς → StreamThread T} {p : Int} (hp : p ∈ S.partitions)
    {state : ReaderState T} (hw : thread (.reader p) = .reader p state) (next : ReaderState T) :
    (S.partitions.map (readerRank (Function.update thread (.reader p) (.reader p next)))).sum +
        state.rank = (S.partitions.map (readerRank thread)).sum + next.rank ∧
      destructorRank S (Function.update thread (.reader p) (.reader p next)) =
        destructorRank S thread := by
  refine ⟨?_, ?_⟩
  · have hone := sum_map_of_one S.nodup hp
      (g := readerRank (Function.update thread (.reader p) (.reader p next)))
      (f := readerRank thread) (fun q hq => by
        rw [readerRank, Function.update_of_ne (by simpa using hq), readerRank])
    rwa [show readerRank thread p = state.rank by rw [readerRank, hw],
      show readerRank (Function.update thread (.reader p) (.reader p next)) p = next.rank by
        rw [readerRank, Function.update_self]] at hone
  · rw [destructorRank, Function.update_of_ne (by simp), destructorRank]

theorem destructor_rank (thread : StreamId ς → StreamThread T) (stage : Stage T) :
    (S.partitions.map
        (readerRank (Function.update thread .destructor (.destructor stage)))).sum =
      (S.partitions.map (readerRank thread)).sum ∧
      destructorRank S (Function.update thread .destructor (.destructor stage)) = stage.rank S := by
  refine ⟨congrArg List.sum (List.map_congr_left fun p _ => ?_), ?_⟩
  · rw [readerRank, Function.update_of_ne (by simp), readerRank]
  · rw [destructorRank, Function.update_self]

omit [DecidableEq ς] in
theorem pushes_congr {h k : List (Event (StreamId ς) (StreamCall T) (StreamResult T))}
    (hlog : ∀ i, (streamLog i k).pushed = (streamLog i h).pushed) : pushes S k = pushes S h := by
  simp only [pushes, hlog]

omit [DecidableEq ς] in
theorem pops_congr {h k : List (Event (StreamId ς) (StreamCall T) (StreamResult T))}
    (hlog : ∀ i, (streamLog i k).popped = (streamLog i h).popped) : pops S k = pops S h := by
  simp only [pops, hlog]

omit [DecidableEq ς] in
theorem pushes_push {h : List (Event (StreamId ς) (StreamCall T) (StreamResult T))} {t : StreamId ς}
    {i : Nat} {v : T} (hi : i < S.consumers) :
    pushes S (h ++ [⟨t, .shared (.queue i (.push v)), .shared (.queue .unit)⟩]) = pushes S h + 1 := by
  have hone := sum_map_of_one List.nodup_range (List.mem_range.mpr hi)
    (g := fun j => (streamLog j
      (h ++ [⟨t, .shared (.queue i (.push v)), .shared (.queue .unit)⟩])).pushed.length)
    (f := fun j => (streamLog j h).pushed.length)
    (by intro j hj; rw [streamLog_push, if_neg (Ne.symm hj)])
  rw [streamLog_push, if_pos rfl] at hone
  simp only [QueueLog.push, List.length_append, List.length_singleton] at hone
  simp only [pushes]
  omega

omit [DecidableEq ς] in
theorem pops_pop {h : List (Event (StreamId ς) (StreamCall T) (StreamResult T))} {t : StreamId ς}
    {i : Nat} {v : T} (hi : i < S.consumers) :
    pops S (h ++ [⟨t, .shared (.queue i .pop), .shared (.queue (.value v))⟩]) = pops S h + 1 := by
  have hone := sum_map_of_one List.nodup_range (List.mem_range.mpr hi)
    (g := fun j => (streamLog j
      (h ++ [⟨t, .shared (.queue i .pop), .shared (.queue (.value v))⟩])).popped.length)
    (f := fun j => (streamLog j h).popped.length)
    (by intro j hj; rw [streamLog_value, if_neg (Ne.symm hj)])
  rw [streamLog_value, if_pos rfl] at hone
  simp only [QueueLog.pop, List.length_append, List.length_singleton] at hone
  simp only [pops]
  omega

/-- **A call that returns lowers the rank.** -/
theorem ShutdownInv.rank_lt (h : ShutdownInv S C stored c) (h' : ShutdownInv S C stored c')
    {t : StreamId ς} (hs : StreamStep S c t c') (hreturn : c'.history ≠ c.history) :
    streamRank S C c'.thread c'.history < streamRank S C c.thread c.history := by
  have hpushes := h'.pushes_le
  have hpops := h'.pops_le
  obtain ⟨stage, hstage, _⟩ := h.stage
  have hdestructor : destructorRank S c.thread = stage.rank S := by rw [destructorRank, hstage]
  cases hs with
  | idle hd hth hh => exact absurd hh hreturn
  | push v todo error hp hw hroom hd hth hh =>
    obtain ⟨hreaders, hrank⟩ := readers_rank hp hw (.checking todo error)
    have hpopped := pops_congr (S := S) (h := c.history) (k := c'.history) fun i => by
      rw [hh, streamLog_push]
      split <;> rfl
    rw [hh, pushes_push (S.queueOf_lt _ hp)] at hpushes
    rw [streamRank, hpopped, hh, pushes_push (S.queueOf_lt _ hp), hth, hrank, streamRank]
    simp only [ReaderState.rank] at hreaders
    omega
  | leave hp hw hd hth hh =>
    obtain ⟨hreaders, hrank⟩ := readers_rank hp hw .inactive
    have hpushed := pushes_congr (S := S) (h := c.history) (k := c'.history) fun i => by
      rw [hh]
      exact streamLog_delete.1
    have hpopped := pops_congr (S := S) (h := c.history) (k := c'.history) fun i => by
      rw [hh]
      exact streamLog_delete.2
    rw [streamRank, hpushed, hpopped, hth, hrank, streamRank]
    simp only [ReaderState.rank] at hreaders
    omega
  | pop i v rest hcall hq hd hth hh =>
    obtain ⟨rfl, hw, hI⟩ := h.pop_call hcall
    obtain rfl := StreamThread.destructor.inj (hw.symm.trans hstage)
    rw [hw] at hth
    obtain ⟨hreaders, hrank⟩ := destructor_rank (S := S) c.thread (.freeing i v)
    have hpushed := pushes_congr (S := S) (h := c.history) (k := c'.history) fun i => by
      rw [hh, streamLog_value]
      split <;> rfl
    rw [hh, pops_pop hI.inRange] at hpops
    rw [streamRank, hpushed, hh, pops_pop hI.inRange, hth, streamRank, hdestructor]
    simp only [streamThreads, after_draining, GetState.next, Stage.ofNext]
    rw [hreaders, hrank]
    simp only [Stage.rank]
    omega
  | throw i hcall hq hzero hd hth hh =>
    obtain ⟨rfl, hw, _⟩ := h.pop_call hcall
    obtain rfl := StreamThread.destructor.inj (hw.symm.trans hstage)
    rw [hw] at hth
    obtain ⟨hreaders, hrank⟩ := destructor_rank (S := S) c.thread
      (Stage.ofNext i (getLoop S.partitions .none))
    have hpushed := pushes_congr (S := S) (h := c.history) (k := c'.history) fun i => by
      rw [hh, streamLog_throw]
    have hpopped := pops_congr (S := S) (h := c.history) (k := c'.history) fun i => by
      rw [hh, streamLog_throw]
    have hloop := getLoop_rank S i S.partitions .none
    rw [streamRank, hpushed, hpopped, hth, streamRank, hdestructor]
    simp only [streamThreads, after_draining, GetState.next]
    rw [hreaders, hrank]
    simp only [Stage.rank] at hloop ⊢
    omega
  | @plain t _ call r hcall hplain hexit hd hth hh =>
    have hpushed := pushes_congr (S := S) (h := c.history) (k := c'.history) fun i => by
      rw [hh, streamLog_plain hplain]
    have hpopped := pops_congr (S := S) (h := c.history) (k := c'.history) fun i => by
      rw [hh, streamLog_plain hplain]
    rw [streamRank, hpushed, hpopped, hth, streamRank]
    cases t with
    | reader p =>
      rcases h.queues.threads.reader p with ⟨hp, state, hw⟩ | ⟨_, hw⟩
      · rw [hw] at hcall
        obtain ⟨hreaders, hrank⟩ := readers_rank hp hw (state.after r)
        have hlt := ReaderState.rank_plain (S := S) hcall hplain hexit
        simp only [hw, streamThreads]
        rw [hrank]
        omega
      · rw [hw] at hcall
        cases hcall
    | consumer s =>
      rw [h.consumers s] at hcall
      cases hcall
    | destructor =>
      rw [hstage] at hcall
      obtain ⟨hreaders, hrank⟩ := destructor_rank (S := S) c.thread (stage.after S r)
      have hlt := Stage.rank_plain (S := S) hcall hplain hexit
      simp only [hstage, streamThreads]
      rw [hreaders, hrank, hdestructor]
      omega

/-! ## The end -/

/-- The readers and the destructor. -/
def closingThreads (S : StreamSetup T) : Finset (StreamId ς) :=
  insert .destructor (S.partitions.toFinset.image .reader)

theorem closingThreads_card (S : StreamSetup T) :
    (closingThreads S : Finset (StreamId ς)).card = S.partitions.length + 1 := by
  rw [closingThreads, Finset.card_insert_of_notMem (by simp),
    Finset.card_image_of_injective _ fun p q h => StreamId.reader.inj h,
    List.toFinset_card_of_nodup S.nodup]

theorem closing_ranked (S : StreamSetup T) (C : Nat) (stored : Nat → List T) :
    Ranked streamMonitor (streamThreads S) (ShutdownInv (ς := ς) S C stored) (closingThreads S)
      fun _ thread h => streamRank S C thread h where
  step := fun _ _ _ hI hs => hI.step hs
  mem := by
    intro c t call hI hcall
    cases t with
    | reader p =>
      rcases hI.queues.threads.reader p with ⟨hp, _⟩ | ⟨_, hw⟩
      · simp [closingThreads, hp]
      · rw [hw] at hcall
        cases hcall
    | consumer s =>
      rw [hI.consumers s] at hcall
      cases hcall
    | destructor => simp [closingThreads]
  waits := by
    intro c t call seg cv _ _ hseg hexit
    obtain rfl := streamMonitor_segment hseg
    exact Or.inr ⟨(streamSegment_wait hexit).2.1, Nat.le_refl _⟩
  returns := by
    intro c t call seg r st hI hcall hseg hdel hexit
    have hs := Step.ret hcall hseg hdel hexit
    have hlt := hI.rank_lt (hI.step hs) (hI.queues.threads.step_cases hs) (by simp)
    exact hlt

/-- The calls of a shutdown, in the places of the queues and the readers. -/
def closingBound (S : StreamSetup T) (C : Nat) : Nat :=
  5 * chunkBound S C + 10 * S.partitions.length + drainRank S 0

omit [DecidableEq ς] in
theorem streamRank_start (S : StreamSetup T) (C : Nat) (c : StreamConfig T ς) :
    streamRank S C (shutdownStart S c).thread (shutdownStart S c).history ≤ closingBound S C := by
  have hreaders : (S.partitions.map (readerRank (shutdownStart S c).thread)).sum ≤
      S.partitions.length * 7 := by
    have hsum := List.sum_le_card_nsmul
      (S.partitions.map (readerRank (shutdownStart S c).thread)) 7 (by
        intro n hn
        obtain ⟨p, _, rfl⟩ := List.mem_map.mp hn
        unfold readerRank
        split
        · rename_i state _
          cases state <;> simp [ReaderState.rank]
        · exact Nat.zero_le 7)
    simpa using hsum
  have hdestructor := stopFrom_rank S S.partitions true
  have hrank : destructorRank S (shutdownStart S c).thread =
      (stopFrom S S.partitions true).rank S := rfl
  rw [streamRank, hrank, closingBound]
  omega

/-- `d` is reached by the destructor, started in the state `c` of a read in
which no consumer is inside `Get`. -/
structure Closes (S : StreamSetup T) (C : Nat) (consumerOf : ς → Nat) (c : StreamConfig T ς)
    (tr : List (StreamConfig T ς × StreamId ς)) (d : StreamConfig T ς) : Prop where
  serve : Reachable streamMonitor (streamThreads S) (streamStart S C consumerOf) c
  idle : StreamIdle c
  close : Run streamMonitor (streamThreads S) (shutdownStart S c) tr d

section Closes

variable {consumerOf : ς → Nat} {tr : List (StreamConfig T ς × StreamId ς)}

theorem Closes.inv (h : Closes S C consumerOf c tr d) :
    ClosingInv S C (fun i => (c.data.queue i).queue) d :=
  .reachable h.serve h.idle ⟨tr, h.close⟩

/-- Every stage but the last makes a call. -/
theorem Closes.destructor_done (h : Closes S C consumerOf c tr d)
    (hfin : Finished (streamThreads S) d) : d.thread .destructor = .destructor .done := by
  obtain ⟨stage, hw, hstage⟩ := h.inv.shutdown.stage
  have hcall := hfin .destructor
  rw [hw] at hcall ⊢
  by_contra hne
  exact Stage.call_of_inRange hstage.inRange (fun hdone => hne (by rw [hdone])) hcall

/-- **Readers stop at the next chunk**: after its flag was set a reader pushes
one chunk at most, and the destructor frees no more than the places of the
queues and one chunk for every reader, whatever they have left to read. -/
theorem shutdown_prompt (h : Closes S C consumerOf c tr d) :
    (∀ p, latePushes p d.history ≤ 1) ∧ pushes S d.history ≤ chunkBound S C ∧
      (freedChunks d.history).length ≤ chunkBound S C := by
  have hI := h.inv.shutdown
  refine ⟨hI.stopping.late_le, hI.pushes_le, ?_⟩
  obtain ⟨stage, _, hstage⟩ := hI.stage
  have hlength := congrArg List.length hstage.frees
  have hpops := hI.pops_le
  rw [List.length_append, List.length_flatMap] at hlength
  rw [pops] at hpops
  omega

/-- **Every shutdown ends.** The steps are bounded but for spurious wake-ups,
and when none but those is left, all readers and the destructor have returned. -/
theorem shutdown_ends (hC : 0 < C) (h : Closes S C consumerOf c tr d) :
    tr.length ≤ (S.partitions.length + 2) * closingBound S C + (S.partitions.length + 1) +
        2 * spurious tr ∧
      (Halted streamMonitor (streamThreads S) d →
        d.thread .destructor = .destructor .done ∧
          ∀ p ∈ S.partitions, d.thread (.reader p) = .reader p .ended) := by
  have hstart := (ServingInv.reachable h.serve).shutdown
  refine ⟨?_, ?_⟩
  · have hlength := (closing_ranked S C _).length_le hstart h.close
    have hweight := weight_le_card (closingThreads S)
      (fun _ thread history => streamRank S C thread history) (shutdownStart S c)
    have hmul := Nat.mul_le_mul_left (S.partitions.length + 2) (streamRank_start S C c)
    rw [closingThreads_card, show S.partitions.length + 1 + 1 = S.partitions.length + 2 from rfl]
      at hweight
    omega
  · intro hhalted
    have hfin := hhalted.finished (h.inv.not_stuck hC)
    refine ⟨h.destructor_done hfin, ?_⟩
    intro p hp
    rcases h.inv.shutdown.queues.threads.reader p with ⟨_, state, hw⟩ | ⟨hno, _⟩
    · by_contra hne
      refine reader_unfinished (S := S) hw ?_ (hfin (.reader p))
      rintro rfl
      exact hne hw
    · exact absurd hp hno

end Closes

/-! ### A run -/

/-- Two readers with one queue; the first has two chunks. -/
def twoReaders : StreamSetup Nat where
  partitions := [2, 1]
  nodup := by decide
  consumers := 1
  queueOf := fun _ => 0
  queueOf_lt := fun _ _ => Nat.zero_lt_one
  begin := fun p => .checking (if p = 2 then [7, 8] else [9]) none
  begins := by
    intro p _
    trivial

/-- The threads of `twoReaders` that make calls. -/
def twoReadersThreads : List (StreamId Unit) := [.reader 2, .reader 1, .destructor]

/-- The consumer of `twoReaders` is between two calls of `Get`. -/
def betweenGets (c : StreamConfig Nat Unit) : Bool :=
  match c.thread (.consumer ()) with
  | .consumer _ .popping => true
  | _ => false

/-- The state after a schedule, and that of the destructor after another one. -/
def closeTwo (serving closing : List (StreamId Unit)) :
    Option (StreamConfig Nat Unit × StreamConfig Nat Unit) :=
  (Config.schedule streamMonitor (streamThreads twoReaders) twoReadersThreads serving
      (streamStart twoReaders 1 fun _ => 0)).bind fun c =>
    (Config.schedule streamMonitor (streamThreads twoReaders) twoReadersThreads closing
      (shutdownStart twoReaders c)).map fun d => (c, d)

theorem closes_closeTwo {serving closing : List (StreamId Unit)}
    (hserving : ∀ t ∈ serving, t ∈ twoReadersThreads)
    (hclosing : ∀ t ∈ closing, t ∈ twoReadersThreads) {c d : StreamConfig Nat Unit}
    (h : closeTwo serving closing = some (c, d)) (hready : c.status (.consumer ()) = .ready)
    (hbetween : betweenGets c = true) : ∃ tr, Closes twoReaders 1 (fun _ : Unit => 0) c tr d := by
  obtain ⟨c', hc, hmap⟩ := Option.bind_eq_some_iff.mp h
  obtain ⟨d', hd, hpair⟩ := Option.map_eq_some_iff.mp hmap
  obtain ⟨rfl, rfl⟩ := Prod.mk.inj hpair
  obtain ⟨tr₁, hrun₁, _, hsleep⟩ := Run.of_schedule hserving nofun hc
  obtain ⟨tr₂, hrun₂, _⟩ := Run.of_schedule (c := shutdownStart twoReaders c') hclosing hsleep hd
  refine ⟨tr₂, ⟨tr₁, hrun₁⟩, ?_, hrun₂⟩
  intro s
  refine ⟨hready, ?_⟩
  unfold betweenGets at hbetween
  split at hbetween
  · exact ⟨_, ‹_›⟩
  · cases hbetween

/-- When the destructor starts, the reader 2 is in its second turn and the reader
1 sleeps in `Push`; the destructor sleeps in `Pop` before they have returned. -/
theorem closeTwo_finished : ∃ c tr d, Closes twoReaders 1 (fun _ : Unit => 0) c tr d ∧
    c.status (.reader 1) = .asleep (.queue 0 .fullCV) ∧ (c.data.queue 0).queue = [7] ∧
    (streamLog 0 d.history).pushed = [9, 8] ∧ Finished (streamThreads twoReaders) d := by
  let facts : StreamConfig Nat Unit × StreamConfig Nat Unit → _ := fun x =>
    ([x.1.status (.reader 1), x.1.status (.consumer ())], betweenGets x.1,
      [(x.1.data.queue 0).queue, (streamLog 0 x.2.history).pushed],
      twoReadersThreads.map fun t => ((streamThreads twoReaders).call (x.2.thread t)).isNone)
  have hschedule : (closeTwo
      [.reader 2, .reader 2, .reader 2, .reader 1, .reader 1, .reader 1, .reader 2, .reader 2]
      [.destructor, .destructor, .destructor, .destructor, .destructor, .destructor, .destructor,
        .destructor, .destructor, .reader 1, .destructor, .destructor, .destructor, .reader 2,
        .destructor, .destructor, .destructor, .reader 1, .reader 1, .reader 2, .reader 2,
        .destructor, .destructor, .destructor, .destructor, .destructor, .reader 2, .reader 2,
        .destructor, .destructor, .reader 1, .reader 1, .destructor]).map facts =
      some ([.asleep (.queue 0 .fullCV), .ready], true, [[7], [9, 8]], [true, true, true]) := by
    decide +kernel
  obtain ⟨⟨c, d⟩, hcd, hfacts⟩ := Option.map_eq_some_iff.mp hschedule
  simp only [facts, twoReadersThreads, Prod.mk.injEq, List.cons.injEq, List.map_cons, List.map_nil,
    and_true, Option.isNone_iff_eq_none] at hfacts
  obtain ⟨⟨hasleep, hready⟩, hbetween, ⟨hqueue, hpushed⟩, htwo, hone, hdestructor⟩ := hfacts
  obtain ⟨tr, h⟩ := closes_closeTwo (by simp [twoReadersThreads]) (by simp [twoReadersThreads]) hcd
    hready hbetween
  have hI := h.inv.shutdown
  refine ⟨c, tr, d, h, hasleep, hqueue, hpushed, ?_⟩
  rintro (p | s | _)
  · by_cases hp : p ∈ twoReaders.partitions
    · rcases List.mem_cons.mp hp with rfl | hp
      · exact htwo
      · obtain rfl := List.mem_singleton.mp hp
        exact hone
    · rcases hI.queues.threads.reader p with ⟨hmem, _⟩ | ⟨_, habsent⟩
      · exact absurd hmem hp
      · rw [habsent]
        rfl
  · rw [hI.consumers s]
    rfl
  · exact hdestructor

theorem shutdown_prompt_two : ∃ c tr d, Closes twoReaders 1 (fun _ : Unit => 0) c tr d ∧
    c.status (.reader 1) = .asleep (.queue 0 .fullCV) ∧
    (streamLog 0 d.history).pushed = [9, 8] ∧ latePushes 2 d.history ≤ 1 ∧
    latePushes 1 d.history ≤ 1 ∧ (freedChunks d.history).length ≤ 3 := by
  obtain ⟨c, tr, d, h, hasleep, _, hpushed, _⟩ := closeTwo_finished
  obtain ⟨hlate, _, hfreed⟩ := shutdown_prompt h
  exact ⟨c, tr, d, h, hasleep, hpushed, hlate 2, hlate 1, hfreed⟩

theorem shutdown_ends_two : ∃ c tr d, Closes twoReaders 1 (fun _ : Unit => 0) c tr d ∧
    c.status (.reader 1) = .asleep (.queue 0 .fullCV) ∧
    tr.length ≤ 4 * closingBound twoReaders 1 + 3 + 2 * spurious tr ∧
    Halted streamMonitor (streamThreads twoReaders) d ∧
    d.thread .destructor = .destructor .done ∧ d.thread (.reader 2) = .reader 2 .ended ∧
    d.thread (.reader 1) = .reader 1 .ended := by
  obtain ⟨c, tr, d, h, hasleep, _, _, hfinished⟩ := closeTwo_finished
  obtain ⟨hlength, hend⟩ := shutdown_ends (by decide) h
  obtain ⟨hdone, hended⟩ := hend hfinished.halted
  exact ⟨c, tr, d, h, hasleep, hlength, hfinished.halted, hdone, hended 2 (by decide),
    hended 1 (by decide)⟩

end SasLibclient
