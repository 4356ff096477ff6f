import SasLibclient.Delivery
import SasLibclient.Queue.SimpleMode
import SasLibclient.StreamingQueue

/-!
# The queues of a streaming read

What holds of the queues while readers, consumers and the destructor run, in
every interleaving: `QueuesInv` relates the queues to the threads and to the
completed calls, and `QueuesInv.step` carries it over the steps of all threads.
`StreamStep` says once what a step can do.
-/

namespace SasLibclient

open Monitors

variable {T ς : Type}

/-- The completed calls that `ChunkQueue` knows. -/
def sharedEvents {τ : Type} (h : List (Event τ (StreamCall T) (StreamResult T))) :
    List (Event τ (SharedCall T) (SharedResult T)) :=
  h.filterMap fun e =>
    match e.call, e.result with
    | .shared call, .shared r => some ⟨e.thread, call, r⟩
    | _, _ => none

/-- What the queue `i` was used for. -/
def streamLog {τ : Type} (i : Nat) (h : List (Event τ (StreamCall T) (StreamResult T))) :
    QueueLog T :=
  logOf i (sharedEvents h)

section Logs

variable {τ : Type} {t : τ} {i j : Nat} {v : T} {p : Int} {call : StreamCall T} {r : StreamResult T}
  {h : List (Event τ (StreamCall T) (StreamResult T))}

theorem sharedEvents_append (h h' : List (Event τ (StreamCall T) (StreamResult T))) :
    sharedEvents (h ++ h') = sharedEvents h ++ sharedEvents h' := by
  simp [sharedEvents]

theorem streamLog_push :
    streamLog i (h ++ [⟨t, .shared (.queue j (.push v)), .shared (.queue .unit)⟩]) =
      if j = i then (streamLog i h).push v else streamLog i h := by
  rw [streamLog, sharedEvents_append]
  split
  · rename_i e
    subst e
    exact logOf_push
  · rename_i e
    exact logOf_other e

theorem streamLog_value :
    streamLog i (h ++ [⟨t, .shared (.queue j .pop), .shared (.queue (.value v))⟩]) =
      if j = i then (streamLog i h).pop v else streamLog i h := by
  rw [streamLog, sharedEvents_append]
  split
  · rename_i e
    subst e
    exact logOf_pop
  · rename_i e
    exact logOf_other e

theorem streamLog_throw {what : String} :
    streamLog i (h ++ [⟨t, .shared (.queue j .pop), .shared (.queue (.outOfRange what))⟩]) =
      streamLog i h := by
  rw [streamLog, sharedEvents_append]
  by_cases e : j = i
  · subst e
    exact logOf_throw
  · exact logOf_other e

/-- `DeleteProducer` counts for its queue only as a deletion. -/
theorem streamLog_delete :
    (streamLog i (h ++ [⟨t, .shared (.queue j (.deleteProducer p)), .shared (.queue .unit)⟩])).pushed =
        (streamLog i h).pushed ∧
      (streamLog i (h ++ [⟨t, .shared (.queue j (.deleteProducer p)), .shared (.queue .unit)⟩])).popped =
        (streamLog i h).popped := by
  rw [streamLog, sharedEvents_append]
  by_cases e : j = i
  · subst e
    rw [show sharedEvents [(⟨t, .shared (.queue j (.deleteProducer p)), .shared (.queue .unit)⟩ :
      Event τ (StreamCall T) (StreamResult T))] = [⟨t, .queue j (.deleteProducer p), .queue .unit⟩]
      from rfl, logOf_delete]
    exact ⟨rfl, rfl⟩
  · rw [show sharedEvents [(⟨t, .shared (.queue j (.deleteProducer p)), .shared (.queue .unit)⟩ :
      Event τ (StreamCall T) (StreamResult T))] = [⟨t, .queue j (.deleteProducer p), .queue .unit⟩]
      from rfl, logOf_other e]
    exact ⟨rfl, rfl⟩

theorem streamLog_plain (hcall : ∀ j m, call ≠ .shared (.queue j m)) :
    streamLog i (h ++ [⟨t, call, r⟩]) = streamLog i h := by
  rw [streamLog, sharedEvents_append, streamLog]
  cases call with
  | shared call =>
    cases call with
    | queue j m => exact absurd rfl (hcall j m)
    | setReaderError p e | getReaderError p | setError e =>
      cases r with
      | shared r => simp [sharedEvents, logOf, queueEvents]
      | flag b | unit => simp [sharedEvents]
  | _ => simp [sharedEvents]

end Logs

/-! ## Segments -/

theorem setQueue_self (i : Nat) (d : StreamState T) : d.setQueue i (d.queue i) = d := by
  simp [StreamState.setQueue]

theorem StreamState.setQueue_queue (i : Nat) (q : ThreadSafeSimpleQueue T) (d : StreamState T) :
    (d.setQueue i q).queue = Function.update d.queue i q := rfl

/-- A wait leaves the data alone; only `Push`, `Pop` and `join` wait. -/
theorem streamSegment_wait {call : StreamCall T} {d : StreamState T} {cv : StreamCV}
    (h : (streamSegment call d).exit = .wait cv) :
    (streamSegment call d).data = d ∧ (streamSegment call d).signals = [] ∧
      ((∃ i v, call = .shared (.queue i (.push v)) ∧ cv = .queue i .fullCV ∧
          (d.queue i).capacity ≤ (d.queue i).queue.length) ∨
        (∃ i, call = .shared (.queue i .pop) ∧ cv = .queue i .emptyCV ∧ (d.queue i).queue = [] ∧
          (d.queue i).producers ≠ 0) ∨
        ∃ p, call = .join p ∧ cv = .ended p ∧ d.ended p = false) := by
  cases call with
  | shared call =>
    cases call with
    | queue i call =>
      cases call with
      | push v =>
        rcases ThreadSafeSimpleQueue.push_items v (d.queue i) with ⟨hd, hsig, hexit, hfull⟩ |
          ⟨_, _, hexit⟩
        · simp only [streamSegment, onStream, ThreadSafeSimpleQueue.segment, hd, hsig, hexit,
            streamExit, setQueue_self, List.map_nil, Exit.wait.injEq] at h ⊢
          exact ⟨trivial, trivial, Or.inl ⟨i, v, rfl, h.symm, hfull⟩⟩
        · simp [streamSegment, onStream, ThreadSafeSimpleQueue.segment, hexit, streamExit] at h
      | pop =>
        cases hq : (d.queue i).queue with
        | nil =>
          by_cases hzero : (d.queue i).producers = 0
          · simp [streamSegment, onStream, ThreadSafeSimpleQueue.segment, ThreadSafeSimpleQueue.pop,
              hq, hzero, streamExit] at h
          · simp only [streamSegment, onStream, ThreadSafeSimpleQueue.segment,
              ThreadSafeSimpleQueue.pop, hq, hzero, streamExit, ne_eq, not_false_iff, if_true,
              setQueue_self, List.map_nil, Exit.wait.injEq] at h ⊢
            exact ⟨trivial, trivial, Or.inr (Or.inl ⟨i, rfl, h.symm, hq, hzero⟩)⟩
        | cons v rest =>
          simp [streamSegment, onStream, ThreadSafeSimpleQueue.segment, ThreadSafeSimpleQueue.pop,
            hq, streamExit] at h
      | get p v => cases h
      | deleteProducer p => cases h
    | setReaderError p e | getReaderError p | setError e => cases h
  | join p =>
    cases hended : d.ended p with
    | true => simp [streamSegment, hended, StreamState.returns] at h
    | false =>
      simp only [streamSegment, hended, Bool.false_eq_true, if_false, Exit.wait.injEq] at h ⊢
      exact ⟨trivial, trivial, Or.inr (Or.inr ⟨p, rfl, h.symm, hended⟩)⟩
  | _ => cases h

/-! ## Steps -/

/-- The threads have the shapes of their identities. -/
structure ThreadsInv (S : StreamSetup T) (c : StreamConfig T ς) : Prop where
  reader : ∀ p, p ∈ S.partitions ∧ (∃ state, c.thread (.reader p) = .reader p state) ∨
    p ∉ S.partitions ∧ c.thread (.reader p) = .absent
  consumer : ∀ s, (∃ i state, c.thread (.consumer s) = .consumer i state) ∨
    c.thread (.consumer s) = .absent
  destructor : c.thread .destructor = .absent ∨ ∃ stage, c.thread .destructor = .destructor stage

variable {S : StreamSetup T} {c c' : StreamConfig T ς}

theorem streamThreads_after (w : StreamThread T) (r : StreamResult T) :
    (∀ p state, w = .reader p state →
      (streamThreads S).after w r = .reader p (state.after r)) ∧
    (∀ i state, w = .consumer i state → ∃ state', (streamThreads S).after w r = .consumer i state') ∧
    (∀ stage, w = .destructor stage →
      (streamThreads S).after w r = .destructor (stage.after S r)) ∧
    (w = .absent → (streamThreads S).after w r = .absent) := by
  refine ⟨?_, ?_, ?_, ?_⟩
  · rintro p state rfl
    rfl
  · rintro i state rfl
    cases r with
    | shared r =>
      cases hnext : state.next S.partitions r with
      | goOn state' => exact ⟨state', by simp [streamThreads, hnext]⟩
      | returns chunk err => exact ⟨.popping, by simp [streamThreads, hnext]⟩
    | flag b | unit => exact ⟨state, rfl⟩
  · rintro stage rfl
    rfl
  · rintro rfl
    rfl

variable [DecidableEq ς]

theorem ThreadsInv.update (h : ThreadsInv S c) {t : StreamId ς} {r : StreamResult T}
    (hth : c'.thread = Function.update c.thread t ((streamThreads S).after (c.thread t) r)) :
    ThreadsInv S c' := by
  obtain ⟨hreader, hconsumer, hdestructor, habsent⟩ := streamThreads_after (S := S) (c.thread t) r
  constructor
  · intro p
    rw [hth]
    by_cases e : StreamId.reader p = t
    · subst e
      rw [Function.update_self]
      rcases h.reader p with ⟨hp, state, hw⟩ | ⟨hp, hw⟩
      · exact Or.inl ⟨hp, _, hreader p state hw⟩
      · exact Or.inr ⟨hp, habsent hw⟩
    · rw [Function.update_of_ne e]
      exact h.reader p
  · intro s
    rw [hth]
    by_cases e : StreamId.consumer s = t
    · subst e
      rw [Function.update_self]
      rcases h.consumer s with ⟨i, state, hw⟩ | hw
      · obtain ⟨state', hw'⟩ := hconsumer i state hw
        exact Or.inl ⟨i, state', hw'⟩
      · exact Or.inr (habsent hw)
    · rw [Function.update_of_ne e]
      exact h.consumer s
  · rw [hth]
    by_cases e : StreamId.destructor = t
    · subst e
      rw [Function.update_self]
      rcases h.destructor with hw | ⟨stage, hw⟩
      · exact Or.inl (habsent hw)
      · exact Or.inr ⟨_, hdestructor stage hw⟩
    · rw [Function.update_of_ne e]
      exact h.destructor

/-- What a step does. The threads and the history of a step that completes a
call are `returned`. -/
inductive StreamStep (S : StreamSetup T) (c : StreamConfig T ς) :
    StreamId ς → StreamConfig T ς → Prop
  | idle {t : StreamId ς} {c' : StreamConfig T ς} : c'.data = c.data → c'.thread = c.thread →
      c'.history = c.history → StreamStep S c t c'
  | push {p : Int} {c' : StreamConfig T ς} (v : T) (todo : List T) (error : Option S2ClientError) :
      p ∈ S.partitions → c.thread (.reader p) = .reader p (.pushing v todo error) →
      (c.data.queue (S.queueOf p)).queue.length < (c.data.queue (S.queueOf p)).capacity →
      c'.data = c.data.setQueue (S.queueOf p)
        { c.data.queue (S.queueOf p) with queue := (c.data.queue (S.queueOf p)).queue ++ [v] } →
      c'.thread = Function.update c.thread (.reader p) (.reader p (.checking todo error)) →
      c'.history = c.history ++
        [⟨.reader p, .shared (.queue (S.queueOf p) (.push v)), .shared (.queue .unit)⟩] →
      StreamStep S c (.reader p) c'
  | leave {p : Int} {c' : StreamConfig T ς} : p ∈ S.partitions →
      c.thread (.reader p) = .reader p .leaving →
      c'.data = c.data.setQueue (S.queueOf p)
        { c.data.queue (S.queueOf p) with producers := (c.data.queue (S.queueOf p)).producers - 1 } →
      c'.thread = Function.update c.thread (.reader p) (.reader p .inactive) →
      c'.history = c.history ++
        [⟨.reader p, .shared (.queue (S.queueOf p) (.deleteProducer p)), .shared (.queue .unit)⟩] →
      StreamStep S c (.reader p) c'
  | pop {t : StreamId ς} {c' : StreamConfig T ς} (i : Nat) (v : T) (rest : List T) :
      (streamThreads S).call (c.thread t) = some (.shared (.queue i .pop)) →
      (c.data.queue i).queue = v :: rest →
      c'.data = c.data.setQueue i { c.data.queue i with queue := rest } →
      c'.thread = Function.update c.thread t
        ((streamThreads S).after (c.thread t) (.shared (.queue (.value v)))) →
      c'.history = c.history ++ [⟨t, .shared (.queue i .pop), .shared (.queue (.value v))⟩] →
      StreamStep S c t c'
  | throw {t : StreamId ς} {c' : StreamConfig T ς} (i : Nat) :
      (streamThreads S).call (c.thread t) = some (.shared (.queue i .pop)) →
      (c.data.queue i).queue = [] → (c.data.queue i).producers = 0 → c'.data = c.data →
      c'.thread = Function.update c.thread t
        ((streamThreads S).after (c.thread t) (.shared (.queue (.outOfRange "Queue is empty")))) →
      c'.history = c.history ++
        [⟨t, .shared (.queue i .pop), .shared (.queue (.outOfRange "Queue is empty"))⟩] →
      StreamStep S c t c'
  | plain {t : StreamId ς} {c' : StreamConfig T ς} (call : StreamCall T) (r : StreamResult T) :
      (streamThreads S).call (c.thread t) = some call → (∀ i m, call ≠ .shared (.queue i m)) →
      (streamSegment call c.data).exit = .ret r → c'.data = (streamSegment call c.data).data →
      c'.thread = Function.update c.thread t ((streamThreads S).after (c.thread t) r) →
      c'.history = c.history ++ [⟨t, call, r⟩] → StreamStep S c t c'

omit [DecidableEq ς] in
theorem ThreadsInv.queue_call (h : ThreadsInv S c) {t : StreamId ς} {i : Nat} {m : Call T}
    (hcall : (streamThreads S).call (c.thread t) = some (.shared (.queue i m))) :
    (∃ p v todo error, t = .reader p ∧ p ∈ S.partitions ∧ i = S.queueOf p ∧ m = .push v ∧
      c.thread t = .reader p (.pushing v todo error)) ∨
    (∃ p, t = .reader p ∧ p ∈ S.partitions ∧ i = S.queueOf p ∧ m = .deleteProducer p ∧
      c.thread t = .reader p .leaving) ∨
    m = .pop ∧ ((∃ s, t = .consumer s ∧ c.thread t = .consumer i .popping) ∨
      t = .destructor ∧ c.thread t = .destructor (.draining i .popping)) := by
  cases t with
  | reader p =>
    rcases h.reader p with ⟨hp, state, hw⟩ | ⟨_, hw⟩
    · rw [hw] at hcall
      cases state with
      | pushing v todo error =>
        simp only [streamThreads, ReaderState.call, Option.some.injEq, StreamCall.shared.injEq,
          SharedCall.queue.injEq] at hcall
        exact Or.inl ⟨p, v, todo, error, rfl, hp, hcall.1.symm, hcall.2.symm, hw⟩
      | leaving =>
        simp only [streamThreads, ReaderState.call, Option.some.injEq, StreamCall.shared.injEq,
          SharedCall.queue.injEq] at hcall
        exact Or.inr (Or.inl ⟨p, rfl, hp, hcall.1.symm, hcall.2.symm, hw⟩)
      | _ => simp [streamThreads, ReaderState.call] at hcall
    · rw [hw] at hcall
      cases hcall
  | consumer s =>
    rcases h.consumer s with ⟨j, state, hw⟩ | hw
    · rw [hw] at hcall
      rcases state with _ | ⟨_ | _, _⟩ | _
      · simp only [streamThreads, GetState.call, Option.map_some, Option.some.injEq,
          StreamCall.shared.injEq, SharedCall.queue.injEq] at hcall
        obtain ⟨rfl, rfl⟩ := hcall
        exact Or.inr (Or.inr ⟨rfl, Or.inl ⟨s, rfl, hw⟩⟩)
      all_goals simp [streamThreads, GetState.call] at hcall
    · rw [hw] at hcall
      cases hcall
  | destructor =>
    rcases h.destructor with hw | ⟨stage, hw⟩
    · rw [hw] at hcall
      cases hcall
    · rw [hw] at hcall
      rcases stage with ⟨_ | _, _⟩ | ⟨_ | _, _⟩ | ⟨_ | _⟩ | ⟨j, _ | ⟨_ | _, _⟩ | _⟩ | _ | _ | _ |
        ⟨_ | _⟩ | _
      case draining.popping =>
        simp only [streamThreads, Stage.call, GetState.call, Option.map_some, Option.some.injEq,
          StreamCall.shared.injEq, SharedCall.queue.injEq] at hcall
        obtain ⟨rfl, rfl⟩ := hcall
        exact Or.inr (Or.inr ⟨rfl, Or.inr ⟨rfl, hw⟩⟩)
      all_goals simp [streamThreads, Stage.call, GetState.call] at hcall

omit [DecidableEq ς] in
/-- Only consumers and the destructor call `Pop`. -/
theorem ThreadsInv.pop_call (h : ThreadsInv S c) {t : StreamId ς} {i : Nat}
    (hcall : (streamThreads S).call (c.thread t) = some (.shared (.queue i .pop))) :
    (∃ s, t = .consumer s ∧ c.thread t = .consumer i .popping) ∨
      t = .destructor ∧ c.thread t = .destructor (.draining i .popping) := by
  rcases h.queue_call hcall with ⟨_, _, _, _, _, _, _, hno, _⟩ | ⟨_, _, _, _, hno, _⟩ | ⟨_, hwho⟩
  · cases hno
  · cases hno
  · exact hwho

theorem ThreadsInv.step_cases (h : ThreadsInv S c) {t : StreamId ς}
    (hs : Step streamMonitor (streamThreads S) c t c') : StreamStep S c t c' := by
  cases hs with
  | @wait call seg st cv hcall hseg hdel hexit =>
    obtain rfl := streamMonitor_segment hseg
    exact .idle (streamSegment_wait hexit).1 rfl rfl
  | @ret call seg st r hcall hseg hdel hexit =>
    obtain rfl := streamMonitor_segment hseg
    by_cases hqueue : ∃ i m, call = .shared (.queue i m)
    · obtain ⟨i, m, rfl⟩ := hqueue
      rcases h.queue_call hcall with ⟨p, v, todo, error, rfl, hp, rfl, rfl, hw⟩ |
        ⟨p, rfl, hp, rfl, rfl, hw⟩ | ⟨rfl, _⟩
      · by_cases hfull : (c.data.queue (S.queueOf p)).queue.length ≥
            (c.data.queue (S.queueOf p)).capacity
        · simp [streamSegment, onStream, ThreadSafeSimpleQueue.segment, ThreadSafeSimpleQueue.push,
            hfull, streamExit] at hexit
        · simp only [streamSegment, onStream, ThreadSafeSimpleQueue.segment,
            ThreadSafeSimpleQueue.push, if_neg hfull, streamExit, Exit.ret.injEq] at hexit ⊢
          subst hexit
          refine .push v todo error hp hw (by omega) rfl ?_ rfl
          rw [hw]
          rfl
      · simp only [streamSegment, onStream, ThreadSafeSimpleQueue.segment,
          ThreadSafeSimpleQueue.deleteProducer, streamExit, Exit.ret.injEq] at hexit ⊢
        subst hexit
        refine .leave hp hw rfl ?_ rfl
        rw [hw]
        rfl
      · cases hq : (c.data.queue i).queue with
        | nil =>
          by_cases hzero : (c.data.queue i).producers = 0
          · simp only [streamSegment, onStream, ThreadSafeSimpleQueue.segment,
              ThreadSafeSimpleQueue.pop, hq, hzero, ne_eq, not_true, if_false, streamExit,
              setQueue_self, Exit.ret.injEq] at hexit ⊢
            subst hexit
            exact .throw i hcall hq hzero rfl rfl rfl
          · simp [streamSegment, onStream, ThreadSafeSimpleQueue.segment,
              ThreadSafeSimpleQueue.pop, hq, hzero, streamExit] at hexit
        | cons v rest =>
          simp only [streamSegment, onStream, ThreadSafeSimpleQueue.segment,
            ThreadSafeSimpleQueue.pop, hq, streamExit, Exit.ret.injEq] at hexit ⊢
          subst hexit
          exact .pop i v rest hcall hq rfl rfl rfl
    · exact .plain call r hcall (fun i m e => hqueue ⟨i, m, e⟩) hexit rfl rfl rfl
  | spurious _ => exact .idle rfl rfl rfl

theorem ThreadsInv.step (h : ThreadsInv S c) {t : StreamId ς}
    (hs : Step streamMonitor (streamThreads S) c t c') : ThreadsInv S c' := by
  cases hs with
  | wait | spurious => exact ⟨h.reader, h.consumer, h.destructor⟩
  | ret => exact h.update rfl

/-! ## The queues -/

/-- The reader has called `DeleteProducer`. -/
def readerLeft (thread : StreamId ς → StreamThread T) (p : Int) : Bool :=
  match thread (.reader p) with
  | .reader _ state => state.hasLeft
  | _ => false

/-- The invariant of every interleaving. `stored` are the chunks that were in
the queues before the first call of the history. -/
structure QueuesInv (S : StreamSetup T) (C : Nat) (stored : Nat → List T) (c : StreamConfig T ς) :
    Prop where
  threads : ThreadsInv S c
  capacity : ∀ i, (c.data.queue i).capacity = C
  bounded : ∀ i, (c.data.queue i).queue.length ≤ C
  producers : ∀ i, (c.data.queue i).producers =
    ((S.ids i).countP fun p => !readerLeft c.thread p : Nat)
  order : ∀ i, stored i ++ (streamLog i c.history).pushed =
    (streamLog i c.history).popped ++ (c.data.queue i).queue

variable {C : Nat} {stored : Nat → List T}

omit [DecidableEq ς] in
theorem QueuesInv.start (consumerOf : ς → Nat) :
    QueuesInv S C (fun _ => []) (streamStart S C consumerOf) where
  threads := by
    constructor
    · intro p
      by_cases hp : p ∈ S.partitions
      · exact Or.inl ⟨hp, S.begin p, if_pos hp⟩
      · exact Or.inr ⟨hp, if_neg hp⟩
    · exact fun s => Or.inl ⟨consumerOf s, .popping, rfl⟩
    · exact Or.inl rfl
  capacity := fun _ => rfl
  bounded := fun _ => Nat.zero_le C
  producers := by
    intro i
    simp only [streamStart, ThreadSafeSimpleQueue.create, Int.natCast_inj]
    symm
    rw [List.countP_eq_length]
    intro p hp
    have hmem := (List.mem_filter.mp hp).1
    have hbegins := S.begins p hmem
    simp only [readerLeft, if_pos hmem]
    cases hbegin : S.begin p with
    | checking | storing | leaving => rfl
    | _ => simp [hbegin, ReaderState.Begins] at hbegins
  order := fun _ => rfl

omit [DecidableEq ς] in
theorem QueuesInv.shutdown (h : QueuesInv S C stored c) :
    QueuesInv S C (fun i => (c.data.queue i).queue) (shutdownStart S c) where
  threads := ⟨h.threads.reader, fun _ => Or.inr rfl, Or.inr ⟨_, rfl⟩⟩
  capacity := h.capacity
  bounded := h.bounded
  producers := h.producers
  order := by
    intro i
    simp [shutdownStart, streamLog, sharedEvents, logOf, queueEvents]

omit [DecidableEq ς] in
/-- A thread that has a call on queue `i` as a reader has not left. -/
theorem mem_ids {p : Int} (hp : p ∈ S.partitions) : p ∈ S.ids (S.queueOf p) := by
  simp [StreamSetup.ids, hp]

omit [DecidableEq ς] in
theorem readerLeft_eq {thread : StreamId ς → StreamThread T} {p q : Int} {state : ReaderState T}
    (hw : thread (.reader p) = .reader q state) : readerLeft thread p = state.hasLeft := by
  rw [readerLeft, hw]

omit [DecidableEq ς] in
theorem readerLeft_congr {thread thread' : StreamId ς → StreamThread T} {p : Int}
    (h : thread' (.reader p) = thread (.reader p)) : readerLeft thread' p = readerLeft thread p := by
  rw [readerLeft, h, readerLeft]

/-- Only `DeleteProducer` makes a reader leave. -/
theorem readerLeft_update {thread : StreamId ς → StreamThread T} {t : StreamId ς}
    {call : StreamCall T} {r : StreamResult T}
    (hcall : (streamThreads S).call (thread t) = some call)
    (hnot : ∀ i p, call ≠ .shared (.queue i (.deleteProducer p))) (p : Int) :
    readerLeft (Function.update thread t ((streamThreads S).after (thread t) r)) p =
      readerLeft thread p := by
  by_cases e : StreamId.reader p = t
  · subst e
    rw [readerLeft, Function.update_self, readerLeft]
    cases hw : thread (.reader p) with
    | reader q state =>
      rw [hw] at hcall
      simp only [streamThreads]
      cases state with
      | checking todo error =>
        cases r with
        | flag b => cases b <;> rfl
        | shared r | unit => rfl
      | filling todo error =>
        cases todo with
        | nil => cases error <;> rfl
        | cons v todo => rfl
      | leaving =>
        simp only [streamThreads, ReaderState.call, Option.some.injEq] at hcall
        exact absurd hcall.symm (hnot _ _)
      | _ => rfl
    | consumer i state =>
      obtain ⟨state', hafter⟩ := (streamThreads_after (S := S) _ r).2.1 i state rfl
      rw [hafter]
    | destructor stage => rfl
    | absent => rfl
  · exact readerLeft_congr (by rw [Function.update_of_ne e])

omit [DecidableEq ς] in
theorem QueuesInv.of_quiet (h : QueuesInv S C stored c) (hthreads : ThreadsInv S c')
    (hqueue : c'.data.queue = c.data.queue)
    (hleft : ∀ p, readerLeft c'.thread p = readerLeft c.thread p)
    (hlog : ∀ i, streamLog i c'.history = streamLog i c.history) : QueuesInv S C stored c' where
  threads := hthreads
  capacity := by rw [hqueue]; exact h.capacity
  bounded := by rw [hqueue]; exact h.bounded
  producers := by
    intro i
    rw [hqueue, h.producers i]
    simp only [hleft]
  order := by
    intro i
    rw [hqueue, hlog]
    exact h.order i

theorem streamSegment_queue {call : StreamCall T} (hcall : ∀ i m, call ≠ .shared (.queue i m))
    (d : StreamState T) : (streamSegment call d).data.queue = d.queue := by
  cases call with
  | shared call =>
    cases call with
    | queue i m => exact absurd rfl (hcall i m)
    | setReaderError p e | getReaderError p | setError e => rfl
  | join p =>
    simp only [streamSegment]
    split <;> rfl
  | _ => rfl

theorem QueuesInv.push (h : QueuesInv S C stored c) (hthreads : ThreadsInv S c') {p : Int} {v : T}
    {todo : List T} {error : Option S2ClientError}
    (hw : c.thread (.reader p) = .reader p (.pushing v todo error))
    (hroom : (c.data.queue (S.queueOf p)).queue.length < (c.data.queue (S.queueOf p)).capacity)
    (hd : c'.data = c.data.setQueue (S.queueOf p)
      { c.data.queue (S.queueOf p) with queue := (c.data.queue (S.queueOf p)).queue ++ [v] })
    (hth : c'.thread = Function.update c.thread (.reader p) (.reader p (.checking todo error)))
    (hh : c'.history = c.history ++
      [⟨.reader p, .shared (.queue (S.queueOf p) (.push v)), .shared (.queue .unit)⟩]) :
    QueuesInv S C stored c' := by
  have hleft : ∀ q, readerLeft c'.thread q = readerLeft c.thread q := by
    intro q
    rw [hth]
    by_cases e : q = p
    · subst e
      rw [readerLeft_eq (Function.update_self _ _ _), readerLeft_eq hw]
      rfl
    · exact readerLeft_congr (Function.update_of_ne (by simpa using e) _ _)
  constructor
  · exact hthreads
  · intro i
    rw [hd, StreamState.setQueue_queue, Function.update_apply]
    split
    · exact h.capacity _
    · exact h.capacity i
  · intro i
    rw [hd, StreamState.setQueue_queue, Function.update_apply]
    split
    · have hcap := h.capacity (S.queueOf p)
      simp only [List.length_append, List.length_singleton]
      omega
    · exact h.bounded i
  · intro i
    rw [hd, StreamState.setQueue_queue, Function.update_apply]
    simp only [hleft]
    split
    · rename_i e
      subst e
      exact h.producers _
    · exact h.producers i
  · intro i
    have horder := h.order i
    rw [hd, hh, streamLog_push, StreamState.setQueue_queue, Function.update_apply]
    by_cases e : i = S.queueOf p
    · subst e
      rw [if_pos rfl, if_pos rfl]
      simp only [QueueLog.push]
      rw [← List.append_assoc, horder, List.append_assoc]
    · rw [if_neg (Ne.symm e), if_neg e]
      exact horder

theorem QueuesInv.leave (h : QueuesInv S C stored c) (hthreads : ThreadsInv S c') {p : Int}
    (hp : p ∈ S.partitions) (hw : c.thread (.reader p) = .reader p .leaving)
    (hd : c'.data = c.data.setQueue (S.queueOf p)
      { c.data.queue (S.queueOf p) with producers := (c.data.queue (S.queueOf p)).producers - 1 })
    (hth : c'.thread = Function.update c.thread (.reader p) (.reader p .inactive))
    (hh : c'.history = c.history ++
      [⟨.reader p, .shared (.queue (S.queueOf p) (.deleteProducer p)), .shared (.queue .unit)⟩]) :
    QueuesInv S C stored c' := by
  have hleft : ∀ q, readerLeft c'.thread q = if q = p then true else readerLeft c.thread q := by
    intro q
    rw [hth]
    by_cases e : q = p
    · subst e
      rw [if_pos rfl, readerLeft_eq (Function.update_self _ _ _)]
      rfl
    · rw [if_neg e]
      exact readerLeft_congr (Function.update_of_ne (by simpa using e) _ _)
  constructor
  · exact hthreads
  · intro i
    rw [hd, StreamState.setQueue_queue, Function.update_apply]
    split
    · exact h.capacity _
    · exact h.capacity i
  · intro i
    rw [hd, StreamState.setQueue_queue, Function.update_apply]
    split
    · exact h.bounded _
    · exact h.bounded i
  · intro i
    have hcount : ((S.ids i).countP fun q => !readerLeft c.thread q) =
        ((S.ids i).countP fun q => !readerLeft c'.thread q) + if i = S.queueOf p then 1 else 0 := by
      have hone : ((S.ids i).countP fun q => decide (q = p)) = if i = S.queueOf p then 1 else 0 := by
        have hnodup : (S.ids i).Nodup := S.nodup.filter _
        have hcount : ((S.ids i).countP fun q => decide (q = p)) = (S.ids i).count p :=
          List.countP_congr fun q _ => by simp
        rw [hcount, hnodup.count]
        by_cases e : i = S.queueOf p
        · subst e
          rw [if_pos (mem_ids hp), if_pos rfl]
        · rw [if_neg e, if_neg]
          intro hmem
          exact e (of_decide_eq_true (List.mem_filter.mp hmem).2).symm
      rw [← hone]
      have hnot : readerLeft c.thread p = false := readerLeft_eq hw
      generalize S.ids i = ids
      induction ids with
      | nil => rfl
      | cons q ids ih =>
        simp only [List.countP_cons, ih, hleft]
        by_cases e : q = p
        · subst e
          simp [hnot]
          omega
        · simp only [e, if_false, decide_false, Bool.false_eq_true]
          omega
    rw [hd, StreamState.setQueue_queue, Function.update_apply]
    by_cases e : i = S.queueOf p
    · subst e
      rw [if_pos rfl] at hcount ⊢
      have hbefore := h.producers (S.queueOf p)
      simp only
      omega
    · rw [if_neg e] at hcount ⊢
      have hbefore := h.producers i
      omega
  · intro i
    have horder := h.order i
    obtain ⟨hpushed, hpopped⟩ := streamLog_delete (t := StreamId.reader (ς := ς) p) (i := i)
      (j := S.queueOf p) (p := p) (h := c.history)
    rw [hd, hh, hpushed, hpopped, StreamState.setQueue_queue, Function.update_apply]
    split
    · rename_i e
      subst e
      exact horder
    · exact horder

theorem QueuesInv.pop (h : QueuesInv S C stored c) (hthreads : ThreadsInv S c') {t : StreamId ς}
    {i : Nat} {v : T} {rest : List T}
    (hcall : (streamThreads S).call (c.thread t) = some (.shared (.queue i .pop)))
    (hq : (c.data.queue i).queue = v :: rest)
    (hd : c'.data = c.data.setQueue i { c.data.queue i with queue := rest })
    (hth : c'.thread = Function.update c.thread t
      ((streamThreads S).after (c.thread t) (.shared (.queue (.value v)))))
    (hh : c'.history = c.history ++
      [⟨t, .shared (.queue i .pop), .shared (.queue (.value v))⟩]) : QueuesInv S C stored c' := by
  have hleft : ∀ q, readerLeft c'.thread q = readerLeft c.thread q := by
    intro q
    rw [hth]
    exact readerLeft_update hcall (by simp) q
  constructor
  · exact hthreads
  · intro j
    rw [hd, StreamState.setQueue_queue, Function.update_apply]
    split
    · exact h.capacity _
    · exact h.capacity j
  · intro j
    rw [hd, StreamState.setQueue_queue, Function.update_apply]
    split
    · have hbounded := h.bounded i
      rw [hq, List.length_cons] at hbounded
      exact Nat.le_of_succ_le hbounded
    · exact h.bounded j
  · intro j
    rw [hd, StreamState.setQueue_queue, Function.update_apply]
    simp only [hleft]
    split
    · rename_i e
      subst e
      exact h.producers _
    · exact h.producers j
  · intro j
    have horder := h.order j
    rw [hd, hh, streamLog_value, StreamState.setQueue_queue, Function.update_apply]
    by_cases e : j = i
    · subst e
      rw [if_pos rfl, if_pos rfl]
      simp only [QueueLog.pop]
      rw [horder, hq]
      simp
    · rw [if_neg (Ne.symm e), if_neg e]
      exact horder

theorem QueuesInv.step (h : QueuesInv S C stored c) {t : StreamId ς}
    (hs : Step streamMonitor (streamThreads S) c t c') : QueuesInv S C stored c' := by
  have hthreads := h.threads.step hs
  cases h.threads.step_cases hs with
  | idle hd hth hh =>
    exact h.of_quiet hthreads (by rw [hd]) (fun p => by rw [hth]) (fun i => by rw [hh])
  | push v todo error _ hw hroom hd hth hh => exact h.push hthreads hw hroom hd hth hh
  | leave hp hw hd hth hh => exact h.leave hthreads hp hw hd hth hh
  | pop i v rest hcall hq hd hth hh => exact h.pop hthreads hcall hq hd hth hh
  | throw i hcall _ _ hd hth hh =>
    refine h.of_quiet hthreads (by rw [hd]) (fun p => ?_) (fun j => ?_)
    · rw [hth]
      exact readerLeft_update hcall (by simp) p
    · rw [hh]
      exact streamLog_throw
  | plain call r hcall hplain _ hd hth hh =>
    refine h.of_quiet hthreads ?_ (fun p => ?_) (fun i => ?_)
    · rw [hd, streamSegment_queue hplain]
    · rw [hth]
      exact readerLeft_update hcall (fun i p => hplain i _) p
    · rw [hh]
      exact streamLog_plain hplain

theorem QueuesInv.reachable {c₀ : StreamConfig T ς} (h₀ : QueuesInv S C stored c₀)
    (h : Reachable streamMonitor (streamThreads S) c₀ c) : QueuesInv S C stored c :=
  h.invariant h₀ fun _ _ _ hI hs => hI.step hs

omit [DecidableEq ς] in
theorem QueuesInv.left_of_zero (h : QueuesInv S C stored c) {i : Nat}
    (hzero : (c.data.queue i).producers = 0) {p : Int} (hp : p ∈ S.partitions)
    (hqueue : S.queueOf p = i) : readerLeft c.thread p = true := by
  have hcount := h.producers i
  rw [hzero] at hcount
  have hnone := List.countP_eq_zero.mp (Int.natCast_eq_zero.mp hcount.symm)
  subst hqueue
  simpa using hnone p (mem_ids hp)

end SasLibclient
