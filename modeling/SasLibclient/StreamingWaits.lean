import SasLibclient.StreamingShutdown

/-!
# The sleepers of a streaming read

Who sleeps on which condition variable, with readers, consumers and the
destructor running: a sleeper keeps its reason, only `Push`, `Pop` and `join`
wait, and the free places of a queue are covered by readers that were woken.
-/

namespace SasLibclient

open Monitors

variable {T ς : Type} {S : StreamSetup T} {C : Nat} {stored : Nat → List T} {c c' : StreamConfig T ς}

def streamReason : StreamCall T → StreamCV → StreamState T → Prop
  | .shared (.queue i (.push _)), cv, _ => cv = .queue i .fullCV
  | .shared (.queue i .pop), cv, d => cv = .queue i .emptyCV ∧ (d.queue i).producers ≠ 0
  | .join p, cv, d => cv = .ended p ∧ d.ended p = false
  | _, _, _ => False

/-- The calls that may wait. -/
def streamWaits : StreamCall T → Prop
  | .shared (.queue _ (.push _)) | .shared (.queue _ .pop) | .join _ => True
  | _ => False

/-- When `m_producers` of a queue becomes zero, its `m_emptyCV` is notified. -/
theorem streamSegment_producers (call : StreamCall T) (d : StreamState T) (i : Nat) :
    ((streamSegment call d).data.queue i).producers = (d.queue i).producers ∨
      ((streamSegment call d).data.queue i).producers ≠ 0 ∨
      Signal.all (.queue i .emptyCV) ∈ (streamSegment call d).signals := by
  by_cases hqueue : ∃ j m, call = .shared (.queue j m)
  · obtain ⟨j, m, rfl⟩ := hqueue
    simp only [streamSegment, onStream, StreamState.setQueue_queue, Function.update_apply]
    by_cases e : i = j
    · subst e
      simp only [if_true]
      refine (ThreadSafeSimpleQueue.segment_producers m (d.queue i)).imp_right (Or.imp_right ?_)
      intro hall
      exact List.mem_map.mpr ⟨_, hall, rfl⟩
    · rw [if_neg e]
      exact Or.inl rfl
  · left
    rw [streamSegment_queue fun j m e => hqueue ⟨j, m, e⟩]

theorem streamSegment_ended (call : StreamCall T) (d : StreamState T) (p : Int) :
    (streamSegment call d).data.ended p = d.ended p ∨
      Signal.all (.ended p) ∈ (streamSegment call d).signals := by
  cases call with
  | endThread q =>
    by_cases e : p = q
    · subst e
      right
      simp [streamSegment]
    · left
      simp [streamSegment, e]
  | shared call => cases call <;> exact Or.inl rfl
  | join q =>
    left
    simp only [streamSegment]
    split <;> rfl
  | _ => exact Or.inl rfl

variable [DecidableEq ς]

theorem stream_reason_step {t : StreamId ς} (hr : SleepReason (streamThreads S) streamReason c)
    (hs : Step streamMonitor (streamThreads S) c t c') :
    SleepReason (streamThreads S) streamReason c' := by
  refine hr.step hs ?_ ?_
  · intro call seg cv hcall hseg hexit
    obtain rfl := streamMonitor_segment hseg
    obtain ⟨hdata, -, hwaits⟩ := streamSegment_wait hexit
    rw [hdata]
    rcases hwaits with ⟨i, v, rfl, rfl, _⟩ | ⟨i, rfl, rfl, _, hne⟩ | ⟨p, rfl, rfl, hended⟩
    · rfl
    · exact ⟨rfl, hne⟩
    · exact ⟨rfl, hended⟩
  · intro call seg hcall hseg t' call' cv _ _ _ hno hW
    obtain rfl := streamMonitor_segment hseg
    match call', hW with
    | .shared (.queue i (.push _)), hW => exact hW
    | .shared (.queue i .pop), ⟨hcv, hne⟩ =>
      subst hcv
      refine ⟨rfl, ?_⟩
      rcases streamSegment_producers call c.data i with hsame | hne' | hall
      · rw [hsame]
        exact hne
      · exact hne'
      · exact absurd hall hno
    | .join p, ⟨hcv, hended⟩ =>
      subst hcv
      refine ⟨rfl, ?_⟩
      rcases streamSegment_ended call c.data p with hsame | hall
      · rw [hsame]
        exact hended
      · exact absurd hall hno

/-- Only `Push`, `Pop` and `join` wait. -/
theorem stream_inCall_step {t : StreamId ς} (hin : OnlyInCall (streamThreads S) streamWaits c)
    (hs : Step streamMonitor (streamThreads S) c t c') :
    OnlyInCall (streamThreads S) streamWaits c' := by
  refine hin.step hs ?_
  intro call seg cv hcall hseg hexit
  obtain rfl := streamMonitor_segment hseg
  rcases (streamSegment_wait hexit).2.2 with ⟨i, v, rfl, _⟩ | ⟨i, rfl, _⟩ | ⟨p, rfl, _⟩ <;> trivial

omit [DecidableEq ς] in
/-- A reader waits in `Push` only. -/
theorem reader_waits {p : Int} {state : ReaderState T} {call : StreamCall T}
    (hcall : state.call S p = some call) (hwaits : streamWaits call) :
    ∃ v todo error, state = .pushing v todo error ∧
      call = .shared (.queue (S.queueOf p) (.push v)) := by
  cases state with
  | pushing v todo error => exact ⟨v, todo, error, rfl, (Option.some.inj hcall).symm⟩
  | ended => cases hcall
  | _ =>
    obtain rfl := Option.some.inj hcall
    exact hwaits.elim

omit [DecidableEq ς] in
theorem QueuesInv.sleeper (h : QueuesInv S C stored c)
    (hr : SleepReason (streamThreads S) streamReason c) {t : StreamId ς} {cv : StreamCV}
    (ht : c.status t = .asleep cv) :
    (∃ p v todo error, t = .reader p ∧ p ∈ S.partitions ∧ cv = .queue (S.queueOf p) .fullCV ∧
      c.thread t = .reader p (.pushing v todo error)) ∨
    (∃ i, cv = .queue i .emptyCV ∧ (c.data.queue i).producers ≠ 0 ∧
      ((∃ s, t = .consumer s ∧ c.thread t = .consumer i .popping) ∨
        t = .destructor ∧ c.thread t = .destructor (.draining i .popping))) ∨
    ∃ p ps, t = .destructor ∧ cv = .ended p ∧ c.data.ended p = false ∧
      c.thread t = .destructor (.joining (p :: ps)) := by
  obtain ⟨call, hcall, hW⟩ := hr t cv ht
  match call, hcall, hW with
  | .shared (.queue i (.push v)), hcall, hW =>
    rcases h.threads.queue_call hcall with ⟨p, v', todo, error, rfl, hp, rfl, _, hw⟩ |
      ⟨_, _, _, _, hno, _⟩ | ⟨hno, _⟩
    · exact Or.inl ⟨p, v', todo, error, rfl, hp, hW, hw⟩
    · cases hno
    · cases hno
  | .shared (.queue i .pop), hcall, ⟨hcv, hne⟩ =>
    exact Or.inr (Or.inl ⟨i, hcv, hne, h.threads.pop_call hcall⟩)
  | .join p, hcall, ⟨hcv, hended⟩ =>
    right; right
    cases t with
    | reader q =>
      rcases h.threads.reader q with ⟨_, state, hw⟩ | ⟨_, hw⟩
      · rw [hw] at hcall
        obtain ⟨_, _, _, _, hno⟩ := reader_waits (S := S) (p := q) hcall trivial
        cases hno
      · rw [hw] at hcall
        cases hcall
    | consumer s =>
      rcases h.threads.consumer s with ⟨i, state, hw⟩ | hw
      · rw [hw] at hcall
        rcases state with _ | ⟨_ | _, _⟩ | _ <;>
          simp [streamThreads, GetState.call] at hcall
      · rw [hw] at hcall
        cases hcall
    | destructor =>
      rcases h.threads.destructor with hw | ⟨stage, hw⟩
      · rw [hw] at hcall
        cases hcall
      · rw [hw] at hcall ⊢
        rcases stage_call hcall (by simp) with ⟨_, _, _, _, hno⟩ | ⟨_, _, _, _, hno⟩ | ⟨_, _, _, hno⟩ |
          ⟨_, _, _, _, _, hno⟩ | ⟨_, _, _, hno⟩ | ⟨_, _, _, hno⟩ | ⟨_, _, hno⟩ | ⟨_, hno⟩ |
          ⟨q, ps, rfl, hq⟩
        case inr.inr.inr.inr.inr.inr.inr.inr =>
          obtain rfl := StreamCall.join.inj hq
          exact ⟨p, ps, rfl, hcv, hended, rfl⟩
        all_goals cases hno

/-! ## Free places -/

/-- The readers of a queue. -/
def queueReaders (S : StreamSetup T) (i : Nat) : Finset (StreamId ς) :=
  (S.ids i).toFinset.image .reader

/-- The free places of a queue. -/
def freePlaces (C i : Nat) (d : StreamState T) : Int := C - (d.queue i).queue.length

theorem mem_queueReaders {t : StreamId ς} {i : Nat} :
    t ∈ queueReaders S i ↔ ∃ p ∈ S.partitions, S.queueOf p = i ∧ t = .reader p := by
  simp only [queueReaders, StreamSetup.ids, Finset.mem_image, List.mem_toFinset, List.mem_filter,
    decide_eq_true_eq]
  constructor
  · rintro ⟨p, ⟨hp, hqueue⟩, rfl⟩
    exact ⟨p, hp, hqueue, rfl⟩
  · rintro ⟨p, hp, hqueue, rfl⟩
    exact ⟨p, ⟨hp, hqueue⟩, rfl⟩

omit [DecidableEq ς] in
/-- What a segment does to the chunks of a queue, and on which of the condition
variables of the queue it waits. -/
theorem streamSegment_items (call : StreamCall T) (d : StreamState T) (i : Nat) :
    (∃ v, call = .shared (.queue i (.push v)) ∧
      ((streamSegment call d).data = d ∧ (d.queue i).capacity ≤ (d.queue i).queue.length ∧
          (streamSegment call d).exit = .wait (.queue i .fullCV) ∨
        ((streamSegment call d).data.queue i).queue = (d.queue i).queue ++ [v] ∧
          Signal.one (.queue i .emptyCV) ∈ (streamSegment call d).signals ∧
          (streamSegment call d).exit = .ret (.shared (.queue .unit)))) ∨
    (call = .shared (.queue i .pop) ∧
      ((streamSegment call d).data = d ∧ (d.queue i).queue = [] ∧
          (streamSegment call d).exit ≠ .wait (.queue i .fullCV) ∨
        ∃ v, (d.queue i).queue = v :: ((streamSegment call d).data.queue i).queue ∧
          Signal.one (.queue i .fullCV) ∈ (streamSegment call d).signals ∧
          (streamSegment call d).exit = .ret (.shared (.queue (.value v))))) ∨
    (∀ v, call ≠ .shared (.queue i (.push v))) ∧ call ≠ .shared (.queue i .pop) ∧
      ((streamSegment call d).data.queue i).queue = (d.queue i).queue ∧
      (streamSegment call d).exit ≠ .wait (.queue i .fullCV) := by
  have hother : (∀ v, call ≠ .shared (.queue i (.push v))) →
      (streamSegment call d).exit ≠ .wait (.queue i .fullCV) := by
    intro hnot hexit
    rcases (streamSegment_wait hexit).2.2 with ⟨j, v, rfl, hcv, _⟩ | ⟨_, _, hcv, _⟩ | ⟨_, _, hcv, _⟩
    · obtain rfl := (StreamCV.queue.inj hcv).1
      exact hnot v rfl
    · cases (StreamCV.queue.inj hcv).2
    · cases hcv
  by_cases hqueue : ∃ j m, call = .shared (.queue j m)
  · obtain ⟨j, m, rfl⟩ := hqueue
    by_cases e : i = j
    · subst e
      cases m with
      | push v =>
        refine Or.inl ⟨v, rfl, ?_⟩
        rcases ThreadSafeSimpleQueue.push_items v (d.queue i) with ⟨hd, hsig, hexit, hfull⟩ |
          ⟨hd, hsig, hexit⟩
        · left
          simp [streamSegment, onStream, ThreadSafeSimpleQueue.segment, hd, hexit, streamExit,
            setQueue_self, hfull]
        · right
          simp [streamSegment, onStream, ThreadSafeSimpleQueue.segment, hd, hsig, hexit, streamExit,
            StreamState.setQueue_queue, streamSignal]
      | pop =>
        refine Or.inr (Or.inl ⟨rfl, ?_⟩)
        have hfull := hother (by simp)
        rcases ThreadSafeSimpleQueue.pop_items (d.queue i) with ⟨hq, hd, _⟩ |
          ⟨v, rest, hq, hd, hsig, hexit⟩
        · left
          refine ⟨?_, hq, hfull⟩
          simp [streamSegment, onStream, ThreadSafeSimpleQueue.segment, hd, setQueue_self]
        · right
          refine ⟨v, ?_⟩
          simp [streamSegment, onStream, ThreadSafeSimpleQueue.segment, hd, hsig, hexit, streamExit,
            StreamState.setQueue_queue, streamSignal, hq]
      | get p v | deleteProducer p =>
        refine Or.inr (Or.inr ⟨by simp, by simp, ?_, hother (by simp)⟩)
        simp [streamSegment, onStream, ThreadSafeSimpleQueue.segment, ThreadSafeSimpleQueue.get,
          ThreadSafeSimpleQueue.deleteProducer, StreamState.setQueue_queue]
    · have hnot : ∀ v, (.shared (.queue j m) : StreamCall T) ≠ .shared (.queue i (.push v)) := by
        rintro v ⟨⟩
        exact e rfl
      refine Or.inr (Or.inr ⟨hnot, ?_, ?_, hother hnot⟩)
      · rintro ⟨⟩
        exact e rfl
      · simp [streamSegment, onStream, StreamState.setQueue_queue, Function.update_of_ne e]
  · have hplain : ∀ j m, call ≠ .shared (.queue j m) := fun j m e => hqueue ⟨j, m, e⟩
    refine Or.inr (Or.inr ⟨fun v => hplain i _, hplain i _, ?_, hother fun v => hplain i _⟩)
    rw [streamSegment_queue hplain]

theorem QueuesInv.places_step (h : QueuesInv S C stored c)
    (hr : SleepReason (streamThreads S) streamReason c)
    (hin : OnlyInCall (streamThreads S) streamWaits c) {i : Nat}
    (hp : Handed (queueReaders S i) (.queue i .fullCV) (freePlaces C i) c) {t : StreamId ς}
    (hs : Step streamMonitor (streamThreads S) c t c') :
    Handed (queueReaders S i) (.queue i .fullCV) (freePlaces C i) c' := by
  refine hp.step hs (fun u hu => ?_) ?_
  · rcases h.sleeper hr hu with ⟨p, _, _, _, rfl, hmem, hcv, _⟩ | ⟨_, hcv, _⟩ | ⟨_, _, _, hcv, _⟩
    · exact mem_queueReaders.mpr ⟨p, hmem, (StreamCV.queue.inj hcv).1.symm, rfl⟩
    · cases (StreamCV.queue.inj hcv).2
    · cases hcv
  · intro call seg hcall hseg
    obtain rfl := streamMonitor_segment hseg
    have htakes : (if t ∈ queueReaders S i ∧ c.status t = .woken then (1 : Int) else 0) ≤ 1 := by
      split <;> decide
    rcases streamSegment_items call c.data i with
      ⟨v, rfl, ⟨hd, hfull, _⟩ | ⟨hq, _, hexit⟩⟩ | ⟨rfl, hpop⟩ | ⟨hpush, _, hq, hexit⟩
    · left
      have hcap := h.capacity i
      rw [hd, freePlaces]
      omega
    · right
      refine ⟨by simp [hexit], ?_⟩
      simp only [freePlaces, hq, List.length_append, List.length_singleton]
      push_cast
      split <;> omega
    · -- a thread in `Pop` is no reader
      have hreader : t ∉ queueReaders S i := by
        intro hmem
        obtain ⟨p, _, _, rfl⟩ := mem_queueReaders.mp hmem
        rcases h.threads.pop_call hcall with ⟨_, hno, _⟩ | ⟨hno, _⟩ <;> cases hno
      right
      rcases hpop with ⟨hd, _, hexit⟩ | ⟨v, hq, hsig, hexit⟩
      · refine ⟨hexit, ?_⟩
        rw [hd]
        simp only [hreader, false_and, if_false]
        split <;> omega
      · refine ⟨by simp [hexit], ?_⟩
        simp only [hreader, false_and, if_false, freePlaces, hq, List.length_cons, if_pos hsig]
        push_cast
        omega
    · right
      -- a reader that was woken is in `Push`
      have hready : ¬ (t ∈ queueReaders S i ∧ c.status t = .woken) := by
        rintro ⟨hmem, hwoken⟩
        obtain ⟨p, _, rfl, rfl⟩ := mem_queueReaders.mp hmem
        obtain ⟨call', hcall', hwaits⟩ := hin (.reader p) (by rw [hwoken]; simp)
        rw [hcall] at hcall'
        obtain rfl := Option.some.inj hcall'
        rcases h.threads.reader p with ⟨_, state, hw⟩ | ⟨_, hw⟩
        · rw [hw] at hcall
          obtain ⟨v, _, _, _, rfl⟩ := reader_waits (S := S) hcall hwaits
          exact hpush v rfl
        · rw [hw] at hcall
          cases hcall
      refine ⟨hexit, ?_⟩
      rw [if_neg hready, freePlaces, freePlaces, hq]
      split <;> omega

/-! ## The waits of all interleavings -/

/-- Who sleeps and why. -/
structure WaitsInv (S : StreamSetup T) (C : Nat) (c : StreamConfig T ς) : Prop where
  reason : SleepReason (streamThreads S) streamReason c
  inCall : OnlyInCall (streamThreads S) streamWaits c
  places : ∀ i, Handed (queueReaders S i) (.queue i .fullCV) (freePlaces C i) c

theorem WaitsInv.start (consumerOf : ς → Nat) : WaitsInv S C (streamStart S C consumerOf) where
  reason := .start fun _ => rfl
  inCall := .start fun _ => rfl
  places := fun _ => .start fun _ => rfl

theorem WaitsInv.step (h : WaitsInv S C c) (hqueues : QueuesInv S C stored c) {t : StreamId ς}
    (hs : Step streamMonitor (streamThreads S) c t c') : WaitsInv S C c' where
  reason := stream_reason_step h.reason hs
  inCall := stream_inCall_step h.inCall hs
  places := fun i => hqueues.places_step h.reason h.inCall (h.places i) hs

/-- The destructor sleeps on the `m_emptyCV` of a queue only while it is empty. -/
def EmptyAsleep (c : StreamConfig T ς) : Prop :=
  ∀ i, c.status .destructor = .asleep (.queue i .emptyCV) → (c.data.queue i).queue = []

/-- `Push` wakes the destructor, the only thread that still pops. -/
theorem EmptyAsleep.step (h : EmptyAsleep c) (hqueues : QueuesInv S C stored c)
    (hwaits : WaitsInv S C c) (hconsumers : ∀ s, c.thread (.consumer s) = .absent) {t : StreamId ς}
    (hs : Step streamMonitor (streamThreads S) c t c') : EmptyAsleep c' := by
  intro i hasleep
  cases hs with
  | @wait call seg st cv hcall hseg hdel hexit =>
    obtain rfl := streamMonitor_segment hseg
    obtain ⟨hdata, hsig, hwhat⟩ := streamSegment_wait hexit
    simp only at hasleep ⊢
    rw [hdata]
    by_cases e : StreamId.destructor = t
    · subst e
      rw [Function.update_self] at hasleep
      obtain rfl := Status.asleep.inj hasleep
      rcases hwhat with ⟨_, _, _, hcv, _⟩ | ⟨j, _, hcv, hq, _⟩ | ⟨_, _, hcv, _⟩
      · cases (StreamCV.queue.inj hcv).2
      · rw [(StreamCV.queue.inj hcv).1]
        exact hq
      · cases hcv
    · rw [Function.update_of_ne e] at hasleep
      exact h i (hdel.asleep hasleep).1
  | @ret call seg st r hcall hseg hdel hexit =>
    obtain rfl := streamMonitor_segment hseg
    simp only at hasleep ⊢
    by_cases e : StreamId.destructor = t
    · subst e
      rw [Function.update_self] at hasleep
      cases hasleep
    · rw [Function.update_of_ne e] at hasleep
      have hbefore := h i (hdel.asleep hasleep).1
      rcases streamSegment_items call c.data i with
        ⟨v, rfl, ⟨hd, _⟩ | ⟨_, hone, _⟩⟩ | ⟨_, ⟨hd, _⟩ | ⟨v, hq, _⟩⟩ | ⟨_, _, hq, _⟩
      · rw [hd]
        exact hbefore
      · -- the destructor is the only sleeper
        refine absurd hasleep (hdel.wakes_sole hone fun u hu => ?_)
        rcases hqueues.sleeper hwaits.reason hu with ⟨_, _, _, _, _, _, hcv, _⟩ |
          ⟨_, _, _, ⟨s, rfl, hw⟩ | ⟨rfl, _⟩⟩ | ⟨_, _, rfl, _⟩
        · cases (StreamCV.queue.inj hcv).2
        · rw [hconsumers s] at hw
          cases hw
        · rfl
        · rfl
      · rw [hd]
        exact hbefore
      · rw [hbefore] at hq
        cases hq
      · rw [hq]
        exact hbefore
  | @spurious cv hwas =>
    simp only at hasleep ⊢
    by_cases e : StreamId.destructor = t
    · subst e
      rw [Function.update_self] at hasleep
      cases hasleep
    · rw [Function.update_of_ne e] at hasleep
      exact h i hasleep

end SasLibclient
