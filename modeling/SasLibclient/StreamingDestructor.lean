import SasLibclient.StreamingShutdown

/-!
# What the destructor of a streaming queue leaves behind

The reads before the destructor start it in a state in which `ShutdownInv`
holds. From there, in every interleaving with the readers: every chunk that no
consumer has received is freed once, nothing is used after it was deleted, and
what a reader still does is bounded whatever it has left to read.
-/

namespace SasLibclient

open Monitors

variable {T ς : Type} {S : StreamSetup T} {C : Nat} {stored : Nat → List T}
  {c c' d : StreamConfig T ς}

/-! ## Before the destructor -/

/-- The invariant while the consumers read. -/
structure ServingInv (S : StreamSetup T) (C : Nat) (c : StreamConfig T ς) : Prop where
  queues : QueuesInv S C (fun _ => []) c
  stopping : StoppingInv c
  destructor : c.thread .destructor = .absent
  running : ∀ p, c.data.stopReading p = false
  undeleted : ∀ i, c.data.queueDeleted i = false
  schema : c.data.rowSchemaFreed = false

theorem ServingInv.start (consumerOf : ς → Nat) : ServingInv S C (streamStart S C consumerOf) where
  queues := QueuesInv.start consumerOf
  stopping := by
    refine ⟨?_, fun _ => rfl, fun p hp => by cases hp⟩
    intro p
    simp only [streamStart, Bool.false_eq_true, false_iff]
    split
    · rename_i hp
      intro hended
      have hbegins := S.begins p hp
      rw [(StreamThread.reader.inj hended).2] at hbegins
      exact hbegins
    · simp
  destructor := rfl
  running := fun _ => rfl
  undeleted := fun _ => rfl
  schema := rfl

variable [DecidableEq ς]

omit [DecidableEq ς] in
/-- What a plain call of a consumer does: `Get` collects errors. -/
theorem consumer_call {i : Nat} {state : GetState} {call : StreamCall T} {r : StreamResult T}
    (hcall : ((state.call i).map .shared : Option (StreamCall T)) = some call)
    (hplain : ∀ i m, call ≠ .shared (.queue i m)) (t : StreamId ς) (d : StreamState T) :
    let d' := (streamSegment call d).data
    d'.ended = d.ended ∧ d'.stopReading = d.stopReading ∧ d'.queueDeleted = d.queueDeleted ∧
      d'.rowSchemaFreed = d.rowSchemaFreed ∧
      ∀ p, stops p (⟨t, call, r⟩ : Event (StreamId ς) _ _) = false ∧
        pushesBy p (⟨t, call, r⟩ : Event (StreamId ς) _ _) = false := by
  rcases state with _ | ⟨_ | ⟨q, rs⟩, err⟩ | err
  · simp only [GetState.call, Option.map_some, Option.some.injEq] at hcall
    exact absurd hcall.symm (hplain _ _)
  · simp [GetState.call] at hcall
  · simp only [GetState.call, Option.map_some, Option.some.injEq] at hcall
    subst hcall
    exact ⟨rfl, rfl, rfl, rfl, fun p => ⟨rfl, by cases t <;> rfl⟩⟩
  · simp only [GetState.call, Option.map_some, Option.some.injEq] at hcall
    subst hcall
    exact ⟨rfl, rfl, rfl, rfl, fun p => ⟨rfl, by cases t <;> rfl⟩⟩

/-- **Every step of the reading phase keeps the invariant.** -/
theorem ServingInv.step (h : ServingInv S C c) {t : StreamId ς}
    (hs : Step streamMonitor (streamThreads S) c t c') : ServingInv S C c' := by
  have hqueues := h.queues.step hs
  -- the destructor makes no call
  have hother : ∀ {w : StreamThread T}, t ≠ .destructor →
      c'.thread = Function.update c.thread t w → c'.thread .destructor = .absent := by
    intro w hne hth
    rw [hth, Function.update_of_ne (Ne.symm hne)]
    exact h.destructor
  cases h.queues.threads.step_cases hs with
  | idle hd hth hh =>
    refine ⟨hqueues, ?_, by rw [hth]; exact h.destructor, by rw [hd]; exact h.running,
      by rw [hd]; exact h.undeleted, by rw [hd]; exact h.schema⟩
    exact h.stopping.of_quiet (by rw [hd, hth]; exact h.stopping.ended) (by rw [hd])
      (fun p _ => by rw [hth]) fun p => by rw [hh]; exact ⟨rfl, rfl⟩
  | push v todo error hp hw hroom hd hth hh =>
    exact ⟨hqueues, h.stopping.push hw hd hth hh, hother (by simp) hth, by rw [hd]; exact h.running,
      by rw [hd]; exact h.undeleted, by rw [hd]; exact h.schema⟩
  | leave hp hw hd hth hh =>
    exact ⟨hqueues, h.stopping.leave hw hd hth hh, hother (by simp) hth, by rw [hd]; exact h.running,
      by rw [hd]; exact h.undeleted, by rw [hd]; exact h.schema⟩
  | pop i v rest hcall hq hd hth hh =>
    rcases h.queues.threads.pop_call hcall with ⟨s, rfl, hw⟩ | ⟨rfl, hw⟩
    · refine ⟨hqueues, ?_, hother (by simp) hth, by rw [hd]; exact h.running,
        by rw [hd]; exact h.undeleted, by rw [hd]; exact h.schema⟩
      exact h.stopping.of_other (by rw [hd]; rfl) (by rw [hd]; rfl)
        (fun p => by rw [hth, Function.update_of_ne (by simp)]) hh fun p => ⟨rfl, rfl⟩
    · rw [h.destructor] at hw
      cases hw
  | throw i hcall hq hzero hd hth hh =>
    rcases h.queues.threads.pop_call hcall with ⟨s, rfl, hw⟩ | ⟨rfl, hw⟩
    · refine ⟨hqueues, ?_, hother (by simp) hth, by rw [hd]; exact h.running,
        by rw [hd]; exact h.undeleted, by rw [hd]; exact h.schema⟩
      exact h.stopping.of_other (by rw [hd]) (by rw [hd])
        (fun p => by rw [hth, Function.update_of_ne (by simp)]) hh fun p => ⟨rfl, rfl⟩
    · rw [h.destructor] at hw
      cases hw
  | @plain t _ call r hcall hplain hexit hd hth hh =>
    cases t with
    | reader p =>
      rcases h.queues.threads.reader p with ⟨_, state, hw⟩ | ⟨_, hw⟩
      · rw [hw] at hcall hth
        have heffect := readerCall (ς := ς) hcall hplain hexit
        rw [← hd] at heffect
        exact ⟨hqueues, h.stopping.reader hw hcall hplain hexit hd hth hh, hother (by simp) hth,
          by rw [heffect.stopReading]; exact h.running,
          by rw [heffect.queueDeleted]; exact h.undeleted,
          by rw [heffect.rowSchemaFreed]; exact h.schema⟩
      · rw [hw] at hcall
        cases hcall
    | consumer s =>
      rcases h.queues.threads.consumer s with ⟨i, state, hw⟩ | hw
      · rw [hw] at hcall
        obtain ⟨hended, hstop, hdeleted, hschema, hquiet⟩ :=
          consumer_call (r := r) hcall hplain (StreamId.consumer s) c.data
        rw [← hd] at hended hstop hdeleted hschema
        refine ⟨hqueues, ?_, hother (by simp) hth, by rw [hstop]; exact h.running,
          by rw [hdeleted]; exact h.undeleted, by rw [hschema]; exact h.schema⟩
        exact h.stopping.of_other hended hstop
          (fun p => by rw [hth, Function.update_of_ne (by simp)]) hh hquiet
      · rw [hw] at hcall
        cases hcall
    | destructor =>
      rw [h.destructor] at hcall
      cases hcall

theorem ServingInv.reachable {consumerOf : ς → Nat}
    (h : Reachable streamMonitor (streamThreads S) (streamStart S C consumerOf) c) :
    ServingInv S C c :=
  h.invariant (ServingInv.start consumerOf) fun _ _ _ hI hs => hI.step hs

omit [DecidableEq ς] in
theorem ServingInv.shutdown (h : ServingInv S C c) :
    ShutdownInv S C (fun i => (c.data.queue i).queue) (shutdownStart S c) where
  queues := h.queues.shutdown
  consumers := fun _ => rfl
  stopping := ⟨h.stopping.ended, h.running, fun p hp => by
    have hrun := h.running p
    rw [show c.data.stopReading p = true from hp] at hrun
    cases hrun⟩
  stage := by
    have hfresh : Fresh (shutdownStart S c) := ⟨h.undeleted, h.schema, rfl, fun _ => rfl⟩
    exact ⟨_, rfl, hfresh.stop fun p hp => Or.inr hp⟩
  count := by
    intro i
    simp only [shutdownStart, streamLog, sharedEvents, logOf, queueEvents, List.filterMap_nil,
      popped_nil, List.length_nil, Nat.zero_add]
    exact le_trans (h.queues.bounded i) (Nat.le_add_right _ _)

theorem ShutdownInv.reachable {consumerOf : ς → Nat}
    (hserve : Reachable streamMonitor (streamThreads S) (streamStart S C consumerOf) c)
    (h : Reachable streamMonitor (streamThreads S) (shutdownStart S c) d) :
    ShutdownInv S C (fun i => (c.data.queue i).queue) d :=
  h.invariant (ServingInv.reachable hserve).shutdown fun _ _ _ hI hs => hI.step hs

/-! ## Nothing is used after it was deleted -/

/-- No thread is in a call on a queue, or reads the row schema, or deletes one
of them, after it was deleted. -/
structure NoUseAfterFree (S : StreamSetup T) (c : StreamConfig T ς) : Prop where
  queue : ∀ t i m, (streamThreads S).call (c.thread t) = some (.shared (.queue i m)) →
    c.data.queueDeleted i = false
  schema : ∀ t, (streamThreads S).call (c.thread t) = some .nextChunk →
    c.data.rowSchemaFreed = false
  deleteQueue : ∀ t i, (streamThreads S).call (c.thread t) = some (.deleteQueue i) →
    c.data.queueDeleted i = false
  rowSchemaFree : ∀ t, (streamThreads S).call (c.thread t) = some .rowSchemaFree →
    c.data.rowSchemaFreed = false

omit [DecidableEq ς] in
/-- The queues of the readers that have not left are not deleted, and neither
is the row schema. -/
theorem StageInv.not_deleted {stage : Stage T} (h : StageInv S stage c) {p : Int}
    (hp : p ∈ S.partitions) (hrun : readerLeft c.thread p = false) :
    c.data.queueDeleted (S.queueOf p) = false ∧ c.data.rowSchemaFreed = false := by
  have hnot : ¬ S.queueOf p < stage.drained S := by
    intro hlt
    have hgone := (h.drained _ hlt).2 p hp rfl
    rw [hrun] at hgone
    cases hgone
  have hle : stage.deleted S ≤ stage.drained S := by
    rcases stage with _ | _ | _ | ⟨i, _ | _ | _⟩ | _ | _ | _ | _ | _ <;>
      simp only [Stage.deleted, Stage.drained] <;> omega
  refine ⟨?_, ?_⟩
  · rw [h.deleted]
    exact decide_eq_false (fun hlt => hnot (lt_of_lt_of_le hlt hle))
  · rw [h.schema]
    cases stage with
    | joining readers => exact absurd (S.queueOf_lt p hp) hnot
    | done => exact absurd (S.queueOf_lt p hp) hnot
    | _ => rfl

omit [DecidableEq ς] in
theorem ShutdownInv.noUseAfterFree (h : ShutdownInv S C stored c) : NoUseAfterFree S c := by
  obtain ⟨stage, hw, hI⟩ := h.stage
  -- the stage of a call that only the destructor makes
  have hdestructor : ∀ t call, (streamThreads S).call (c.thread t) = some call →
      (∀ p (state : ReaderState T), state.call S p ≠ some call) → stage.call = some call := by
    intro t call hcall hno
    cases t with
    | reader p =>
      rcases h.queues.threads.reader p with ⟨_, state, hth⟩ | ⟨_, hth⟩
      · rw [hth] at hcall
        exact absurd hcall (hno p state)
      · rw [hth] at hcall
        cases hcall
    | consumer s =>
      rw [h.consumers s] at hcall
      cases hcall
    | destructor =>
      rw [hw] at hcall
      exact hcall
  constructor
  · intro t i m hcall
    rcases h.queues.threads.queue_call hcall with ⟨p, v, todo, error, rfl, hp, rfl, rfl, hth⟩ |
      ⟨p, rfl, hp, rfl, rfl, hth⟩ | ⟨rfl, ⟨s, rfl, hth⟩ | ⟨rfl, hth⟩⟩
    · exact (hI.not_deleted hp (readerLeft_eq hth)).1
    · exact (hI.not_deleted hp (readerLeft_eq hth)).1
    · rw [h.consumers s] at hth
      cases hth
    · rw [hw] at hth
      obtain rfl := StreamThread.destructor.inj hth
      rw [hI.deleted]
      simp [Stage.deleted]
  · intro t hcall
    cases t with
    | reader p =>
      rcases h.queues.threads.reader p with ⟨hp, state, hth⟩ | ⟨_, hth⟩
      · have hleft : state.hasLeft = false := by
          rw [hth] at hcall
          cases state with
          | filling todo error => rfl
          | _ => simp [streamThreads, ReaderState.call] at hcall
        exact (hI.not_deleted hp (by rw [readerLeft_eq hth, hleft])).2
      · rw [hth] at hcall
        cases hcall
    | consumer s =>
      rw [h.consumers s] at hcall
      cases hcall
    | destructor =>
      rw [hw] at hcall
      rcases stage_call hcall (by simp) with ⟨_, _, _, _, hno⟩ | ⟨_, _, _, _, hno⟩ | ⟨_, _, _, hno⟩ |
        ⟨_, _, _, _, _, hno⟩ | ⟨_, _, _, hno⟩ | ⟨_, _, _, hno⟩ | ⟨_, _, hno⟩ | ⟨_, hno⟩ | ⟨_, _, _, hno⟩ <;>
        cases hno
  · intro t i hcall
    have hstage := hdestructor t _ hcall (by intro p state; cases state <;> simp [ReaderState.call])
    rcases stage_call hstage (by simp) with ⟨_, _, _, _, hno⟩ | ⟨_, _, _, _, hno⟩ | ⟨_, _, _, hno⟩ |
      ⟨_, _, _, _, _, hno⟩ | ⟨_, _, _, hno⟩ | ⟨_, _, _, hno⟩ | ⟨j, rfl, hj⟩ | ⟨_, hno⟩ | ⟨_, _, _, hno⟩
    case inr.inr.inr.inr.inr.inr.inl =>
      obtain rfl := StreamCall.deleteQueue.inj hj
      rw [hI.deleted]
      simp [Stage.deleted]
    all_goals cases hno
  · intro t hcall
    have hstage := hdestructor t _ hcall (by intro p state; cases state <;> simp [ReaderState.call])
    rcases stage_call hstage (by simp) with ⟨_, _, _, _, hno⟩ | ⟨_, _, _, _, hno⟩ | ⟨_, _, _, hno⟩ |
      ⟨_, _, _, _, _, hno⟩ | ⟨_, _, _, hno⟩ | ⟨_, _, _, hno⟩ | ⟨_, _, hno⟩ | ⟨rfl, _⟩ | ⟨_, _, _, hno⟩
    case inr.inr.inr.inr.inr.inr.inr.inl => exact hI.schema
    all_goals cases hno

end SasLibclient
