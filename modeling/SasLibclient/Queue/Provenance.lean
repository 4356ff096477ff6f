import SasLibclient.ChunkQueue

/-!
# Where values come from

A queue hands out the pointers that were pushed to it, whatever the calls and
their order. `Holds P` says that every value in a queue, delivered or not, meets
`P`; every call keeps it and returns only such values (`holds_segment`).
-/

namespace SasLibclient

open Monitors QueueItem

variable {T : Type} {P : T → Prop}

/-- Every pointer in the queue and in its slots meets `P`. -/
structure ThreadSafeBatchQueue.Holds (P : T → Prop) (q : ThreadSafeBatchQueue T) : Prop where
  queue : ∀ v ∈ q.queue, P v
  slots : ∀ idx v, (q.dataArray idx).valuePtr = some v → P v

/-- Every pointer in the queue meets `P`. -/
def ThreadSafeSimpleQueue.Holds (P : T → Prop) (q : ThreadSafeSimpleQueue T) : Prop :=
  ∀ v ∈ q.queue, P v

def ConsumerQueue.Holds (P : T → Prop) : ConsumerQueue T → Prop
  | .batch q => q.Holds P
  | .simple q => q.Holds P

/-- A segment of a call leaves values with `P`, and returns one, if any. -/
structure SegmentHolds {σ κ : Type} (Q : σ → Prop) (P : T → Prop)
    (seg : Segment σ κ (Result T)) : Prop where
  data : Q seg.data
  value : ∀ v, seg.exit = .ret (.value v) → P v

namespace ThreadSafeBatchQueue

variable {q : ThreadSafeBatchQueue T}

theorem holds_create (B : Nat) (ids : List Int) : (create (T := T) B ids).Holds P where
  queue := by simp [create]
  slots := by simp [create]

theorem Holds.readValue (h : q.Holds P) (idx : Int) {rest : List T} (hrest : ∀ v ∈ rest, P v) :
    ({ (q.readValue idx).2 with queue := rest } : ThreadSafeBatchQueue T).Holds P where
  queue := hrest
  slots := by
    intro j v hv
    simp only [ThreadSafeBatchQueue.readValue, Function.update_apply] at hv
    split at hv
    · exact h.slots idx v hv
    · exact h.slots j v hv

theorem Holds.resetIfFinished (h : q.Holds P) : q.resetIfFinished.1.Holds P := by
  unfold ThreadSafeBatchQueue.resetIfFinished
  split
  · exact ⟨h.queue, h.slots⟩
  · exact h

/-- A segment that changes nothing and returns no value. -/
theorem Holds.unchanged {s : List (Signal CondVar)} {e : Exit CondVar (Result T)} (h : q.Holds P)
    (he : ∀ v, e ≠ .ret (.value v)) : SegmentHolds (Holds P) P ⟨q, s, e⟩ :=
  ⟨h, fun v hv => absurd hv (he v)⟩

variable [QueueItem T]

theorem Holds.push (h : q.Holds P) {v : T} (hv : P v) : SegmentHolds (Holds P) P (push v q) := by
  unfold ThreadSafeBatchQueue.push
  dsimp only
  split
  · exact h.unchanged (by simp)
  · split
    · exact h.unchanged (by simp)
    · refine ⟨⟨?_, ?_⟩, by simp⟩
      · intro w hw
        rcases List.mem_append.mp hw with hw | hw
        · exact h.queue w hw
        · rw [List.mem_singleton.mp hw]
          exact hv
      · intro j w hw
        simp only [Function.update_apply] at hw
        split at hw
        · obtain rfl := Option.some.inj hw
          exact hv
        · exact h.slots j w hw

theorem Holds.pop (h : q.Holds P) : SegmentHolds (Holds P) P (pop q) := by
  unfold ThreadSafeBatchQueue.pop
  split
  · exact h.unchanged (by simp)
  · split
    · exact h.unchanged (by simp)
    · split
      · exact h.unchanged (by simp)
      · rename_i res rest hq
        have hall := h.queue
        rw [hq] at hall
        obtain ⟨hres, hrest⟩ := List.forall_mem_cons.mp hall
        refine ⟨(h.readValue _ hrest).resetIfFinished, ?_⟩
        intro v hv
        obtain rfl := Result.value.inj (Exit.ret.inj hv)
        exact hres

omit [QueueItem T] in
theorem Holds.getLoop (h : q.Holds P) (p v : Int) :
    SegmentHolds (Holds P) P (getLoop p v q) := by
  unfold ThreadSafeBatchQueue.getLoop
  dsimp only
  split
  · exact h.unchanged (by simp)
  · split
    · exact h.unchanged (by simp)
    · split
      · rename_i res front rest hres hq
        have hall := h.queue
        rw [hq] at hall
        refine ⟨(h.readValue _ (List.forall_mem_cons.mp hall).2).resetIfFinished, ?_⟩
        intro w hw
        obtain rfl := Result.value.inj (Exit.ret.inj hw)
        exact h.slots _ _ hres
      · exact h.unchanged (by simp)
      · exact h.unchanged (by simp)

omit [QueueItem T] in
theorem Holds.get (h : q.Holds P) (p v : Int) : SegmentHolds (Holds P) P (get p v q) := by
  unfold ThreadSafeBatchQueue.get
  split
  · exact h.unchanged (by simp)
  · exact h.getLoop p v

omit [QueueItem T] in
theorem Holds.deleteProducer (h : q.Holds P) (p : Int) :
    SegmentHolds (Holds P) P (deleteProducer p q) := by
  refine ⟨Holds.resetIfFinished ⟨h.queue, h.slots⟩, ?_⟩
  intro v hv
  cases hv

theorem Holds.enter (h : q.Holds P) {call : Call T} (hpush : ∀ v, call = .push v → P v) :
    SegmentHolds (Holds P) P (monitor.enter call q) := by
  cases call with
  | push v => exact h.push (hpush v rfl)
  | pop => exact h.pop
  | get p v => exact h.get p v
  | deleteProducer p => exact h.deleteProducer p

theorem Holds.resume (h : q.Holds P) {call : Call T} (hpush : ∀ v, call = .push v → P v) :
    SegmentHolds (Holds P) P (monitor.resume call q) := by
  cases call with
  | push v => exact h.push (hpush v rfl)
  | pop => exact h.pop
  | get p v => exact h.getLoop p v
  | deleteProducer p => exact h.deleteProducer p

end ThreadSafeBatchQueue

namespace ThreadSafeSimpleQueue

variable {q : ThreadSafeSimpleQueue T}

theorem Holds.segment (h : q.Holds P) {call : Call T} (hpush : ∀ v, call = .push v → P v) :
    SegmentHolds (Holds P) P (segment call q) := by
  cases call with
  | push v =>
    show SegmentHolds (Holds P) P (push v q)
    unfold ThreadSafeSimpleQueue.push
    split
    · exact ⟨h, by simp⟩
    · refine ⟨?_, by simp⟩
      intro w hw
      rcases List.mem_append.mp hw with hw | hw
      · exact h w hw
      · rw [List.mem_singleton.mp hw]
        exact hpush v rfl
  | pop =>
    show SegmentHolds (Holds P) P (pop q)
    unfold ThreadSafeSimpleQueue.pop
    split
    · split
      · exact ⟨h, by simp⟩
      · exact ⟨h, by simp⟩
    · rename_i res rest hq
      have hall : ∀ v ∈ q.queue, P v := h
      rw [hq] at hall
      obtain ⟨hres, hrest⟩ := List.forall_mem_cons.mp hall
      refine ⟨hrest, ?_⟩
      intro v hv
      obtain rfl := Result.value.inj (Exit.ret.inj hv)
      exact hres
  | get p v => exact ⟨h, fun w hw => by cases hw⟩
  | deleteProducer p => exact ⟨h, fun w hw => by cases hw⟩

end ThreadSafeSimpleQueue

namespace ConsumerQueue

theorem holds_create (kind : QueueKind) (capacity : Nat) (ids : List Int) :
    (create (T := T) kind capacity ids).Holds P := by
  cases kind with
  | multiPass => exact ThreadSafeBatchQueue.holds_create capacity ids
  | streaming => exact fun v hv => absurd hv List.not_mem_nil

variable [QueueItem T] {q : ConsumerQueue T} {call : Call T}

theorem Holds.enter (h : q.Holds P) (hpush : ∀ v, call = .push v → P v) :
    SegmentHolds (Holds P) P (q.enter call) := by
  cases q with
  | batch q =>
    have hseg := ThreadSafeBatchQueue.Holds.enter h hpush
    exact ⟨hseg.data, hseg.value⟩
  | simple q =>
    have hseg := ThreadSafeSimpleQueue.Holds.segment h hpush
    exact ⟨hseg.data, hseg.value⟩

theorem Holds.resume (h : q.Holds P) (hpush : ∀ v, call = .push v → P v) :
    SegmentHolds (Holds P) P (q.resume call) := by
  cases q with
  | batch q =>
    have hseg := ThreadSafeBatchQueue.Holds.resume h hpush
    exact ⟨hseg.data, hseg.value⟩
  | simple q =>
    have hseg := ThreadSafeSimpleQueue.Holds.segment h hpush
    exact ⟨hseg.data, hseg.value⟩

end ConsumerQueue

variable [QueueItem T]

theorem holds_segment {status : Status (Nat × CondVar)} {call : SharedCall T} {d : SharedState T}
    {seg : SharedSegment T} (hd : ∀ i, (d.queues i).Holds P)
    (hpush : ∀ i v, call = .queue i (.push v) → P v)
    (hseg : sharedMonitor.segment status call d = some seg) :
    (∀ i, (seg.data.queues i).Holds P) ∧
      ∀ v, seg.exit = .ret (.queue (.value v)) → P v := by
  -- the segment of a method of queue `i`
  have queue : ∀ (i : Nat) (method : ConsumerQueue T → Segment (ConsumerQueue T) CondVar (Result T)),
      SegmentHolds (ConsumerQueue.Holds P) P (method (d.queues i)) → seg = onQueue i method d →
      (∀ i, (seg.data.queues i).Holds P) ∧
        ∀ v, seg.exit = .ret (.queue (.value v)) → P v := by
    rintro i method hmethod rfl
    constructor
    · intro j
      by_cases e : j = i
      · subst e
        simpa only [onQueue, Function.update_self] using hmethod.data
      · simpa only [onQueue, Function.update_of_ne e] using hd j
    · intro v hv
      apply hmethod.value v
      cases hexit : (method (d.queues i)).exit with
      | wait cv =>
        rw [onQueue, hexit] at hv
        cases hv
      | ret r =>
        rw [onQueue, hexit] at hv
        rw [SharedResult.queue.inj (Exit.ret.inj hv)]
  rcases Monitor.segment_eq_some hseg with rfl | rfl
  · cases call with
    | queue i call => exact queue i _ ((hd i).enter fun v hv => hpush i v (by rw [hv])) rfl
    | setReaderError p e => exact ⟨hd, fun v hv => by cases hv⟩
    | getReaderError p => exact ⟨hd, fun v hv => by cases hv⟩
    | setError e => exact ⟨hd, fun v hv => by cases hv⟩
  · cases call with
    | queue i call => exact queue i _ ((hd i).resume fun v hv => hpush i v (by rw [hv])) rfl
    | setReaderError p e => exact ⟨hd, fun v hv => by cases hv⟩
    | getReaderError p => exact ⟨hd, fun v hv => by cases hv⟩
    | setError e => exact ⟨hd, fun v hv => by cases hv⟩

end SasLibclient
