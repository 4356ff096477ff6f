import SasLibclient.Queue.BatchInvariant
import SasLibclient.Queue.ThreadSafeSimpleQueue

/-!
# A queue behind `ThreadSafeQueue<T> *`

The queue of a consumer is a `ThreadSafeBatchQueue` in the multi-pass mode and
a `ThreadSafeSimpleQueue` in the streaming mode. For `Push`, `Pop` and
`DeleteProducer` both serve one abstract log: the values pushed and popped, in
order, and the producers that left. What was popped is a prefix of what was
pushed, and `Pop` throws only when every producer has left and every value was
popped.
-/

namespace SasLibclient

open Monitors QueueItem

/-- `ThreadSafeQueue<T> *` -/
inductive ConsumerQueue (T : Type) where
  | batch (q : ThreadSafeBatchQueue T)
  | simple (q : ThreadSafeSimpleQueue T)

/-- The mode of the chunk queue. -/
inductive QueueKind where
  | multiPass
  | streaming
  deriving DecidableEq, Repr

namespace ConsumerQueue

variable {T : Type}

/-- The queue that `CreateChunkQueue` makes for a list of partitions. -/
def create (kind : QueueKind) (capacity : Nat) (ids : List Int) : ConsumerQueue T :=
  match kind with
  | .multiPass => .batch (ThreadSafeBatchQueue.create capacity ids)
  | .streaming => .simple (ThreadSafeSimpleQueue.create capacity ids.length)

variable [QueueItem T]

/-- The virtual call from its entry. -/
def enter (call : Call T) : ConsumerQueue T → Segment (ConsumerQueue T) CondVar (Result T)
  | .batch q =>
    let seg := ThreadSafeBatchQueue.monitor.enter call q
    ⟨.batch seg.data, seg.signals, seg.exit⟩
  | .simple q =>
    let seg := ThreadSafeSimpleQueue.segment call q
    ⟨.simple seg.data, seg.signals, seg.exit⟩

/-- The virtual call from its wait. -/
def resume (call : Call T) : ConsumerQueue T → Segment (ConsumerQueue T) CondVar (Result T)
  | .batch q =>
    let seg := ThreadSafeBatchQueue.monitor.resume call q
    ⟨.batch seg.data, seg.signals, seg.exit⟩
  | .simple q =>
    let seg := ThreadSafeSimpleQueue.segment call q
    ⟨.simple seg.data, seg.signals, seg.exit⟩

theorem enter_push_batch (v : T) (q : ThreadSafeBatchQueue T) :
    (ConsumerQueue.batch q).enter (.push v) =
      ⟨.batch (ThreadSafeBatchQueue.push v q).data, (ThreadSafeBatchQueue.push v q).signals,
        (ThreadSafeBatchQueue.push v q).exit⟩ :=
  rfl

/-- Only `Get` does something before its wait loop. -/
theorem resume_eq_enter {call : Call T} (hcall : ∀ p v, call ≠ .get p v) (q : ConsumerQueue T) :
    q.resume call = q.enter call := by
  cases call with
  | get p v => exact absurd rfl (hcall p v)
  | push v => cases q <;> rfl
  | pop => cases q <;> rfl
  | deleteProducer p => cases q <;> rfl

end ConsumerQueue

/-- What a queue has been used for. -/
structure QueueLog (T : Type) where
  pushed : List T
  popped : List T
  deleted : List Int

namespace QueueLog

variable {T : Type}

def empty : QueueLog T := ⟨[], [], []⟩

def push (v : T) (log : QueueLog T) : QueueLog T := { log with pushed := log.pushed ++ [v] }

def pop (v : T) (log : QueueLog T) : QueueLog T := { log with popped := log.popped ++ [v] }

def delete (p : Int) (log : QueueLog T) : QueueLog T := { log with deleted := log.deleted ++ [p] }

end QueueLog

open ThreadSafeBatchQueue

variable {T : Type} [QueueItem T] {ids : List Int} {length : Int → Nat} {log : QueueLog T} {v : T}
  {p : Int}

/-- A batch queue that serves the log; the producers have streams of this
length. -/
structure BatchServes (ids : List Int) (length : Int → Nat) (q : ThreadSafeBatchQueue T)
    (log : QueueLog T) : Prop where
  inv : BatchInv ids q q.queue fun p => countOf p log.pushed
  slots_lt : q.totalProducers * q.batchSize < 2 ^ 31
  length_lt : ∀ p ∈ ids, length p < 2 ^ 31
  active : ∀ p ∈ ids, q.active p = true ↔ p ∉ log.deleted
  order : log.pushed = log.popped ++ q.queue

/-- A simple queue that serves the log. -/
structure SimpleServes (ids : List Int) (q : ThreadSafeSimpleQueue T) (log : QueueLog T) :
    Prop where
  nodup : ids.Nodup
  producers : q.producers = ids.countP fun p => !decide (p ∈ log.deleted)
  order : log.pushed = log.popped ++ q.queue

/-- The queue serves the log. -/
def ConsumerQueue.Serves (ids : List Int) (length : Int → Nat) (log : QueueLog T) :
    ConsumerQueue T → Prop
  | .batch q => BatchServes ids length q log
  | .simple q => SimpleServes ids q log

theorem ConsumerQueue.Serves.pushed_split {q : ConsumerQueue T} (h : q.Serves ids length log) :
    ∃ rest, log.pushed = log.popped ++ rest := by
  cases q with
  | batch q => exact ⟨q.queue, h.order⟩
  | simple q => exact ⟨q.queue, h.order⟩

theorem serves_create (kind : QueueKind) {capacity : Nat} (hpos : 0 < capacity)
    (hids : ids.Nodup) (hnarrow : kind = .multiPass →
      (∀ p ∈ ids, length p < 2 ^ 31) ∧ ids.length * capacity < 2 ^ 31) :
    (ConsumerQueue.create (T := T) kind capacity ids).Serves ids length QueueLog.empty := by
  cases kind with
  | multiPass =>
    have hnum := numbered_create (T := T) capacity ids hids
    constructor
    · exact BatchInv.create capacity hpos ids hids
    · exact (hnarrow rfl).2
    · exact (hnarrow rfl).1
    · intro p hp
      have hlt := hnum.lt p hp
      simpa [active, ThreadSafeBatchQueue.create, QueueLog.empty] using hlt
    · rfl
  | streaming =>
    constructor
    · exact hids
    · simp [ThreadSafeSimpleQueue.create, QueueLog.empty]
    · rfl

theorem countOf_append (p : Int) (l : List T) (v : T) :
    countOf p (l ++ [v]) = countOf p l + if partitionId v = p then 1 else 0 := by
  simp [countOf, List.countP_append, List.countP_singleton]

/-- `Push` of the next value of a producer that has not left waits, or the
value is pushed. -/
theorem ConsumerQueue.Serves.push {q : ConsumerQueue T} (h : q.Serves ids length log)
    (hp : partitionId v ∈ ids) (hlive : partitionId v ∉ log.deleted)
    (hlt : countOf (partitionId v) log.pushed < length (partitionId v))
    (hid : countOf (partitionId v) log.pushed < 2 ^ 31 →
      itemId v = countOf (partitionId v) log.pushed) :
    (∃ cv, (q.enter (.push v)).exit = .wait cv ∧ (q.enter (.push v)).data = q) ∨
    ((q.enter (.push v)).exit = .ret .unit ∧
      (q.enter (.push v)).data.Serves ids length (log.push v)) := by
  cases q with
  | batch q =>
    have hact := (h.active _ hp).mpr hlive
    have hsmall := Nat.lt_trans hlt (h.length_lt _ hp)
    replace hid := hid hsmall
    have hfits : q.Fits v :=
      ⟨hid ▸ hsmall, .of_slots h.inv.pos (h.inv.numbered.lt _ hp) h.slots_lt _⟩
    cases hw : q.pushMustWait v with
    | true =>
      left
      have hpush := push_wait hw
      simp [enter, monitor, hpush]
    | false =>
      right
      have hpush := h.inv.push_ret hp hact hid hfits hw
      have hkept := h.inv.push hp hact hid hfits hw
      have hcounts : Function.update (fun p => countOf p log.pushed) (partitionId v)
          (itemId v + 1) = fun p => countOf p (log.push v).pushed := by
        funext p
        by_cases e : p = partitionId v
        · simp [e, hid, QueueLog.push, countOf_append]
        · simp [Function.update_of_ne e, QueueLog.push, countOf_append, Ne.symm e]
      simp only [enter, monitor, hpush, true_and]
      constructor
      · rw [← hcounts]
        exact hkept
      · exact h.slots_lt
      · exact h.length_lt
      · exact h.active
      · simp [QueueLog.push, h.order, afterPush]
  | simple q =>
    by_cases hfull : q.queue.length ≥ q.capacity
    · left
      simp [enter, ThreadSafeSimpleQueue.segment, ThreadSafeSimpleQueue.push, hfull]
    · right
      simp only [enter, ThreadSafeSimpleQueue.segment, ThreadSafeSimpleQueue.push, hfull, if_false,
        true_and]
      constructor
      · exact h.nodup
      · exact h.producers
      · simp [QueueLog.push, h.order]

/-- `Pop` waits, returns the next value that was pushed, or throws. -/
theorem ConsumerQueue.Serves.pop {q : ConsumerQueue T} (h : q.Serves ids length log) :
    (∃ cv, (q.enter .pop).exit = .wait cv ∧ (q.enter .pop).data = q) ∨
    (∃ v, (q.enter .pop).exit = .ret (.value v) ∧ (q.enter .pop).data.Serves ids length (log.pop v)) ∨
    ((q.enter .pop).exit = .ret (.outOfRange "Queue is empty") ∧ (q.enter .pop).data = q ∧
      (∀ p ∈ ids, p ∈ log.deleted) ∧ log.popped = log.pushed) := by
  cases q with
  | batch q =>
    rcases h.inv.toBatchCore.pop_cases with ⟨_, _, hpop⟩ | ⟨hnil, hnone, hpop⟩ | ⟨v, rest, hq, hpop⟩
    · left
      simp [enter, monitor, hpop]
    · right; right
      have hdeleted : ∀ p ∈ ids, p ∈ log.deleted := by
        intro p hp
        by_contra hlive
        have hact := (h.active p hp).mpr hlive
        rw [(h.inv.activeProducers_eq_zero).mp hnone p hp] at hact
        cases hact
      have horder := h.order
      rw [hnil, List.append_nil] at horder
      simp [enter, monitor, hpop, horder]
      exact hdeleted
    · right; left
      refine ⟨v, ?_, ?_⟩
      · simp [enter, monitor, hpop]
      · have hkept := h.inv.toBatchCore.pop_value hq
        have hqueue : (afterRead v rest q).resetIfFinished.1.queue = rest := by simp [afterRead]
        simp only [enter, monitor, hpop]
        constructor
        · rw [hqueue]
          exact hkept
        · rw [resetIfFinished_totalProducers, resetIfFinished_batchSize]
          exact h.slots_lt
        · exact h.length_lt
        · intro p hp
          rw [resetIfFinished_active]
          exact h.active p hp
        · rw [hqueue]
          simp [QueueLog.pop, h.order, hq]
  | simple q =>
    cases hq : q.queue with
    | nil =>
      have horder := h.order
      rw [hq, List.append_nil] at horder
      by_cases hnone : q.producers = 0
      · right; right
        have hdeleted : ∀ p ∈ ids, p ∈ log.deleted := by
          have hcount := h.producers
          rw [hnone] at hcount
          have hzero := List.countP_eq_zero.mp (Int.natCast_eq_zero.mp hcount.symm)
          intro p hp
          simpa using hzero p hp
        simp [enter, ThreadSafeSimpleQueue.segment, ThreadSafeSimpleQueue.pop, hq, hnone, horder]
        exact hdeleted
      · left
        simp [enter, ThreadSafeSimpleQueue.segment, ThreadSafeSimpleQueue.pop, hq, hnone]
    | cons v rest =>
      right; left
      refine ⟨v, ?_, ?_⟩
      · simp [enter, ThreadSafeSimpleQueue.segment, ThreadSafeSimpleQueue.pop, hq]
      · simp only [enter, ThreadSafeSimpleQueue.segment, ThreadSafeSimpleQueue.pop, hq]
        constructor
        · exact h.nodup
        · exact h.producers
        · simp [QueueLog.pop, h.order, hq]

/-- `DeleteProducer` of a producer that has not left. -/
theorem ConsumerQueue.Serves.deleteProducer {q : ConsumerQueue T} (h : q.Serves ids length log)
    (hp : p ∈ ids) (hlive : p ∉ log.deleted) :
    (q.enter (.deleteProducer p)).exit = .ret .unit ∧
      (q.enter (.deleteProducer p)).data.Serves ids length (log.delete p) := by
  cases q with
  | batch q =>
    have hact := (h.active p hp).mpr hlive
    have hslots : (ThreadSafeBatchQueue.deleteProducer p q).data.totalProducers *
        (ThreadSafeBatchQueue.deleteProducer p q).data.batchSize < 2 ^ 31 := by
      rw [ThreadSafeBatchQueue.deleteProducer, resetIfFinished_totalProducers,
        resetIfFinished_batchSize]
      exact h.slots_lt
    refine ⟨rfl, ?_, hslots, h.length_lt, ?_, ?_⟩
    · have hkept := h.inv.deleteProducer hp hact
      have hqueue : (ThreadSafeBatchQueue.deleteProducer p q).data.queue = q.queue := by
        simp [ThreadSafeBatchQueue.deleteProducer, deactivate]
      show BatchInv ids (ThreadSafeBatchQueue.deleteProducer p q).data
        (ThreadSafeBatchQueue.deleteProducer p q).data.queue _
      rw [hqueue]
      exact hkept
    · intro p' hp'
      show (ThreadSafeBatchQueue.deleteProducer p q).data.active p' = true ↔ _
      rw [ThreadSafeBatchQueue.deleteProducer, resetIfFinished_active, deactivate_active]
      by_cases e : p' = p
      · simp [e, QueueLog.delete]
      · have hnumber : q.partitionIdToNumber p' ≠ q.partitionIdToNumber p :=
          fun hn => e (h.inv.numbered.inj _ hp' _ hp hn)
        simp [hnumber, QueueLog.delete, e, h.active p' hp']
    · have hqueue : (ThreadSafeBatchQueue.deleteProducer p q).data.queue = q.queue := by
        simp [ThreadSafeBatchQueue.deleteProducer, deactivate]
      exact h.order.trans (by rw [← hqueue]; rfl)
  | simple q =>
    refine ⟨rfl, h.nodup, ?_, h.order⟩
    have hcount := countP_deactivate h.nodup hp (fun p => !decide (p ∈ log.deleted))
      (by simpa using hlive)
    have hrest : (ids.countP fun p' => !decide (p' ∈ (log.delete p).deleted)) =
        ids.countP fun p' => if p' = p then false else !decide (p' ∈ log.deleted) := by
      refine List.countP_congr fun p' _ => ?_
      by_cases e : p' = p <;> simp [e, QueueLog.delete]
    show q.producers - 1 = _
    rw [h.producers, hcount, hrest]
    omega

end SasLibclient
