import SasLibclient.Queue.ThreadSafeQueue

/-!
# `ThreadSafeSimpleQueue` (`queue/thread_safe_simple_queue.hpp`)

A `std::queue` of bounded size. As in the batch queue, each wait loop tests
its condition first, so that a call has one segment for its entry and for the
return from its wait.
-/

namespace SasLibclient

open Monitors

structure ThreadSafeSimpleQueue (T : Type) where
  queue : List T
  capacity : Nat
  producers : Int

namespace ThreadSafeSimpleQueue

variable {T : Type}

/-- The constructor. -/
def create (capacity producers : Nat) : ThreadSafeSimpleQueue T where
  queue := []
  capacity := capacity
  producers := producers

def push (value : T) (q : ThreadSafeSimpleQueue T) :
    Segment (ThreadSafeSimpleQueue T) CondVar (Result T) :=
  if q.queue.length ≥ q.capacity then
    ⟨q, [], .wait .fullCV⟩
  else
    ⟨{ q with queue := q.queue ++ [value] }, [.one .emptyCV], .ret .unit⟩

def pop (q : ThreadSafeSimpleQueue T) : Segment (ThreadSafeSimpleQueue T) CondVar (Result T) :=
  match q.queue with
  | [] =>
    if q.producers ≠ 0 then
      ⟨q, [], .wait .emptyCV⟩
    else
      ⟨q, [], .ret (.outOfRange "Queue is empty")⟩
  | res :: rest => ⟨{ q with queue := rest }, [.one .fullCV], .ret (.value res)⟩

def get (q : ThreadSafeSimpleQueue T) : Segment (ThreadSafeSimpleQueue T) CondVar (Result T) :=
  ⟨q, [], .ret (.abort "Get by id is not supported by ThreadSafeSimpleQueue")⟩

def deleteProducer (q : ThreadSafeSimpleQueue T) :
    Segment (ThreadSafeSimpleQueue T) CondVar (Result T) :=
  ⟨{ q with producers := q.producers - 1 },
    if q.producers - 1 = 0 then [.all .emptyCV] else [], .ret .unit⟩

/-- A call of the class, from its entry or from its wait. -/
def segment : Call T → ThreadSafeSimpleQueue T →
    Segment (ThreadSafeSimpleQueue T) CondVar (Result T)
  | .push value, q => push value q
  | .pop, q => pop q
  | .get _ _, q => get q
  | .deleteProducer _, q => deleteProducer q

/-- The monitor of the class. -/
def monitor : Monitor (ThreadSafeSimpleQueue T) CondVar (Call T) (Result T) where
  enter := segment
  resume := segment

theorem monitor_segment {s : Status CondVar} {i : Call T} {q : ThreadSafeSimpleQueue T}
    {seg : Segment (ThreadSafeSimpleQueue T) CondVar (Result T)}
    (h : monitor.segment s i q = some seg) : seg = segment i q := by
  rcases Monitor.segment_eq_some h with e | e <;> exact e

end ThreadSafeSimpleQueue

end SasLibclient
