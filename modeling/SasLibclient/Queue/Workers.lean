import SasLibclient.Queue.BatchInvariant

/-!
# Producers and consumers of a batch queue

The threads of `test/thread_safe_batch_queue_test.cpp` and of
`ResultTableReader::Read` as seen by the queue: a producer pushes its chunks
with ids `0, 1, 2, …` and then calls `DeleteProducer` once, a popper loops on
`Pop` until it throws, a getter calls `Get` along a list of requests.

`QueueInv` is the invariant of all their interleavings, and
`QueueInv.producer_step` says once what a step of a producer can do.
-/

namespace SasLibclient

open Monitors QueueItem ThreadSafeBatchQueue

/-- Distinct producers and the finite stream of chunks of each, numbered from
zero. -/
structure Producers (T : Type) [QueueItem T] where
  ids : List Int
  nodup : ids.Nodup
  stream : Int → List T
  sequential : ∀ p ∈ ids, ∀ i v, (stream p)[i]? = some v → partitionId v = p ∧ itemId v = i

/-- The numbers of the chunks of a producer, of the chunks of a batch and of the
slots are in the range of `int`. -/
structure Producers.Narrow {T : Type} [QueueItem T] (S : Producers T) (B : Nat) : Prop where
  ids : ∀ p ∈ S.ids, (S.stream p).length < 2 ^ 31
  size : B < 2 ^ 31
  slots : S.ids.length * B < 2 ^ 31

/-- Producers of `(partition, id)` pairs, from the lengths of their streams. -/
def Producers.ofLengths (ids : List Int) (nodup : ids.Nodup) (length : Int → Nat) :
    Producers (Int × Nat) where
  ids := ids
  nodup := nodup
  stream := fun p => (List.range (length p)).map fun i => (p, i)
  sequential := by
    intro p _ i v hv
    rw [List.getElem?_map, Option.map_eq_some_iff] at hv
    obtain ⟨j, hj, rfl⟩ := hv
    obtain ⟨_, rfl⟩ := List.getElem?_eq_some_iff.mp hj
    exact ⟨rfl, by simp [itemId]⟩

theorem Producers.ofLengths_narrow {ids : List Int} {nodup : ids.Nodup} {length : Int → Nat} {B : Nat}
    (hlength : ∀ p ∈ ids, length p < 2 ^ 31) (hB : B < 2 ^ 31) (hslots : ids.length * B < 2 ^ 31) :
    (Producers.ofLengths ids nodup length).Narrow B where
  ids := fun p hp => by
    simp only [ofLengths, List.length_map, List.length_range]
    exact hlength p hp
  size := hB
  slots := hslots

def singleChunk : Producers (Int × Nat) := .ofLengths [0] (by decide) fun _ => 1

theorem nodup_zero_one : ([0, 1] : List Int).Nodup := by decide

def twoProducers : Producers (Int × Nat) := .ofLengths [0, 1] nodup_zero_one fun _ => 2

theorem twoProducers_narrow {B : Nat} (hB : B < 2 ^ 30) : twoProducers.Narrow B :=
  Producers.ofLengths_narrow (by decide) (by omega) (by simp; omega)

theorem singleChunk_narrow : singleChunk.Narrow 1 :=
  Producers.ofLengths_narrow (by decide) (by decide) (by decide)

/-- The local state of a thread. A producer knows the number of the chunk it
pushes next, a consumer the chunks it has received. -/
inductive Worker (T : Type) where
  | producer (p : Int) (next : Nat)
  | deleted (p : Int)
  | popper (received : List T)
  | drained (received : List T)
  | getter (todo : List (Int × Nat)) (received : List T)

variable {T ς : Type} [QueueItem T]

/-- The code of the threads. A producer whose stream ends calls
`DeleteProducer`; streams of every length stand for producers that end at any
point. The requests of a getter are pairs of `int`, as the arguments of `Get`. -/
def workers (S : Producers T) : Program (Worker T) (Call T) (Result T) where
  call
    | .producer p next =>
      match (S.stream p)[next]? with
      | some v => some (.push v)
      | none => some (.deleteProducer p)
    | .deleted _ => none
    | .popper _ => some .pop
    | .drained _ => none
    | .getter [] _ => none
    | .getter ((p, v) :: _) _ => some (.get p v)
  after
    | .producer p next, _ =>
      if next < (S.stream p).length then .producer p (next + 1) else .deleted p
    | .deleted p, _ => .deleted p
    | .popper received, .value v => .popper (received ++ [v])
    | .popper received, _ => .drained received
    | .drained received, _ => .drained received
    | .getter [] received, _ => .getter [] received
    | .getter (_ :: todo) received, .value v => .getter todo (received ++ [v])
    | .getter (_ :: todo) received, _ => .getter todo received

/-- The states of a queue with its producers `Sum.inl p` and consumers
`Sum.inr s`. -/
abbrev QueueConfig (T ς : Type) :=
  Config (ThreadSafeBatchQueue T) CondVar (Call T) (Result T) (Worker T) (Int ⊕ ς)

/-- A fresh queue with batch size `B`; no thread has made a call. -/
def startConfig (S : Producers T) (B : Nat) (consumer : ς → Worker T) : QueueConfig T ς where
  data := create B S.ids
  thread
    | .inl p => if p ∈ S.ids then .producer p 0 else .deleted p
    | .inr s => consumer s
  status := fun _ => .ready
  history := []

/-- The number of chunks producer `p` has pushed. -/
def sentBy (S : Producers T) (thread : Int ⊕ ς → Worker T) (p : Int) : Nat :=
  match thread (.inl p) with
  | .producer _ next => next
  | _ => (S.stream p).length

/-- The id of the chunk that a producer pushes next is in the range of `int`. -/
def NextNarrow (S : Producers T) (thread : Int ⊕ ς → Worker T) : Prop :=
  ∀ p ∈ S.ids, sentBy S thread p < (S.stream p).length → sentBy S thread p < 2 ^ 31

theorem Producers.Narrow.next {S : Producers T} {B : Nat} (h : S.Narrow B)
    (thread : Int ⊕ ς → Worker T) : NextNarrow S thread :=
  fun p hp hlt => Nat.lt_trans hlt (h.ids p hp)

/-- The invariant of every interleaving, for the chunks `stored` that are
pushed and not delivered. -/
structure QueueInv (S : Producers T) (stored : List T) (c : QueueConfig T ς) : Prop where
  inv : BatchInv S.ids c.data stored (sentBy S c.thread)
  slots_lt : c.data.totalProducers * c.data.batchSize < 2 ^ 31
  producers : ∀ p,
    (c.thread (.inl p) = .deleted p ∧ (p ∈ S.ids → c.data.active p = false)) ∨
    (p ∈ S.ids ∧ c.data.active p = true ∧
      ∃ next ≤ (S.stream p).length, c.thread (.inl p) = .producer p next)
  pushed_lt : ∀ v ∈ pushed c.history, partitionId v ∈ S.ids ∧
    itemId v < sentBy S c.thread (partitionId v) ∧
    (S.stream (partitionId v))[itemId v]? = some v
  pushed_all : ∀ p ∈ S.ids, ∀ i v, i < sentBy S c.thread p → (S.stream p)[i]? = some v →
    v ∈ pushed c.history
  pushed_nodup : (pushed c.history).Nodup
  stored_pushed : ∀ v ∈ stored, v ∈ pushed c.history
  deletes : ∀ p ∈ S.ids, c.data.active p = false →
    ∃ e ∈ c.history, e.call = Call.deleteProducer p

variable {S : Producers T} {c c' : QueueConfig T ς} {stored : List T}

theorem QueueInv.start (B : Nat) (hB : 0 < B) (hslots : S.ids.length * B < 2 ^ 31)
    (consumer : ς → Worker T) : QueueInv S [] (startConfig S B consumer) := by
  have hsent : ∀ p ∈ S.ids, sentBy S (startConfig S B consumer).thread p = 0 := fun p hp => by
    simp [sentBy, startConfig, hp]
  have hnum := numbered_create (T := T) B S.ids S.nodup
  have hactive : ∀ p ∈ S.ids, (create (T := T) B S.ids).active p = true := fun p hp => by
    have := hnum.lt p hp
    simpa [active, create] using this
  have hb := BatchInv.create (T := T) B hB S.ids S.nodup
  refine ⟨⟨⟨hB, hnum, S.nodup, by simp, hb.slots, List.nodup_nil, rfl, fun p hp hact => ?_,
    hb.bound, hb.actives, hb.fits⟩, hb.unfinished⟩, hslots, fun p => ?_, by simp [startConfig], ?_,
    List.nodup_nil, by simp, ?_⟩
  · rw [hsent p hp]
    exact hb.balance p hp hact
  · by_cases hp : p ∈ S.ids
    · exact Or.inr ⟨hp, hactive p hp, 0, Nat.zero_le _, by simp [startConfig, hp]⟩
    · exact Or.inl ⟨by simp [startConfig, hp], fun h => absurd h hp⟩
  · intro p hp i v hi
    rw [hsent p hp] at hi
    omega
  · intro p hp hact
    have := hactive p hp
    change (create (T := T) B S.ids).active p = false at hact
    rw [this] at hact
    cases hact

/-- The producers and the history stay as they are, while stored chunks may be
taken out of the queue. -/
theorem QueueInv.of_stored {stored' : List T} (h : QueueInv S stored c)
    (hinv : BatchInv S.ids c'.data stored' (sentBy S c.thread))
    (hslots : c'.data.totalProducers * c'.data.batchSize =
      c.data.totalProducers * c.data.batchSize)
    (hsub : ∀ v ∈ stored', v ∈ stored) (hactive : ∀ p, c'.data.active p = c.data.active p)
    (ht : ∀ p, c'.thread (.inl p) = c.thread (.inl p))
    (hpushed : pushed c'.history = pushed c.history)
    (hh : ∀ e ∈ c.history, e ∈ c'.history) : QueueInv S stored' c' := by
  have hsent : sentBy S c'.thread = sentBy S c.thread := by
    funext p
    simp [sentBy, ht p]
  refine ⟨by rw [hsent]; exact hinv, by rw [hslots]; exact h.slots_lt,
    fun p => by rw [ht p, hactive p]; exact h.producers p,
    by rw [hsent, hpushed]; exact h.pushed_lt, by rw [hsent, hpushed]; exact h.pushed_all,
    by rw [hpushed]; exact h.pushed_nodup,
    fun v hv => by rw [hpushed]; exact h.stored_pushed v (hsub v hv), fun p hp hno => ?_⟩
  rw [hactive] at hno
  obtain ⟨e, he, hcall⟩ := h.deletes p hp hno
  exact ⟨e, hh e he, hcall⟩

/-- The invariant reads the data, the producers' states and, of the history,
the pushes and the deletions. -/
theorem QueueInv.congr (h : QueueInv S stored c) (hd : c'.data = c.data)
    (ht : ∀ p, c'.thread (.inl p) = c.thread (.inl p))
    (hpushed : pushed c'.history = pushed c.history)
    (hh : ∀ e ∈ c.history, e ∈ c'.history) : QueueInv S stored c' :=
  h.of_stored (by rw [hd]; exact h.inv) (by rw [hd]) (fun _ hv => hv) (fun p => by rw [hd]) ht hpushed hh

/-- An active producer is in its loop, and the loop counter is the number of
chunks it has pushed. -/
theorem QueueInv.thread_of_active (h : QueueInv S stored c) {p : Int} (hp : p ∈ S.ids)
    (hact : c.data.active p = true) : ∃ next, next ≤ (S.stream p).length ∧
      c.thread (.inl p) = .producer p next ∧ sentBy S c.thread p = next := by
  rcases h.producers p with ⟨_, hno⟩ | ⟨_, _, next, hle, ht⟩
  · rw [hno hp] at hact
    cases hact
  · exact ⟨next, hle, ht, by simp [sentBy, ht]⟩

theorem QueueInv.sentBy_of_inactive (h : QueueInv S stored c) {p : Int}
    (hact : c.data.active p = false) : sentBy S c.thread p = (S.stream p).length := by
  rcases h.producers p with ⟨ht, _⟩ | ⟨_, hact', _⟩
  · simp [sentBy, ht]
  · rw [hact] at hact'
    cases hact'

/-- An active producer still has a call to make. -/
theorem QueueInv.unfinished_of_active (h : QueueInv S stored c) {p : Int} (hp : p ∈ S.ids)
    (hact : c.data.active p = true) : Unfinished (workers S) c (.inl p) := by
  obtain ⟨next, _, ht, _⟩ := h.thread_of_active hp hact
  simp only [Unfinished, ht, workers]
  split <;> simp

/-- A call of a producer comes from its loop: it pushes the next chunk or, behind
the last one, calls `DeleteProducer`. -/
theorem QueueInv.call_cases (h : QueueInv S stored c) {p : Int} {i : Call T}
    (hi : (workers S).call (c.thread (.inl p)) = some i) :
    p ∈ S.ids ∧ c.data.active p = true ∧
      c.thread (.inl p) = .producer p (sentBy S c.thread p) ∧
      ((∃ v, (S.stream p)[sentBy S c.thread p]? = some v ∧ i = .push v) ∨
        sentBy S c.thread p = (S.stream p).length ∧ i = .deleteProducer p) := by
  rcases h.producers p with ⟨ht, _⟩ | ⟨hp, hact, next, hle, ht⟩
  · rw [ht] at hi
    cases hi
  · have hsent : sentBy S c.thread p = next := by simp [sentBy, ht]
    rw [hsent]
    refine ⟨hp, hact, ht, ?_⟩
    rw [ht] at hi
    simp only [workers] at hi
    split at hi
    · rename_i v hv
      exact Or.inl ⟨v, hv, (Option.some.inj hi).symm⟩
    · rename_i hnone
      have hge := List.getElem?_eq_none_iff.mp hnone
      exact Or.inr ⟨by omega, (Option.some.inj hi).symm⟩

/-- The call of a producer is a `Push` or `DeleteProducer`, and the producer is
still active. -/
theorem QueueInv.producer_call (h : QueueInv S stored c) {p : Int} {i : Call T}
    (hi : (workers S).call (c.thread (.inl p)) = some i) :
    p ∈ S.ids ∧ c.data.active p = true ∧ ((∃ v, i = .push v) ∨ i = .deleteProducer p) := by
  obtain ⟨hp, hact, _, ⟨v, _, rfl⟩ | ⟨_, rfl⟩⟩ := h.call_cases hi
  · exact ⟨hp, hact, Or.inl ⟨v, rfl⟩⟩
  · exact ⟨hp, hact, Or.inr rfl⟩

theorem QueueInv.pushed_next (h : QueueInv S stored c) {p : Int} {v : T}
    (hcall : (workers S).call (c.thread (.inl p)) = some (.push v)) :
    partitionId v = p ∧ itemId v = sentBy S c.thread p ∧ itemId v < (S.stream p).length := by
  obtain ⟨hp, _, _, ⟨w, hw, hpush⟩ | ⟨_, hdelete⟩⟩ := h.call_cases hcall
  · cases hpush
    obtain ⟨hpw, hiw⟩ := S.sequential p hp _ v hw
    refine ⟨hpw, hiw, ?_⟩
    rw [hiw]
    exact (List.getElem?_eq_some_iff.mp hw).1
  · cases hdelete

/-- The slots of a producer have indices in the range of `int`. -/
theorem QueueInv.inRange (h : QueueInv S stored c) {p : Int} (hp : p ∈ S.ids) (i : Nat) :
    c.data.InRange p i :=
  .of_slots h.inv.pos (h.inv.numbered.lt p hp) h.slots_lt i

/-- The id of the next chunk and its slot are in the range of `int`. -/
theorem QueueInv.next_fits (h : QueueInv S stored c) (hnext : NextNarrow S c.thread) {p : Int}
    (hp : p ∈ S.ids) {v : T} (hpv : partitionId v = p) (hid : itemId v = sentBy S c.thread p)
    (hlt : itemId v < (S.stream p).length) : c.data.Fits v := by
  subst hpv
  constructor
  · rw [hid] at hlt ⊢
    exact hnext _ hp hlt
  · exact h.inRange hp _

/-- The wait condition of `Push` in the numbers of the batches. -/
theorem QueueInv.pushMustWait_iff (h : QueueInv S stored c) (hnext : NextNarrow S c.thread)
    {p : Int} {v : T} (hp : p ∈ S.ids) (hact : c.data.active p = true)
    (hcall : (workers S).call (c.thread (.inl p)) = some (.push v)) :
    c.data.pushMustWait v = true ↔ itemId v / c.data.batchSize > c.data.currentBatch := by
  obtain ⟨rfl, hid, hlt⟩ := h.pushed_next hcall
  exact ThreadSafeBatchQueue.pushMustWait_iff (h.next_fits hnext hp rfl hid hlt).1
    (h.inv.currentBatch_le hp hact hid)

/-- `Push` of the next chunk waits, or stores it in the current batch. -/
theorem QueueInv.push_run (h : QueueInv S stored c) (hnext : NextNarrow S c.thread) {p : Int} {v : T}
    (hcall : (workers S).call (c.thread (.inl p)) = some (.push v)) :
    ThreadSafeBatchQueue.push v c.data = ⟨c.data, [], .wait .busyCV⟩ ∨
      itemId v / c.data.batchSize = c.data.currentBatch ∧ itemId v < 2 ^ 31 ∧
        ThreadSafeBatchQueue.push v c.data = ⟨afterPush v c.data,
          [.one .emptyCV, .all (.dataNotReadyCV (c.data.partitionIdToNumber (partitionId v)))],
          .ret .unit⟩ := by
  obtain ⟨hp, hact, _, _⟩ := h.call_cases hcall
  obtain ⟨rfl, hid, hlt⟩ := h.pushed_next hcall
  have hfits := h.next_fits hnext hp rfl hid hlt
  cases hw : c.data.pushMustWait v with
  | true => exact Or.inl (push_wait hw)
  | false =>
    exact Or.inr ⟨(h.inv.slot_free hp hact hid hfits hw).1, hfits.1,
      h.inv.push_ret hp hact hid hfits hw⟩

/-- A chunk of an active producer that waits in `Push` is the first of the next
batch: when nothing is stored, the producer's whole share of the batch has been
read. -/
theorem QueueInv.readOf_of_waiting (h : QueueInv S [] c) (hnext : NextNarrow S c.thread) {p : Int}
    {v : T} (hp : p ∈ S.ids) (hact : c.data.active p = true)
    (hcall : (workers S).call (c.thread (.inl p)) = some (.push v))
    (hmust : c.data.pushMustWait v = true) : c.data.readOf p = c.data.batchSize := by
  obtain ⟨next, _, ht, hsent⟩ := h.thread_of_active hp hact
  have hw := (h.pushMustWait_iff hnext hp hact hcall).mp hmust
  obtain ⟨hpv, hid, _⟩ := h.pushed_next hcall
  rw [hsent] at hid
  have hbal := h.inv.balance p hp hact
  have hbound := h.inv.bound p hp
  rw [hsent] at hbal
  simp only [countOf, List.countP_nil, Nat.add_zero] at hbal hbound
  have hge : (c.data.currentBatch + 1) * c.data.batchSize ≤ itemId v :=
    (Nat.le_div_iff_mul_le h.inv.pos).mp hw
  rw [hid, Nat.add_mul, Nat.mul_comm, ← hbal] at hge
  omega

/-- With nothing stored, the active producers do not all wait in `Push`: their
batch would be finished. -/
theorem QueueInv.not_all_waiting (h : QueueInv S [] c) (hnext : NextNarrow S c.thread)
    (hne : c.data.activeProducers ≠ 0)
    (hwait : ∀ p ∈ S.ids, c.data.active p = true → ∃ v,
      (workers S).call (c.thread (.inl p)) = some (.push v) ∧ c.data.pushMustWait v = true) :
    False := by
  have hfin : c.data.isBatchFinished = true := by
    refine (isBatchFinished_iff h.inv.numbered).mpr ⟨fun p hp hact => ?_, ?_⟩
    · obtain ⟨v, hcall, hw⟩ := hwait p hp hact
      exact h.readOf_of_waiting hnext hp hact hcall hw
    · rw [h.inv.items]
      rfl
  obtain ⟨p, hp, hact⟩ : ∃ p ∈ S.ids, c.data.active p = true := by
    by_contra hno
    refine hne (h.inv.activeProducers_eq_zero.mpr fun p hp => ?_)
    by_contra hact
    exact hno ⟨p, hp, by simpa using hact⟩
  rw [h.inv.unfinished ⟨p, hp, hact⟩] at hfin
  cases hfin

/-! ## Steps of a producer -/

variable [DecidableEq ς]

/-- What a step of producer `p` does to the data, the threads and the history:
nothing (it waits or wakes up), a push of its next chunk, or its deletion. -/
inductive ProducerStep (S : Producers T) (c : QueueConfig T ς) (p : Int) :
    QueueConfig T ς → Prop
  | idle {c' : QueueConfig T ς} : c'.data = c.data → c'.thread = c.thread →
      c'.history = c.history → ProducerStep S c p c'
  | push {c' : QueueConfig T ς} (v : T) : p ∈ S.ids → c.data.active p = true →
      c.thread (.inl p) = .producer p (itemId v) → (S.stream p)[itemId v]? = some v →
      partitionId v = p → itemId v / c.data.batchSize = c.data.currentBatch →
      c'.data = afterPush v c.data →
      c'.thread = Function.update c.thread (.inl p) (.producer p (itemId v + 1)) →
      c'.history = c.history ++ [⟨.inl p, .push v, .unit⟩] → itemId v < 2 ^ 31 →
      ProducerStep S c p c'
  | delete {c' : QueueConfig T ς} : p ∈ S.ids → c.data.active p = true →
      c.thread (.inl p) = .producer p (S.stream p).length →
      c'.data = (deleteProducer p c.data).data →
      c'.thread = Function.update c.thread (.inl p) (.deleted p) →
      c'.history = c.history ++ [⟨.inl p, .deleteProducer p, .unit⟩] → ProducerStep S c p c'

/-- **What a step of a producer can do.** -/
theorem QueueInv.producer_step (h : QueueInv S stored c) (hnext : NextNarrow S c.thread) {p : Int}
    (hs : Step monitor (workers S) c (.inl p) c') : ProducerStep S c p c' := by
  cases hs with
  | @wait i seg st cv hi hseg hdel hexit =>
    obtain ⟨_, _, _, ⟨v, _, rfl⟩ | ⟨_, rfl⟩⟩ := h.call_cases hi
    · have hrun := segment_push hseg
      rcases h.push_run hnext hi with hwait | ⟨_, _, hpush⟩
      · rw [hrun, hwait]
        exact .idle rfl rfl rfl
      · rw [hrun, hpush] at hexit
        cases hexit
    · rw [segment_deleteProducer hseg] at hexit
      cases hexit
  | @ret i seg st r hi hseg hdel hexit =>
    obtain ⟨hp, hact, ht, ⟨v, hv, rfl⟩ | ⟨hlast, rfl⟩⟩ := h.call_cases hi
    · have hrun := segment_push hseg
      obtain ⟨hpv, hid, hlt⟩ := h.pushed_next hi
      rw [← hid] at ht hv
      rcases h.push_run hnext hi with hwait | ⟨hbatch, hsmall, hpush⟩
      · rw [hrun, hwait] at hexit
        cases hexit
      · rw [hrun, hpush] at hexit
        cases hexit
        refine .push v hp hact ht hv hpv hbatch (by rw [hrun, hpush]) ?_ rfl hsmall
        simp [ht, workers, hlt]
    · have hrun := segment_deleteProducer hseg
      rw [hrun] at hexit
      cases hexit
      rw [hlast] at ht
      refine .delete hp hact ht (by rw [hrun]) ?_ rfl
      simp [ht, workers]
  | spurious _ => exact .idle rfl rfl rfl

omit [DecidableEq ς] in
theorem sentBy_congr {thread thread' : Int ⊕ ς → Worker T} {p : Int}
    (h : thread' (.inl p) = thread (.inl p)) : sentBy S thread' p = sentBy S thread p := by
  simp [sentBy, h]

theorem QueueInv.push (h : QueueInv S stored c) {p : Int} {v : T} (hp : p ∈ S.ids)
    (hact : c.data.active p = true) (ht : c.thread (.inl p) = .producer p (itemId v))
    (hv : (S.stream p)[itemId v]? = some v) (hpv : partitionId v = p)
    (hbatch : itemId v / c.data.batchSize = c.data.currentBatch)
    (hd : c'.data = afterPush v c.data)
    (hth : c'.thread = Function.update c.thread (.inl p) (.producer p (itemId v + 1)))
    (hh : c'.history = c.history ++ [⟨.inl p, .push v, .unit⟩]) (hsmall : itemId v < 2 ^ 31) :
    QueueInv S (stored ++ [v]) c' := by
  subst hpv
  have hsent : sentBy S c.thread (partitionId v) = itemId v := by simp [sentBy, ht]
  have hsent' : sentBy S c'.thread =
      Function.update (sentBy S c.thread) (partitionId v) (itemId v + 1) := by
    funext p
    by_cases e : p = partitionId v
    · subst e
      simp [sentBy, hth]
    · rw [Function.update_of_ne e]
      exact sentBy_congr (by rw [hth, Function.update_of_ne (by simpa using e)])
  have hpushed : pushed c'.history = pushed c.history ++ [v] := by
    rw [hh, pushed_append]
    rfl
  have hlt : itemId v < (S.stream (partitionId v)).length := by
    by_contra hge
    rw [List.getElem?_eq_none (by omega)] at hv
    cases hv
  refine ⟨?_, by rw [hd]; exact h.slots_lt, fun p => ?_, ?_, ?_, ?_, ?_, ?_⟩
  · rw [hd, hsent']
    refine h.inv.push hp hact hsent.symm ⟨hsmall, h.inRange hp _⟩ ?_
    rw [← Bool.not_eq_true, ThreadSafeBatchQueue.pushMustWait_iff hsmall (Nat.le_of_eq hbatch.symm)]
    omega
  · rw [hd, hth]
    by_cases e : p = partitionId v
    · subst e
      exact Or.inr ⟨hp, hact, itemId v + 1, hlt, Function.update_self ..⟩
    · rw [Function.update_of_ne (by simpa using e)]
      exact h.producers p
  · intro w hw
    rw [hpushed, List.mem_append, List.mem_singleton] at hw
    rw [hsent']
    rcases hw with hw | rfl
    · obtain ⟨hwp, hwlt, hws⟩ := h.pushed_lt w hw
      refine ⟨hwp, ?_, hws⟩
      by_cases e : partitionId w = partitionId v
      · rw [e, Function.update_self]
        rw [e, hsent] at hwlt
        omega
      · rw [Function.update_of_ne e]
        exact hwlt
    · exact ⟨hp, by rw [Function.update_self]; omega, hv⟩
  · intro p hpm i w hi hw
    rw [hpushed, List.mem_append, List.mem_singleton]
    rw [hsent'] at hi
    by_cases e : p = partitionId v
    · subst e
      rw [Function.update_self] at hi
      by_cases e' : i = itemId v
      · subst e'
        rw [hv] at hw
        exact Or.inr (Option.some.inj hw).symm
      · exact Or.inl (h.pushed_all _ hpm i w (by omega) hw)
    · rw [Function.update_of_ne e] at hi
      exact Or.inl (h.pushed_all p hpm i w hi hw)
  · rw [hpushed]
    refine List.nodup_append.mpr ⟨h.pushed_nodup, by simp, fun a ha b hb => ?_⟩
    rw [List.mem_singleton] at hb
    rintro rfl
    have := (h.pushed_lt a ha).2.1
    rw [hb] at this
    omega
  · intro w hw
    rw [hpushed, List.mem_append]
    rcases List.mem_append.mp hw with hw | hw
    · exact Or.inl (h.stored_pushed w hw)
    · exact Or.inr hw
  · intro p hpm hno
    rw [hd] at hno
    obtain ⟨e, he, hcall⟩ := h.deletes p hpm hno
    exact ⟨e, by rw [hh]; exact List.mem_append_left _ he, hcall⟩

theorem QueueInv.delete (h : QueueInv S stored c) {p : Int} (hp : p ∈ S.ids)
    (hact : c.data.active p = true)
    (ht : c.thread (.inl p) = .producer p (S.stream p).length)
    (hd : c'.data = (deleteProducer p c.data).data)
    (hth : c'.thread = Function.update c.thread (.inl p) (.deleted p))
    (hh : c'.history = c.history ++ [⟨.inl p, .deleteProducer p, .unit⟩]) :
    QueueInv S stored c' := by
  have hsent : sentBy S c'.thread = sentBy S c.thread := by
    funext p'
    by_cases e : p' = p
    · subst e
      simp [sentBy, hth, ht]
    · exact sentBy_congr (by rw [hth, Function.update_of_ne (by simpa using e)])
  have hactive : ∀ p', c'.data.active p' =
      if c.data.partitionIdToNumber p' = c.data.partitionIdToNumber p then false
      else c.data.active p' := fun p' => by
    rw [hd]
    exact (resetIfFinished_active _ p').trans (deactivate_active c.data p p')
  have hpushed : pushed c'.history = pushed c.history := by
    rw [hh, pushed_append]
    simp [pushed]
  have hslots : c'.data.totalProducers * c'.data.batchSize < 2 ^ 31 := by
    rw [hd, ThreadSafeBatchQueue.deleteProducer, resetIfFinished_totalProducers,
      resetIfFinished_batchSize]
    exact h.slots_lt
  refine ⟨?_, hslots, fun p' => ?_, by rw [hsent, hpushed]; exact h.pushed_lt,
    by rw [hsent, hpushed]; exact h.pushed_all, by rw [hpushed]; exact h.pushed_nodup,
    by rw [hpushed]; exact h.stored_pushed, fun p' hp' hno => ?_⟩
  · rw [hd, hsent]
    exact h.inv.deleteProducer hp hact
  · rw [hth, hactive]
    by_cases e : p' = p
    · subst e
      exact Or.inl ⟨Function.update_self .., fun _ => if_pos rfl⟩
    · rw [Function.update_of_ne (by simpa using e)]
      rcases h.producers p' with ⟨ht', hno⟩ | ⟨hp', hact', hth'⟩
      · refine Or.inl ⟨ht', fun hp' => ?_⟩
        split
        · rfl
        · exact hno hp'
      · have hne := fun hn => e (h.inv.numbered.inj _ hp' _ hp hn)
        exact Or.inr ⟨hp', by rw [if_neg hne]; exact hact', hth'⟩
  · rw [hh]
    by_cases e : p' = p
    · subst e
      exact ⟨_, List.mem_append_right _ (List.mem_singleton.mpr rfl), rfl⟩
    · have hne := fun hn => e (h.inv.numbered.inj _ hp' _ hp hn)
      rw [hactive, if_neg hne] at hno
      obtain ⟨ev, he, hcall⟩ := h.deletes p' hp' hno
      exact ⟨ev, List.mem_append_left _ he, hcall⟩

omit [DecidableEq ς] in
theorem QueueInv.read {l₁ l₂ : List T} {v : T} (h : QueueInv S (l₁ ++ v :: l₂) c)
    (rest : List T) (hd : c'.data = (afterRead v rest c.data).resetIfFinished.1)
    (ht : ∀ p, c'.thread (.inl p) = c.thread (.inl p))
    (e : Event (Int ⊕ ς) (Call T) (Result T)) (he : pushed [e] = [])
    (hh : c'.history = c.history ++ [e]) : QueueInv S (l₁ ++ l₂) c' := by
  apply h.of_stored _ _ _ _ ht
  · rw [hh, pushed_append, he, List.append_nil]
  · intro e' he'
    rw [hh]
    exact List.mem_append_left _ he'
  · rw [hd]
    exact (BatchCore.read h.inv.toBatchCore rest).resetIfFinished
  · rw [hd, resetIfFinished_totalProducers, resetIfFinished_batchSize]
    rfl
  · intro w hw
    simp only [List.mem_append, List.mem_cons] at hw ⊢
    exact hw.elim Or.inl fun hw => Or.inr (Or.inr hw)
  · intro p
    rw [hd, resetIfFinished_active]
    rfl

end SasLibclient
