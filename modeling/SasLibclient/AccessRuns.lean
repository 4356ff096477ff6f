import SasLibclient.ApiAccesses

/-!
# Runs that index in range

In the runs whose steps all meet `StepOk` the queues are `Tracked`: the readers
push the next chunk of their partition, and what `Pop` and `Get` find in the
slots is what they look for. So every access is fine, and every request is
answered with what serves it or with `false`.
-/

namespace SasLibclient

open Monitors QueueItem Bytes Loops ThreadSafeBatchQueue

/-! ## The invariant -/

section Invariant

variable {ς : Type} {Q : ApiQueue} {S : ReadSetup ReadChunk}
  {requests : ς → List (ApiRequest × Chunk)} {c c' : ApiConfig ς} {p : Int} {i k : Nat}
  {active : Bool} {todo : List (ReaderAction ReadChunk)}

/-- The reader of `p` has pushed `k` chunks, all with ids in the range of `int`; it
is active until it calls `DeleteProducer`. -/
def Placed (S : ReadSetup ReadChunk) (c : ApiConfig ς) (p : Int) (k : Nat) (active : Bool) : Prop :=
  ∃ todo sent err, c.thread (.inl p) = .reader p todo ∧
    ReaderPlace (S.chunks p) (S.error p) todo sent err (!active) ∧ sent.length = k ∧ k ≤ 2 ^ 31

theorem Placed.congr (h : Placed S c p k active) (ht : c'.thread (.inl p) = c.thread (.inl p)) :
    Placed S c' p k active := by
  obtain ⟨todo, sent, err, hthread, hplace, hlen⟩ := h
  exact ⟨todo, sent, err, ht.trans hthread, hplace, hlen⟩

theorem Placed.push {v : ReadChunk} (h : Placed S c p k active) (hp : p ∈ S.partitions)
    (hthread : c.thread (.inl p) = .reader p (.push v :: todo)) :
    active = true ∧ partitionId v = p ∧ (itemId v < 2 ^ 31 → itemId v = k) ∧ v ∈ S.chunks p := by
  obtain ⟨todo', sent, err, hthread', hplace, rfl, hle⟩ := h
  obtain ⟨-, rfl⟩ := ApiThread.reader.inj (hthread'.symm.trans hthread)
  obtain ⟨hleft, hv, -⟩ := hplace.push
  obtain ⟨hpv, hid⟩ := S.numbers p hp _ v hv
  refine ⟨by simpa using hleft, hpv, ?_, List.mem_of_getElem? hv⟩
  rw [hid]
  exact chunkIdOf_eq_of_lt hle

theorem Placed.pushed {v : ReadChunk} (h : Placed S c p k active)
    (hthread : c.thread (.inl p) = .reader p (.push v :: todo))
    (ht : c'.thread (.inl p) = .reader p todo) (hsmall : k < 2 ^ 31) :
    Placed S c' p (k + 1) true := by
  obtain ⟨todo', sent, err, hthread', hplace, rfl, hle⟩ := h
  obtain ⟨-, rfl⟩ := ApiThread.reader.inj (hthread'.symm.trans hthread)
  obtain ⟨-, -, hnext⟩ := hplace.push
  exact ⟨todo, _, err, ht, hnext, by rw [List.length_append, List.length_singleton], hsmall⟩

theorem Placed.setError {e : S2ClientError} (h : Placed S c p k active)
    (hthread : c.thread (.inl p) = .reader p (.setError e :: todo))
    (ht : c'.thread (.inl p) = .reader p todo) : Placed S c' p k active := by
  obtain ⟨todo', sent, err, hthread', hplace, hlen⟩ := h
  obtain ⟨-, rfl⟩ := ApiThread.reader.inj (hthread'.symm.trans hthread)
  obtain ⟨hleft, -, hnext⟩ := hplace.setError
  rw [← hleft] at hnext
  exact ⟨todo, sent, _, ht, hnext, hlen⟩

theorem Placed.deleting (h : Placed S c p k active)
    (hthread : c.thread (.inl p) = .reader p (.deleteProducer :: todo)) : active = true := by
  obtain ⟨todo', sent, err, hthread', hplace, hlen⟩ := h
  obtain ⟨-, rfl⟩ := ApiThread.reader.inj (hthread'.symm.trans hthread)
  obtain ⟨hleft, -⟩ := hplace.deleteProducer
  simpa using hleft

theorem Placed.deleted (h : Placed S c p k active)
    (hthread : c.thread (.inl p) = .reader p (.deleteProducer :: todo))
    (ht : c'.thread (.inl p) = .reader p todo) : Placed S c' p k false := by
  obtain ⟨todo', sent, err, hthread', hplace, hlen⟩ := h
  obtain ⟨-, rfl⟩ := ApiThread.reader.inj (hthread'.symm.trans hthread)
  obtain ⟨-, hnext⟩ := hplace.deleteProducer
  exact ⟨todo, sent, err, ht, hnext, hlen⟩

/-- The queue number `i`. -/
def QueueTracked (Q : ApiQueue) (S : ReadSetup ReadChunk) (c : ApiConfig ς) (i : Nat)
    (queue : ConsumerQueue ReadChunk) : Prop :=
  ∃ q, queue = .batch q ∧ Tracked Q.capacity (S.ids i) ReadChunk.Labelled (Placed S c) q

/-- The invariant of the runs whose steps meet the condition. -/
structure AccessInv (Q : ApiQueue) (S : ReadSetup ReadChunk)
    (requests : ς → List (ApiRequest × Chunk)) (c : ApiConfig ς) : Prop where
  queues : ∀ i, QueueTracked Q S c i (c.data.shared.queues i)
  readers : ∀ p ∈ Q.partitions, ∃ k active, Placed S c p k active
  others : ∀ p ∉ Q.partitions, c.thread (.inl p) = .reader p []
  callers : ∀ s, Q.Answering (requests s) (c.thread (.inr s))

theorem AccessInv.start (hS : Q.Reads S) : AccessInv Q S requests (Q.start requests) := by
  have hplaced : ∀ p ∈ Q.partitions, Placed S (Q.start requests) p 0 true := by
    intro p hp
    refine ⟨S.actions p, [], none, ?_, ?_, rfl, Nat.zero_le _⟩
    · show ApiThread.reader p (if p ∈ Q.partitions then (Q.reader p).read else []) = _
      rw [if_pos hp, hS.actions p hp]
    · rcases S.shape p (by rw [hS.partitions]; exact hp) with hended | hactions
      · rw [hended]
        exact .ended
      · rw [hactions]
        exact .pushing rfl
  constructor
  · intro i
    refine ⟨_, hS.queues i, Tracked.create Q.capacity (S.nodup i) ?_⟩
    intro p hp
    apply hplaced
    rw [← hS.partitions]
    exact ((S.mem_ids i p).mp hp).1
  · exact fun p hp => ⟨0, true, hplaced p hp⟩
  · intro p hp
    show ApiThread.reader p (if p ∈ Q.partitions then (Q.reader p).read else []) = _
    rw [if_neg hp]
  · exact fun s => ⟨requests s, [], .popping, rfl, rfl, by simp⟩

/-- A reader that has something left to do is the one of a partition. -/
theorem AccessInv.reader_of_thread (h : AccessInv Q S requests c) {t : Int ⊕ ς}
    {action : ReaderAction ReadChunk} (hthread : c.thread t = .reader p (action :: todo)) :
    t = .inl p ∧ p ∈ Q.partitions := by
  cases t with
  | inl p' =>
    by_cases hp : p' ∈ Q.partitions
    · obtain ⟨k, active, todo', sent, err, hthread', -, -⟩ := h.readers p' hp
      obtain ⟨rfl, -⟩ := ApiThread.reader.inj (hthread'.symm.trans hthread)
      exact ⟨rfl, hp⟩
    · rw [h.others p' hp] at hthread
      cases hthread
  | inr s =>
    obtain ⟨todo', answers, state, hthread', -⟩ := h.callers s
    rw [hthread'] at hthread
    cases hthread

theorem AccessInv.answers (h : AccessInv Q S requests c) {s : ς}
    {todo : List (ApiRequest × Chunk)} {answers : List ApiAnswer} {state : GetState}
    (hthread : c.thread (.inr s) = .caller todo answers state) :
    Q.Answers (requests s) todo answers := by
  obtain ⟨todo', answers', state', hthread', hanswers⟩ := h.callers s
  obtain ⟨rfl, rfl, -⟩ := ApiThread.caller.inj (hthread'.symm.trans hthread)
  exact hanswers

theorem AccessInv.caller_of_thread (h : AccessInv Q S requests c) {t : Int ⊕ ς}
    {todo : List (ApiRequest × Chunk)} {answers : List ApiAnswer} {state : GetState}
    (hthread : c.thread t = .caller todo answers state) :
    ∃ s, t = .inr s ∧ Q.Answers (requests s) todo answers := by
  cases t with
  | inl p =>
    by_cases hp : p ∈ Q.partitions
    · obtain ⟨k, active, todo', sent, err, hthread', -, -⟩ := h.readers p hp
      rw [hthread'] at hthread
      cases hthread
    · rw [h.others p hp] at hthread
      cases hthread
  | inr s =>
    exact ⟨s, rfl, h.answers hthread⟩

theorem AccessInv.congr (h : AccessInv Q S requests c)
    (hq : c'.data.shared.queues = c.data.shared.queues) (ht : c'.thread = c.thread) :
    AccessInv Q S requests c' where
  queues := by
    intro i
    obtain ⟨q, hqueue, htracked⟩ := h.queues i
    refine ⟨q, by rw [hq, hqueue], htracked.imp ?_⟩
    exact fun p _ k active hplaced => hplaced.congr (by rw [ht])
  readers := by
    intro p hp
    obtain ⟨k, active, hplaced⟩ := h.readers p hp
    exact ⟨k, active, hplaced.congr (by rw [ht])⟩
  others := by
    rw [ht]
    exact h.others
  callers := by
    rw [ht]
    exact h.callers

/-- A step of a reader: it concerns its queue. -/
theorem AccessInv.reader_step (h : AccessInv Q S requests c) (hS : Q.Reads S)
    (hp : p ∈ Q.partitions) (hplaced : ∃ k active, Placed S c' p k active)
    (hthread : ∀ t ≠ .inl p, c'.thread t = c.thread t)
    (hqueue : QueueTracked Q S c' (Q.queueOf p) (c'.data.shared.queues (Q.queueOf p)))
    (hqueues : ∀ i ≠ Q.queueOf p, c'.data.shared.queues i = c.data.shared.queues i) :
    AccessInv Q S requests c' where
  queues := by
    intro i
    by_cases hi : i = Q.queueOf p
    · rw [hi]
      exact hqueue
    · obtain ⟨q, hq, htracked⟩ := h.queues i
      refine ⟨q, by rw [hqueues i hi, hq], htracked.imp ?_⟩
      intro p' hp' k active hplaced'
      apply hplaced'.congr
      apply hthread
      intro e
      obtain rfl := Sum.inl.inj e
      rw [← ((S.mem_ids i p').mp hp').2, hS.queueOf] at hi
      exact hi rfl
  readers := by
    intro p' hp'
    by_cases e : p' = p
    · rw [e]
      exact hplaced
    · obtain ⟨k, active, hplaced'⟩ := h.readers p' hp'
      exact ⟨k, active, hplaced'.congr (hthread _ (by simpa using e))⟩
  others := by
    intro p' hp'
    have e : p' ≠ p := by
      rintro rfl
      exact hp' hp
    rw [hthread _ (by simpa using e)]
    exact h.others p' hp'
  callers := by
    intro s
    rw [hthread _ (by simp)]
    exact h.callers s

/-- A step of a caller: the readers stay where they are. -/
theorem AccessInv.caller_step (h : AccessInv Q S requests c) {s : ς}
    (hthread : ∀ t ≠ .inr s, c'.thread t = c.thread t)
    (hcaller : Q.Answering (requests s) (c'.thread (.inr s)))
    (hqueues : ∀ i, QueueTracked Q S c i (c'.data.shared.queues i)) :
    AccessInv Q S requests c' where
  queues := by
    intro i
    obtain ⟨q, hq, htracked⟩ := hqueues i
    refine ⟨q, hq, htracked.imp ?_⟩
    exact fun p _ k active hplaced => hplaced.congr (hthread _ (by simp))
  readers := by
    intro p hp
    obtain ⟨k, active, hplaced⟩ := h.readers p hp
    exact ⟨k, active, hplaced.congr (hthread _ (by simp))⟩
  others := by
    intro p hp
    rw [hthread _ (by simp)]
    exact h.others p hp
  callers := by
    intro s'
    by_cases e : s' = s
    · rw [e]
      exact hcaller
    · rw [hthread _ (by simpa using e)]
      exact h.callers s'

end Invariant

/-! ## One step -/

section Steps

variable {ς : Type} [DecidableEq ς] {Q : ApiQueue} {S : ReadSetup ReadChunk}
  {requests : ς → List (ApiRequest × Chunk)} {c c' : ApiConfig ς} {p : Int} {i : Nat} {s : ς}
  {todo : List (ReaderAction ReadChunk)} {status : Status (Nat × CondVar)} {seg : ApiSegment}
  {fromEntry : Bool}

/-- A segment waits and leaves the queues alone, or it returns and keeps the
invariant. -/
def Keeps (Q : ApiQueue) (S : ReadSetup ReadChunk) (requests : ς → List (ApiRequest × Chunk))
    (c : ApiConfig ς) (t : Int ⊕ ς) (seg : ApiSegment) : Prop :=
  (∃ cv, seg.exit = .wait cv ∧ seg.data.shared.queues = c.data.shared.queues) ∨
  ∃ r, seg.exit = .ret r ∧ ∀ c' : ApiConfig ς, c'.data = seg.data →
    c'.thread = Function.update c.thread t (Q.threads.after (c.thread t) r) →
    AccessInv Q S requests c'

omit [DecidableEq ς] in
theorem segment_batch {call : Call ReadChunk} {q : ThreadSafeBatchQueue ReadChunk}
    (hq : c.data.shared.queues i = .batch q)
    (hseg : (apiMonitor Q).segment status (.shared (.queue i call)) c.data = some seg) :
    ∃ method, ((method = ThreadSafeBatchQueue.monitor.enter call ∧ status = .ready) ∨
        (method = ThreadSafeBatchQueue.monitor.resume call ∧ status = .woken)) ∧
      seg.data.shared.queues =
        Function.update c.data.shared.queues i (.batch (method q).data) ∧
      seg.exit = tagApiExit (tagExit i (method q).exit) := by
  cases status with
  | ready =>
    obtain rfl := Option.some.inj hseg
    refine ⟨_, Or.inl ⟨rfl, rfl⟩, ?_, ?_⟩
    · simp [apiMonitor, onShared, sharedMonitor, onQueue, hq, ConsumerQueue.enter]
    · simp [apiMonitor, onShared, sharedMonitor, onQueue, hq, ConsumerQueue.enter]
  | woken =>
    obtain rfl := Option.some.inj hseg
    refine ⟨_, Or.inr ⟨rfl, rfl⟩, ?_, ?_⟩
    · simp [apiMonitor, onShared, sharedMonitor, onQueue, hq, ConsumerQueue.resume]
    · simp [apiMonitor, onShared, sharedMonitor, onQueue, hq, ConsumerQueue.resume]
  | asleep cv => cases hseg

/-! ### Readers -/

theorem AccessInv.push (h : AccessInv Q S requests c) (hS : Q.Reads S) (hp : p ∈ Q.partitions)
    {v : ReadChunk} (hthread : c.thread (.inl p) = .reader p (.push v :: todo))
    (hok : Q.CallOk fromEntry c.data (.shared (.queue (Q.queueOf p) (.push v))))
    (hseg : (apiMonitor Q).segment status (.shared (.queue (Q.queueOf p) (.push v))) c.data =
      some seg) : Keeps Q S requests c (.inl p) seg := by
  have hpS : p ∈ S.partitions := by
    rw [hS.partitions]
    exact hp
  obtain ⟨q, hq, htracked⟩ := h.queues (Q.queueOf p)
  obtain ⟨method, hmethod, hqueues, hexit⟩ := segment_batch hq hseg
  have hpush : method q = ThreadSafeBatchQueue.push v q := by
    rcases hmethod with ⟨rfl, -⟩ | ⟨rfl, -⟩ <;> rfl
  have hpushOk : q.PushOk v := by
    have hcall := hok.1
    rw [hq] at hcall
    exact hcall
  obtain ⟨k, active, hplaced⟩ := h.readers p hp
  have hsmall : itemId v < 2 ^ 31 := hpushOk.2.1
  obtain ⟨-, rfl, hid, hmem⟩ := hplaced.push hpS hthread
  replace hid := hid hsmall
  have hids : partitionId v ∈ S.ids (Q.queueOf (partitionId v)) :=
    (S.mem_ids _ _).mpr ⟨hpS, by rw [hS.queueOf]⟩
  have hnext : ∀ k active, Placed S c (partitionId v) k active → active = true ∧ itemId v = k := by
    intro k active hplaced'
    obtain ⟨hactive, -, hid', -⟩ := hplaced'.push hpS hthread
    exact ⟨hactive, hid' hsmall⟩
  rcases htracked.push_cases hpushOk hids (hS.labelled _ hp v hmem) hnext with
    hwait | ⟨q', signals, hret, htracked'⟩
  · left
    rw [hpush, hwait] at hqueues hexit
    refine ⟨_, hexit, ?_⟩
    rw [hqueues, ← hq, Function.update_eq_self]
  · right
    rw [hpush, hret] at hqueues hexit
    refine ⟨_, hexit, fun c' hdata ht => ?_⟩
    have hself : c'.thread (.inl (partitionId v)) = .reader (partitionId v) todo := by
      rw [ht, Function.update_self, hthread]
      rfl
    have hothers : ∀ t ≠ .inl (partitionId v), c'.thread t = c.thread t := by
      intro t hne
      rw [ht, Function.update_of_ne hne]
    have hplaced' := hplaced.pushed hthread hself (hid ▸ hsmall)
    refine h.reader_step hS hp ⟨_, _, hplaced'⟩ hothers ⟨q', ?_, ?_⟩ ?_
    · rw [hdata, hqueues, Function.update_self]
    · apply htracked' (Placed S c')
      · intro p' _ hne k' active' hplaced''
        exact hplaced''.congr (hothers _ (by simpa using hne))
      · rw [hid]
        exact hplaced'
    · intro i hi
      rw [hdata, hqueues, Function.update_of_ne hi]

theorem AccessInv.deleteProducer (h : AccessInv Q S requests c) (hS : Q.Reads S)
    (hp : p ∈ Q.partitions) (hthread : c.thread (.inl p) = .reader p (.deleteProducer :: todo))
    (hseg : (apiMonitor Q).segment status (.shared (.queue (Q.queueOf p) (.deleteProducer p)))
      c.data = some seg) : Keeps Q S requests c (.inl p) seg := by
  have hids : p ∈ S.ids (Q.queueOf p) := by
    rw [S.mem_ids, hS.partitions, hS.queueOf]
    exact ⟨hp, rfl⟩
  obtain ⟨q, hq, htracked⟩ := h.queues (Q.queueOf p)
  obtain ⟨method, hmethod, hqueues, hexit⟩ := segment_batch hq hseg
  have hdelete : method q = ThreadSafeBatchQueue.deleteProducer p q := by
    rcases hmethod with ⟨rfl, -⟩ | ⟨rfl, -⟩ <;> rfl
  obtain ⟨k, active, hplaced⟩ := h.readers p hp
  right
  rw [hdelete] at hqueues hexit
  refine ⟨_, hexit, fun c' hdata ht => ?_⟩
  have hself : c'.thread (.inl p) = .reader p todo := by
    rw [ht, Function.update_self, hthread]
    rfl
  have hothers : ∀ t ≠ .inl p, c'.thread t = c.thread t := by
    intro t hne
    rw [ht, Function.update_of_ne hne]
  refine h.reader_step hS hp ⟨_, _, hplaced.deleted hthread hself⟩ hothers
    ⟨_, by rw [hdata, hqueues, Function.update_self], ?_⟩ ?_
  · apply htracked.deleteProducer hids
    · exact fun k active hplaced' => hplaced'.deleting hthread
    · intro p' _ hne k' active' hplaced'
      exact hplaced'.congr (hothers _ (by simpa using hne))
    · exact fun k active hplaced' => hplaced'.deleted hthread hself
  · intro i hi
    rw [hdata, hqueues, Function.update_of_ne hi]

theorem AccessInv.setReaderError (h : AccessInv Q S requests c) (hS : Q.Reads S)
    (hp : p ∈ Q.partitions) {e : S2ClientError}
    (hthread : c.thread (.inl p) = .reader p (.setError e :: todo))
    (hseg : (apiMonitor Q).segment status (.shared (.setReaderError p e)) c.data = some seg) :
    Keeps Q S requests c (.inl p) seg := by
  have hqueues : seg.data.shared.queues = c.data.shared.queues ∧
      seg.exit = .ret (.shared .unit) := by
    rcases Monitor.segment_eq_some hseg with rfl | rfl
    · exact ⟨rfl, rfl⟩
    · exact ⟨rfl, rfl⟩
  obtain ⟨k, active, hplaced⟩ := h.readers p hp
  right
  refine ⟨_, hqueues.2, fun c' hdata ht => ?_⟩
  have hself : c'.thread (.inl p) = .reader p todo := by
    rw [ht, Function.update_self, hthread]
    rfl
  have hothers : ∀ t ≠ .inl p, c'.thread t = c.thread t := by
    intro t hne
    rw [ht, Function.update_of_ne hne]
  obtain ⟨q, hq, htracked⟩ := h.queues (Q.queueOf p)
  refine h.reader_step hS hp ⟨k, active, hplaced.setError hthread hself⟩ hothers
    ⟨q, by rw [hdata, hqueues.1, hq], htracked.imp ?_⟩ ?_
  · intro p' _ k' active' hplaced'
    by_cases e : p' = p
    · rw [e] at hplaced' ⊢
      exact hplaced'.setError hthread hself
    · exact hplaced'.congr (hothers _ (by simpa using e))
  · intro i _
    rw [hdata, hqueues.1]

/-! ### Callers -/

theorem AccessInv.other_call (h : AccessInv Q S requests c) {r : ApiResult}
    (hexit : seg.exit = .ret r) (hqueues : seg.data.shared.queues = c.data.shared.queues)
    (hanswering : Q.Answering (requests s) (Q.threads.after (c.thread (.inr s)) r)) :
    Keeps Q S requests c (.inr s) seg := by
  right
  refine ⟨r, hexit, fun c' hdata ht => h.caller_step (s := s) ?_ ?_ ?_⟩
  · intro t hne
    rw [ht, Function.update_of_ne hne]
  · rw [ht, Function.update_self]
    exact hanswering
  · intro i
    rw [hdata, hqueues]
    exact h.queues i

theorem AccessInv.queue_call (h : AccessInv Q S requests c) {request : ApiRequest} {out : Chunk}
    {rest : List (ApiRequest × Chunk)} {answers : List ApiAnswer}
    (hthread : c.thread (.inr s) = .caller ((request, out) :: rest) answers .popping)
    {call : Call ReadChunk} {q : ThreadSafeBatchQueue ReadChunk}
    (hq : c.data.shared.queues i = .batch q)
    (hseg : (apiMonitor Q).segment status (.shared (.queue i call)) c.data = some seg)
    (hcases : ∀ method, ((method = ThreadSafeBatchQueue.monitor.enter call ∧ status = .ready) ∨
        (method = ThreadSafeBatchQueue.monitor.resume call ∧ status = .woken)) →
      (∃ cv, method q = ⟨q, [], .wait cv⟩) ∨
      (∃ what, method q = ⟨q, [], .ret (.outOfRange what)⟩) ∨
      ∃ w q' signals, method q = ⟨q', signals, .ret (.value w)⟩ ∧ Q.Serves request w.chunk ∧
        Tracked Q.capacity (S.ids i) ReadChunk.Labelled (Placed S c) q') :
    Keeps Q S requests c (.inr s) seg := by
  have hanswers := h.answers hthread
  obtain ⟨method, hmethod, hqueues, hexit⟩ := segment_batch hq hseg
  rcases hcases method hmethod with ⟨cv, e⟩ | ⟨what, e⟩ | ⟨w, q', signals, e, hserves, htracked⟩
  · left
    rw [e] at hqueues hexit
    refine ⟨_, hexit, ?_⟩
    rw [hqueues, ← hq, Function.update_eq_self]
  · rw [e] at hqueues hexit
    apply h.other_call hexit
    · rw [hqueues, ← hq, Function.update_eq_self]
    · rw [hthread]
      exact answering_afterErrors hanswers Q.partitions
  · right
    rw [e] at hqueues hexit
    refine ⟨_, hexit, fun c' hdata ht => h.caller_step (s := s) ?_ ?_ ?_⟩
    · intro t hne
      rw [ht, Function.update_of_ne hne]
    · rw [ht, Function.update_self, hthread]
      apply answering_answer hanswers
      intro request' out' rest' chunk htodo hchunk
      obtain ⟨hrequest, -⟩ := List.cons.inj htodo
      obtain ⟨rfl, -⟩ := Prod.mk.inj hrequest
      obtain rfl := Option.some.inj hchunk
      exact hserves
    · intro j
      rw [hdata, hqueues]
      by_cases hj : j = i
      · rw [hj, Function.update_self]
        exact ⟨q', rfl, htracked⟩
      · rw [Function.update_of_ne hj]
        exact h.queues j

theorem AccessInv.getNextChunk (h : AccessInv Q S requests c) (hS : Q.Reads S) {consumerId : Nat}
    {out : Chunk} {rest : List (ApiRequest × Chunk)} {answers : List ApiAnswer}
    (hthread : c.thread (.inr s) = .caller ((.getNextChunk consumerId, out) :: rest) answers
      .popping)
    (hok : Q.CallOk fromEntry c.data (.shared (.queue consumerId .pop)))
    (hseg : (apiMonitor Q).segment status (.shared (.queue consumerId .pop)) c.data = some seg) :
    Keeps Q S requests c (.inr s) seg := by
  obtain ⟨q, hq, htracked⟩ := h.queues consumerId
  have hpopOk : q.PopOk := by
    have hcall := hok.1
    rw [hq] at hcall
    exact hcall
  apply h.queue_call hthread hq hseg
  intro method hmethod
  have hpop : method q = ThreadSafeBatchQueue.pop q := by
    rcases hmethod with ⟨rfl, -⟩ | ⟨rfl, -⟩ <;> rfl
  rw [hpop]
  rcases htracked.pop_cases hpopOk with hwait | hthrow | ⟨w, q', signals, e, hp, -, htracked'⟩
  · exact Or.inl hwait
  · exact Or.inr (Or.inl hthrow)
  · refine Or.inr (Or.inr ⟨w, q', signals, e, ?_, htracked'⟩)
    obtain ⟨hpart, hqueue⟩ := (S.mem_ids _ _).mp hp
    rw [hS.partitions] at hpart
    rw [hS.queueOf] at hqueue
    exact ⟨partitionId w, hpart, hqueue, rfl⟩

/-- An `int` that is not negative is the unsigned number. -/
theorem toNat_of_toInt32 {x : UInt32} {n : Nat} (h : toInt32 x = n) : x.toNat = n := by
  have hlt := x.toNat_lt
  unfold toInt32 Int.bmod at h
  dsimp only at h
  split at h <;> omega

theorem AccessInv.getChunkMulti (h : AccessInv Q S requests c) (hS : Q.Reads S)
    {partitionId chunkId : UInt32} {out : Chunk} {rest : List (ApiRequest × Chunk)}
    {answers : List ApiAnswer}
    (hthread : c.thread (.inr s) = .caller ((.getChunkMulti partitionId chunkId, out) :: rest)
      answers .popping)
    (hok : Q.CallOk (status == .ready) c.data (.shared (.queue (Q.queueOf (toInt32 partitionId))
      (.get (toInt32 partitionId) (toInt32 chunkId)))))
    (hseg : (apiMonitor Q).segment status (.shared (.queue (Q.queueOf (toInt32 partitionId))
      (.get (toInt32 partitionId) (toInt32 chunkId)))) c.data = some seg) :
    Keeps Q S requests c (.inr s) seg := by
  obtain ⟨q, hq, htracked⟩ := h.queues (Q.queueOf (toInt32 partitionId))
  obtain ⟨hgetOk, hpart⟩ := hok
  rw [hq] at hgetOk
  have hids : toInt32 partitionId ∈ S.ids (Q.queueOf (toInt32 partitionId)) := by
    rw [S.mem_ids, hS.partitions, hS.queueOf]
    exact ⟨hpart _ _ rfl, rfl⟩
  -- what is returned is the chunk asked for
  have hserves : ∀ w : ReadChunk, QueueItem.partitionId w = toInt32 partitionId →
      (itemId w : Int) = toInt32 chunkId → w.Labelled →
      Q.Serves (.getChunkMulti partitionId chunkId) w.chunk := by
    intro w hp hid hlabel
    constructor
    · exact UInt32.toNat_inj.mp (toNat_of_toInt32 hp.symm).symm
    · have hnumber := toNat_of_toInt32 hid.symm
      rw [hlabel]
      apply UInt64.toNat_inj.mp
      have hlt := chunkId.toNat_lt
      rw [← hnumber, UInt64.toNat_ofNat', UInt32.toNat_toUInt64, Nat.mod_eq_of_lt (by omega)]
  apply h.queue_call hthread hq hseg
  rintro method (⟨rfl, rfl⟩ | ⟨rfl, rfl⟩)
  · have hok' : (q.itemsToRead = 0 ∧ q.activeProducers = 0) ∨
        q.GetLoopOk (toInt32 partitionId) (toInt32 chunkId) := by
      rcases hgetOk with ⟨-, hempty⟩ | hloop
      · exact Or.inl hempty
      · exact Or.inr hloop
    rcases htracked.get_cases hids hok' with hwait | hthrow | ⟨w, q', signals, e, hp, hid, hknown,
      htracked'⟩
    · exact Or.inl hwait
    · exact Or.inr (Or.inl hthrow)
    · exact Or.inr (Or.inr ⟨w, q', signals, e, hserves w hp hid hknown, htracked'⟩)
  · have hok' : q.GetLoopOk (toInt32 partitionId) (toInt32 chunkId) := by
      rcases hgetOk with ⟨hready, -⟩ | hloop
      · cases hready
      · exact hloop
    rcases htracked.getLoop_cases hids hok' with hwait | hthrow | ⟨w, q', signals, e, hp, hid,
      hknown, htracked'⟩
    · exact Or.inl hwait
    · exact Or.inr (Or.inl hthrow)
    · exact Or.inr (Or.inr ⟨w, q', signals, e, hserves w hp hid hknown, htracked'⟩)

theorem AccessInv.rows (h : AccessInv Q S requests c) {queueCapacity n : Int}
    (hmade : Q.WellMade queueCapacity n) {request : ApiRequest} {out : Chunk}
    {rest : List (ApiRequest × Chunk)} {answers : List ApiAnswer} {call : RowCall}
    (hthread : c.thread (.inr s) = .caller ((request, out) :: rest) answers .popping)
    (hrequest : call.request = request) (hok : Q.CallOk fromEntry c.data (.rows call))
    (hseg : (apiMonitor Q).segment status (.rows call) c.data = some seg) :
    Keeps Q S requests c (.inr s) seg := by
  have hanswers := h.answers hthread
  obtain rfl : seg = onRows Q call c.data := by
    rcases Monitor.segment_eq_some hseg with rfl | rfl <;> rfl
  obtain ⟨hnone, hfits⟩ := hok
  have hindex : Q.consumerThreadsNum ≤ call.threadId ∨ call.threadId < Q.consumers := by
    by_cases hpart : Q.partitions = []
    · exact Or.inl (hnone hpart)
    · rw [hmade.consumers hpart]
      omega
  obtain ⟨⟨res, err⟩, hserve⟩ := serveRows_ok hindex hfits
  have hexit : (onRows Q call c.data).exit = .ret (.rows (.ok (res, err))) := by
    rw [← hserve]
    rfl
  apply h.other_call hexit rfl
  rw [hthread]
  apply answering_answer hanswers
  intro request' out' rest' chunk htodo hchunk
  obtain ⟨hfirst, -⟩ := List.cons.inj htodo
  obtain ⟨rfl, -⟩ := Prod.mk.inj hfirst
  rw [hchunk] at hserve
  rw [← hrequest]
  exact serveRows_serves hserve

/-- **Every step that meets the condition keeps the invariant.** -/
theorem AccessInv.step (h : AccessInv Q S requests c) (hS : Q.Reads S) {queueCapacity n : Int}
    (hmade : Q.WellMade queueCapacity n) {t : Int ⊕ ς} (hok : Q.StepOk c t)
    (hs : Step (apiMonitor Q) Q.threads c t c') : AccessInv Q S requests c' := by
  -- what the thread calls is kept, by its local state
  have hkeeps : ∀ call seg, Q.threads.call (c.thread t) = some call →
      (apiMonitor Q).segment (c.status t) call c.data = some seg →
      Keeps Q S requests c t seg := by
    intro call seg hcall hseg
    have hcallOk := hok call hcall fun cv => Monitor.segment_not_asleep hseg cv
    have hof := ApiQueue.call_cases hcall
    generalize hthread : c.thread t = l at hof
    cases hof with
    | push p v todo =>
      obtain ⟨rfl, hp⟩ := h.reader_of_thread hthread
      exact h.push hS hp hthread hcallOk hseg
    | setError p e todo =>
      obtain ⟨rfl, hp⟩ := h.reader_of_thread hthread
      exact h.setReaderError hS hp hthread hseg
    | deleteProducer p todo =>
      obtain ⟨rfl, hp⟩ := h.reader_of_thread hthread
      exact h.deleteProducer hS hp hthread hseg
    | request request out rest answers =>
      obtain ⟨s, rfl, -⟩ := h.caller_of_thread hthread
      cases request with
      | getNextChunk consumerId => exact h.getNextChunk hS hthread hcallOk hseg
      | getChunkMulti partitionId chunkId =>
        rw [ApiQueue.requestCall, hS.kind] at hcallOk hseg
        exact h.getChunkMulti hS hthread hcallOk hseg
      | getChunkRow partitionId rowId threadId world =>
        rw [ApiQueue.requestCall, hS.kind] at hcallOk hseg
        refine h.rows hmade hthread ?_ hcallOk hseg
        rfl
      | getChunkMultipleRows partitionId rowIdsNum threadId chunkSize world =>
        rw [ApiQueue.requestCall, hS.kind] at hcallOk hseg
        refine h.rows hmade hthread ?_ hcallOk hseg
        rfl
    | collect todo answers p readers err =>
      obtain ⟨s, rfl, hanswers⟩ := h.caller_of_thread hthread
      have hseg' : seg = ⟨c.data, [], .ret (.shared (.error (c.data.shared.readerError p)))⟩ := by
        rcases Monitor.segment_eq_some hseg with rfl | rfl <;> rfl
      rw [hseg']
      apply h.other_call rfl rfl
      rw [hthread]
      exact answering_afterErrors hanswers readers
    | report todo answers err =>
      obtain ⟨s, rfl, hanswers⟩ := h.caller_of_thread hthread
      have hqueues : seg.data.shared.queues = c.data.shared.queues ∧
          seg.exit = .ret (.shared .unit) := by
        rcases Monitor.segment_eq_some hseg with rfl | rfl
        · exact ⟨rfl, rfl⟩
        · exact ⟨rfl, rfl⟩
      apply h.other_call hqueues.2 hqueues.1
      rw [hthread]
      exact answering_answer hanswers (by simp)
  cases hs with
  | @wait call seg st cv hcall hseg _ hexit =>
    rcases hkeeps call seg hcall hseg with ⟨_, -, hqueues⟩ | ⟨r, hret, -⟩
    · exact h.congr hqueues rfl
    · rw [hret] at hexit
      cases hexit
  | @ret call seg st r hcall hseg _ hexit =>
    rcases hkeeps call seg hcall hseg with ⟨cv, hwait, -⟩ | ⟨r', hret, hkept⟩
    · rw [hwait] at hexit
      cases hexit
    · rw [hret] at hexit
      obtain rfl := Exit.ret.inj hexit
      exact hkept _ rfl rfl
  | spurious _ => exact h.congr rfl rfl

/-! ### The accesses of a step -/

omit [DecidableEq ς] in
theorem AccessInv.fine_call (h : AccessInv Q S requests c) {queueCapacity n : Int}
    (hmade : Q.WellMade queueCapacity n) {call : Call ReadChunk}
    (hok : (c.data.shared.queues i).CallOk fromEntry call)
    (hpush : ∀ v, call = .push v → partitionId v ∈ S.ids i)
    (hget : ∀ p v, call = .get p v → p ∈ S.ids i)
    (hdelete : ∀ p, call = .deleteProducer p → p ∈ S.ids i) :
    ∀ a ∈ (c.data.shared.queues i).accesses queueCapacity fromEntry call, a.Fine := by
  obtain ⟨q, hq, htracked⟩ := h.queues i
  have hsize : 0 < q.batchSize → queueCapacity = q.batchSize := by
    rw [htracked.batchSize, hmade.capacity]
    omega
  rw [hq] at hok ⊢
  cases call with
  | push v => exact fine_push htracked.numbered (hpush v rfl) hsize hok
  | pop => exact htracked.fine_pop hsize hok
  | get p v =>
    cases fromEntry with
    | true =>
      refine htracked.fine_get (hget p v rfl) hsize ?_
      rcases hok with ⟨-, hempty⟩ | hloop
      · exact Or.inl hempty
      · exact Or.inr hloop
    | false =>
      refine htracked.fine_getLoop (hget p v rfl) hsize ?_
      rcases hok with ⟨hfalse, -⟩ | hloop
      · cases hfalse
      · exact hloop
  | deleteProducer p => exact fine_deleteProducer htracked.numbered (hdelete p rfl)

omit [DecidableEq ς] in
theorem AccessInv.producers (h : AccessInv Q S requests c) (hS : Q.Reads S) {t : Int ⊕ ς}
    {call : Call ReadChunk}
    (hcall : Q.threads.call (c.thread t) = some (.shared (.queue i call)))
    (hok : Q.CallOk fromEntry c.data (.shared (.queue i call))) :
    (∀ v, call = .push v → partitionId v ∈ S.ids i) ∧ (∀ p v, call = .get p v → p ∈ S.ids i) ∧
      ∀ p, call = .deleteProducer p → p ∈ S.ids i := by
  have hids : ∀ p ∈ Q.partitions, p ∈ S.ids (Q.queueOf p) := by
    intro p hp
    rw [S.mem_ids, hS.partitions, hS.queueOf]
    exact ⟨hp, rfl⟩
  have hof := ApiQueue.call_cases hcall
  generalize hthread : c.thread t = l at hof
  generalize hshared : ApiCall.shared (.queue i call) = api at hof
  cases hof with
  | push p v todo =>
    cases hshared
    obtain ⟨rfl, hp⟩ := h.reader_of_thread hthread
    obtain ⟨k, active, hplaced⟩ := h.readers p hp
    obtain ⟨-, hpv, -⟩ := hplaced.push (by rw [hS.partitions]; exact hp) hthread
    refine ⟨?_, by simp, by simp⟩
    intro w e
    obtain rfl := Call.push.inj e
    rw [hpv]
    exact hids p hp
  | deleteProducer p todo =>
    cases hshared
    obtain ⟨rfl, hp⟩ := h.reader_of_thread hthread
    refine ⟨by simp, by simp, ?_⟩
    intro p' e
    obtain rfl := Call.deleteProducer.inj e
    exact hids p hp
  | request request out rest answers =>
    cases request with
    | getNextChunk consumerId =>
      cases hshared
      simp
    | getChunkMulti partitionId chunkId =>
      rw [ApiQueue.requestCall, hS.kind] at hshared
      cases hshared
      refine ⟨by simp, ?_, by simp⟩
      intro p v e
      obtain ⟨rfl, rfl⟩ := Call.get.inj e
      exact hids _ (hok.2 _ _ rfl)
    | getChunkRow partitionId rowId threadId world =>
      rw [ApiQueue.requestCall, hS.kind] at hshared
      cases hshared
    | getChunkMultipleRows partitionId rowIdsNum threadId chunkSize world =>
      rw [ApiQueue.requestCall, hS.kind] at hshared
      cases hshared
  | setError p e todo => cases hshared
  | collect todo answers p readers err => cases hshared
  | report todo answers err => cases hshared

omit [DecidableEq ς] in
theorem fine_request (hS : Q.Reads S) {queueCapacity n : Int} (hmade : Q.WellMade queueCapacity n)
    {numPartitions : Nat} {d : ApiState} {request : ApiRequest}
    (hrange : request.InRange n numPartitions)
    (hok : Q.CallOk fromEntry d (Q.requestCall request)) :
    ∀ a ∈ Q.requestAccesses request, a.Fine := by
  have hconsumer : ∀ threadId : Nat, (Q.partitions = [] → Q.consumerThreadsNum ≤ threadId) →
      ∀ a ∈ Q.consumerAccesses threadId, a.Fine := by
    intro threadId hnone a ha
    unfold ApiQueue.consumerAccesses at ha
    split at ha
    · cases ha
    · rename_i hlt
      rw [List.mem_singleton.mp ha]
      by_cases hpart : Q.partitions = []
      · exact absurd (hnone hpart) hlt
      · rw [hmade.consumers hpart] at hlt
        exact ⟨Int.natCast_nonneg _, by omega⟩
  cases request with
  | getNextChunk consumerId =>
    intro a ha
    rw [List.mem_singleton.mp ha]
    refine ⟨Int.natCast_nonneg _, ?_⟩
    rw [hmade.queues]
    have hlt : (consumerId : Int) < n := hrange
    omega
  | getChunkMulti partitionId chunkId =>
    rw [ApiQueue.requestCall, hS.kind] at hok
    exact hmade.partition _ (hok.2 _ _ rfl)
  | getChunkRow partitionId rowId threadId world =>
    rw [ApiQueue.requestCall, hS.kind] at hok
    exact hconsumer threadId hok.1
  | getChunkMultipleRows partitionId rowIdsNum threadId chunkSize world =>
    rw [ApiQueue.requestCall, hS.kind] at hok
    exact hconsumer threadId hok.1

omit [DecidableEq ς] in
/-- **What a step that meets the condition indexes and divides by.** -/
theorem AccessInv.fine_step (h : AccessInv Q S requests c) (hS : Q.Reads S) {queueCapacity n : Int}
    (hmade : Q.WellMade queueCapacity n) {numPartitions : Nat}
    (hrequests : ∀ s, ∀ r ∈ requests s, r.1.InRange n numPartitions) {t : Int ⊕ ς}
    (hok : Q.StepOk c t) : ∀ a ∈ Q.stepAccesses queueCapacity c t, a.Fine := by
  -- a method of a queue, from its entry or from its wait
  have hmethod : (∀ cv, c.status t ≠ .asleep cv) → ∀ a ∈ ApiQueue.callAccesses queueCapacity
      (c.status t == .ready) c.data (Q.threads.call (c.thread t)), a.Fine := by
    intro hawake
    cases hcall : Q.threads.call (c.thread t) with
    | none => exact fun _ ha => absurd ha List.not_mem_nil
    | some call =>
      have hcallOk := hok call hcall hawake
      cases call with
      | rows call => exact fun _ ha => absurd ha List.not_mem_nil
      | shared call =>
        cases call with
        | queue i call =>
          obtain ⟨hpush, hget, hdelete⟩ := h.producers hS hcall hcallOk
          exact h.fine_call hmade hcallOk.1 hpush hget hdelete
        | setReaderError p e => exact fun _ ha => absurd ha List.not_mem_nil
        | getReaderError p => exact fun _ ha => absurd ha List.not_mem_nil
        | setError e => exact fun _ ha => absurd ha List.not_mem_nil
  cases hstatus : c.status t with
  | asleep cv =>
    rw [ApiQueue.stepAccesses, hstatus]
    exact fun _ ha => absurd ha List.not_mem_nil
  | woken =>
    rw [hstatus] at hmethod
    rw [ApiQueue.stepAccesses, hstatus]
    exact hmethod (by simp)
  | ready =>
    rw [hstatus] at hmethod
    rw [ApiQueue.stepAccesses, hstatus]
    intro a ha
    rcases List.mem_append.mp ha with hentry | hqueue
    · unfold ApiQueue.entryAccesses at hentry
      split at hentry
      · rename_i request out rest answers hthread
        obtain ⟨s, rfl, hanswers⟩ := h.caller_of_thread hthread
        have hmem : request ∈ (requests s).map Prod.fst := by
          rw [← hanswers.order]
          exact List.mem_append_right _ List.mem_cons_self
        obtain ⟨r, hr, rfl⟩ := List.mem_map.mp hmem
        have hcallOk := hok (Q.requestCall r.1) (by rw [hthread]; rfl) (by simp [hstatus])
        exact fine_request hS hmade (hrequests s r hr) hcallOk a hentry
      · cases hentry
    · exact hmethod (by simp) a hqueue

end Steps

end SasLibclient
