import SasLibclient.Queue.GetRuns

/-!
# `Pop` and `Get` on one queue

`GetNextChunk` (`Pop`) is for the first pass of a reading, `GetChunkMulti`
(`Get`) for the later ones, which do not look at `m_queue`: `Get` takes a chunk
out of its slot and drops whatever is in front of `m_queue`. The consumers here
make any calls of both kinds, one after the other, whatever these return.
`mixed_keeps_chunks_iff` says in which runs the chunks are delivered exactly
once all the same.
-/

namespace SasLibclient

open Monitors QueueItem ThreadSafeBatchQueue

/-- A call of a consumer. -/
inductive Request where
  | pop
  | get (producerId : Int) (valueId : Nat)
  deriving DecidableEq, Repr

/-- The local state of a thread: a producer, or a consumer with the calls that
it has still to make. -/
inductive MixedWorker (T : Type) where
  | producer (worker : Worker T)
  | consumer (todo : List Request)

variable {T ς : Type} [QueueItem T]

def Request.call : Request → Call T
  | .pop => .pop
  | .get p v => .get p v

/-- The code of the threads. -/
def mixedWorkers (S : Producers T) : Program (MixedWorker T) (Call T) (Result T) where
  call
    | .producer worker => (workers S).call worker
    | .consumer [] => none
    | .consumer (request :: _) => some request.call
  after
    | .producer worker, r => .producer ((workers S).after worker r)
    | .consumer todo, _ => .consumer todo.tail

abbrev MixedConfig (T ς : Type) :=
  Config (ThreadSafeBatchQueue T) CondVar (Call T) (Result T) (MixedWorker T) (Int ⊕ ς)

/-- A fresh queue with batch size `B`; no thread has made a call. -/
def mixedStart (S : Producers T) (B : Nat) (requests : ς → List Request) : MixedConfig T ς where
  data := create B S.ids
  thread
    | .inl p => .producer (if p ∈ S.ids then .producer p 0 else .deleted p)
    | .inr s => .consumer (requests s)
  status := fun _ => .ready
  history := []

/-- The chunks that were pushed and not returned. -/
def undelivered {τ : Type} [DecidableEq T] (h : List (Event τ (Call T) (Result T))) : List T :=
  (pushed h).filter fun v => v ∉ delivered h

/-- Exactly-once delivery, so far: no chunk is returned twice, the others are in
`m_queue` for later calls of `Pop`, and `m_itemsToRead` counts them. -/
structure KeepsChunks [DecidableEq T] (c : MixedConfig T ς) : Prop where
  once : (delivered c.history).Nodup
  reachable : ∀ v ∈ undelivered c.history, v ∈ c.data.queue
  items : c.data.itemsToRead = (undelivered c.history).length

/-- A `Get` that runs and returns a chunk finds it in front of `m_queue`. -/
def GetsFront (S : Producers T) (c : MixedConfig T ς) (t : Int ⊕ ς) : Prop :=
  ∀ p v, (mixedWorkers S).call (c.thread t) = some (.get p v) →
    (∀ cv, c.status t ≠ .asleep cv) → c.data.getMustWait p v = false →
    ∀ w, c.data.dataArray (c.data.targetIndex p v) = ⟨some w, true⟩ → c.data.queue.head? = some w

/-- A mixed thread as the queue's invariant sees it: the consumers do not
matter. -/
def MixedWorker.toWorker : MixedWorker T → Worker T
  | .producer worker => worker
  | .consumer _ => .drained []

variable {S : Producers T} {B : Nat} {requests : ς → List Request} {stored : List T}
  {c c' : MixedConfig T ς}

/-- Who is a producer, and which calls the consumers have still to make. -/
structure MixedThreads (ok : Request → Prop) (c : MixedConfig T ς) : Prop where
  producers : ∀ p, ∃ worker, c.thread (.inl p) = .producer worker
  consumers : ∀ s, ∃ todo, c.thread (.inr s) = .consumer todo ∧ ∀ r ∈ todo, ok r

theorem MixedThreads.start {ok : Request → Prop} (hrequests : ∀ s, ∀ r ∈ requests s, ok r) :
    MixedThreads ok (mixedStart S B requests) :=
  ⟨fun _ => ⟨_, rfl⟩, fun s => ⟨requests s, rfl, hrequests s⟩⟩

/-! ## What `Get` returns -/

section Loop

variable {q : ThreadSafeBatchQueue T} {p v : Int} {w : T}

omit [QueueItem T] in
omit [QueueItem T] in
/-- `Get` drops the front of `m_queue`. -/
theorem queue_getLoop (h : (getLoop p v q).exit = .ret (.value w)) :
    (getLoop p v q).data.queue = q.queue.tail := by
  have hmust := getMustWait_of_ret h
  unfold getLoop at h ⊢
  dsimp only at h ⊢
  rw [hmust, if_neg Bool.false_ne_true] at h ⊢
  split
  · rename_i hset
    rw [if_pos hset] at h
    cases h
  · split
    · rename_i hq
      rw [resetIfFinished_queue, hq]
      rfl
    · rename_i hset _ _ hread
      rw [if_neg hset, hread] at h
      cases h
    · rename_i hset _ _ _ hread hq
      rw [if_neg hset, hread, hq] at h
      cases h

end Loop

/-! ## Requests to producers that do not exist -/

section Keys

variable {q : ThreadSafeBatchQueue T} {p p' : Int}

omit [QueueItem T] in
theorem targetIndex_of_number (v : Int)
    (h : q.partitionIdToNumber p = q.partitionIdToNumber p') :
    q.targetIndex p v = q.targetIndex p' v := by
  unfold targetIndex
  rw [h]

omit [QueueItem T] in
theorem getMustWait_of_number (v : Int)
    (h : q.partitionIdToNumber p = q.partitionIdToNumber p') :
    q.getMustWait p v = q.getMustWait p' v := by
  unfold getMustWait
  rw [targetIndex_of_number v h, h]

omit [QueueItem T] in
/-- `Get` knows a producer by its number only. -/
theorem getLoop_of_number (v : Int)
    (h : q.partitionIdToNumber p = q.partitionIdToNumber p') : getLoop p v q = getLoop p' v q := by
  unfold getLoop
  rw [targetIndex_of_number v h, getMustWait_of_number v h, h]

omit [QueueItem T] in
theorem get_of_number (v : Int)
    (h : q.partitionIdToNumber p = q.partitionIdToNumber p') : get p v q = get p' v q := by
  unfold ThreadSafeBatchQueue.get
  rw [getLoop_of_number v h]

/-- The keys of `m_partitionIdToNumber` are the producers'; another id reads as the
number 0. Without producers there is no chunk. -/
structure MixedKeys (ids : List Int) (q : ThreadSafeBatchQueue T) : Prop where
  numbers : q.partitionIdToNumber = numberFrom 0 (fun _ => 0) ids
  free : ids = [] → ∀ idx, (q.dataArray idx).isSet = false

omit [QueueItem T] in
theorem MixedKeys.create (B : Nat) (ids : List Int) :
    MixedKeys ids (ThreadSafeBatchQueue.create (T := T) B ids) :=
  ⟨rfl, fun _ _ => rfl⟩

omit [QueueItem T] in
theorem MixedKeys.exists_producer {ids : List Int} {q : ThreadSafeBatchQueue T}
    (h : MixedKeys ids q) (hids : ids ≠ []) (hnodup : ids.Nodup) (p : Int) :
    ∃ p' ∈ ids, q.partitionIdToNumber p = q.partitionIdToNumber p' := by
  by_cases hp : p ∈ ids
  · exact ⟨p, hp, rfl⟩
  · have hpos : 0 < ids.length := List.length_pos_of_ne_nil hids
    refine ⟨ids[0], List.getElem_mem hpos, ?_⟩
    rw [h.numbers, numberFrom_of_not_mem p ids 0 _ hp, numberFrom_getElem ids 0 _ hnodup 0 hpos]

end Keys

/-! ## Steps -/

/-- The invariant of every interleaving, for the chunks `stored` that are pushed
and not delivered. -/
structure MixedInv (S : Producers T) (stored : List T) (c : MixedConfig T ς) : Prop where
  base : QueueInv S stored (c.map MixedWorker.toWorker)
  length : c.data.queue.length = stored.length
  split : (pushed c.history).Perm (delivered c.history ++ stored)
  keys : MixedKeys S.ids c.data

/-- A `Pop` runs only while `m_queue` lists the stored chunks. -/
def PopsStored (S : Producers T) (stored : List T) (c : MixedConfig T ς) (t : Int ⊕ ς) : Prop :=
  (mixedWorkers S).call (c.thread t) = some .pop → c.data.queue = stored

theorem map_mixedStart : (mixedStart S B requests).map MixedWorker.toWorker =
    startConfig S B fun _ => .drained [] := by
  unfold mixedStart startConfig Config.map
  congr
  funext t
  cases t <;> rfl

theorem MixedInv.start (hB : 0 < B) (hslots : S.ids.length * B < 2 ^ 31) :
    MixedInv S [] (mixedStart S B requests) where
  base := by
    rw [map_mixedStart]
    exact QueueInv.start B hB hslots _
  length := rfl
  split := List.Perm.refl _
  keys := .create B S.ids

/-- What a step does: a step of a producer, a step of a consumer that delivers
nothing, or the delivery of a chunk. -/
inductive MixedStep [DecidableEq ς] (S : Producers T) (stored : List T) (c : MixedConfig T ς) :
    Int ⊕ ς → MixedConfig T ς → Prop
  | producer {p : Int} {c' : MixedConfig T ς} :
      ProducerStep S (c.map MixedWorker.toWorker) p (c'.map MixedWorker.toWorker) →
      MixedStep S stored c (.inl p) c'
  | quiet {s : ς} {c' : MixedConfig T ς} (events : List (Event (Int ⊕ ς) (Call T) (Result T))) :
      GetsFront S c (.inr s) → c'.data = c.data →
      (∀ p, c'.thread (.inl p) = c.thread (.inl p)) → c'.history = c.history ++ events →
      pushed events = [] → delivered events = [] → MixedStep S stored c (.inr s) c'
  | deliver {s : ς} {c' : MixedConfig T ς} (w : T) (e : Event (Int ⊕ ς) (Call T) (Result T)) :
      w ∈ stored → (GetsFront S c (.inr s) ↔ c.data.queue.head? = some w) →
      c'.data = (afterRead w c.data.queue.tail c.data).resetIfFinished.1 →
      (∀ p, c'.thread (.inl p) = c.thread (.inl p)) → c'.history = c.history ++ [e] →
      pushed [e] = [] → delivered [e] = [w] → MixedStep S stored c (.inr s) c'

/-- How a consumer's call ends. -/
inductive ConsumerEnd (S : Producers T) (stored : List T) (c : MixedConfig T ς) (s : ς) :
    Segment (ThreadSafeBatchQueue T) CondVar (Result T) → Prop
  | wait (cv : CondVar) : GetsFront S c (.inr s) →
      ConsumerEnd S stored c s ⟨c.data, [], .wait cv⟩
  | throw (what : String) : GetsFront S c (.inr s) →
      ConsumerEnd S stored c s ⟨c.data, [], .ret (.outOfRange what)⟩
  | value (w : T) : w ∈ stored →
      (GetsFront S c (.inr s) ↔ c.data.queue.head? = some w) →
      ConsumerEnd S stored c s
        ⟨(afterRead w c.data.queue.tail c.data).resetIfFinished.1,
          (afterRead w c.data.queue.tail c.data).resetIfFinished.2, .ret (.value w)⟩

theorem getsFront_of_call {t : Int ⊕ ς} {i : Call T}
    (hcall : (mixedWorkers S).call (c.thread t) = some i) (hne : ∀ p v, i ≠ .get p v) :
    GetsFront S c t := by
  intro p v hget
  rw [hcall] at hget
  exact absurd (Option.some.inj hget) (hne p v)

theorem getsFront_iff {t : Int ⊕ ς} {p v : Int}
    (hcall : (mixedWorkers S).call (c.thread t) = some (.get p v))
    (hrun : ∀ cv, c.status t ≠ .asleep cv) :
    GetsFront S c t ↔ (c.data.getMustWait p v = false →
      ∀ w, c.data.dataArray (c.data.targetIndex p v) = ⟨some w, true⟩ →
        c.data.queue.head? = some w) := by
  constructor
  · intro h
    exact h p v hcall hrun
  · intro h p' v' hcall' _
    rw [hcall] at hcall'
    obtain ⟨rfl, rfl⟩ := Call.get.inj (Option.some.inj hcall')
    exact h

/-- A `Get` of an empty slot waits or throws. -/
theorem getEnd_of_free {s : ς} {p v : Int}
    (hfree : (c.data.dataArray (c.data.targetIndex p v)).isSet = false)
    (hfront : GetsFront S c (.inr s)) :
    ConsumerEnd S stored c s (getLoop p v c.data) ∧ ConsumerEnd S stored c s (get p v c.data) := by
  have hloop : ConsumerEnd S stored c s (getLoop p v c.data) := by
    unfold getLoop
    dsimp only
    split
    · exact .wait _ hfront
    · rw [if_pos (by rw [hfree]; rfl)]
      exact .throw _ hfront
  refine ⟨hloop, ?_⟩
  unfold ThreadSafeBatchQueue.get
  split
  · exact .throw _ hfront
  · exact hloop

/-- A `Get` for a producer waits, throws, or returns the chunk of its slot. -/
theorem MixedInv.get_end (h : MixedInv S stored c) {s : ς} {p : Int} (hp : p ∈ S.ids) (v : Nat)
    (hiff : GetsFront S c (.inr s) ↔ (c.data.getMustWait p v = false →
      ∀ w, c.data.dataArray (c.data.targetIndex p v) = ⟨some w, true⟩ →
        c.data.queue.head? = some w)) :
    ConsumerEnd S stored c s (getLoop p v c.data) ∧ ConsumerEnd S stored c s (get p v c.data) := by
  have hcore := h.base.inv.toBatchCore
  have hfree : (c.data.dataArray (c.data.targetIndex p v)).isSet = false →
      GetsFront S c (.inr s) := by
    intro hset
    rw [hiff]
    intro _ w hslot
    rw [hslot] at hset
    cases hset
  have hloop : ConsumerEnd S stored c s (getLoop p v c.data) := by
    rcases hcore.getLoop_cases h.length hp (h.base.inRange hp v) with ⟨_, e⟩ | ⟨hset, e⟩ |
      ⟨w, rest, hw, hpw, hmod, _, _, hlen, e⟩
    · have hmust := getMustWait_of_wait (q := c.data) (congrArg Segment.exit e)
      rw [show getLoop p v c.data = _ from e]
      refine .wait _ (hiff.mpr ?_)
      rw [hmust]
      nofun
    · rw [show getLoop p v c.data = _ from e]
      exact .throw _ (hfree hset)
    · have hexit : (getLoop p v c.data).exit = .ret (.value w) := congrArg Segment.exit e
      have hmust := getMustWait_of_ret hexit
      have hrest : rest = c.data.queue.tail := by
        have hdata : (getLoop p v c.data).data.queue = rest := by
          rw [show getLoop p v c.data = _ from e]
          exact resetIfFinished_queue _
        rw [← hdata]
        exact queue_getLoop hexit
      have hslot : c.data.dataArray (c.data.targetIndex p v) = ⟨some w, true⟩ := by
        have hstored := (hcore.stored_spec w hw).2.2.2
        rw [hpw, targetIndex_congr _ p hmod] at hstored
        exact hstored
      rw [show getLoop p v c.data = _ from e]
      rw [hrest]
      refine .value w hw ?_
      rw [hiff, hmust, hslot]
      constructor
      · intro hall
        exact hall rfl w rfl
      · rintro hhead _ w' hw'
        obtain rfl := Option.some.inj (DataContainer.mk.inj hw').1
        exact hhead
  refine ⟨hloop, ?_⟩
  rcases hcore.get_cases hp (h.base.inRange hp v) with e | ⟨hset, e⟩
  · rw [show get p v c.data = _ from e]
    exact hloop
  · rw [show get p v c.data = _ from e]
    exact .throw _ (hfree hset)

/-- **What a call of a consumer can do.** -/
theorem MixedInv.consumer_end (h : MixedInv S stored c) {s : ς} {request : Request}
    (hpops : PopsStored S stored c (.inr s))
    (hcall : (mixedWorkers S).call (c.thread (.inr s)) = some request.call)
    {seg : Segment (ThreadSafeBatchQueue T) CondVar (Result T)}
    (hseg : monitor.segment (c.status (.inr s)) request.call c.data = some seg) :
    ConsumerEnd S stored c s seg := by
  cases request with
  | pop =>
    have hfront : GetsFront S c (.inr s) := getsFront_of_call hcall nofun
    have hpop : seg = ThreadSafeBatchQueue.pop c.data := segment_pop hseg
    have hcore := h.base.inv.toBatchCore
    rw [← hpops hcall] at hcore
    rw [hpop]
    rcases hcore.pop_cases with ⟨_, _, e⟩ | ⟨_, _, e⟩ | ⟨w, rest, hq, e⟩
    · rw [show ThreadSafeBatchQueue.pop c.data = _ from e]
      exact .wait _ hfront
    · rw [show ThreadSafeBatchQueue.pop c.data = _ from e]
      exact .throw _ hfront
    · have hq' : c.data.queue = w :: rest := hq
      have hstored : w ∈ stored := by
        rw [← hpops hcall, hq']
        exact List.mem_cons_self
      have hend : ConsumerEnd S stored c s _ :=
        .value w hstored (iff_of_true hfront (by rw [hq']; rfl))
      rw [show ThreadSafeBatchQueue.pop c.data = _ from e]
      rw [hq'] at hend
      exact hend
  | get p v =>
    have hiff := getsFront_iff (S := S) hcall (Monitor.segment_not_asleep hseg)
    have hend : ConsumerEnd S stored c s (getLoop p v c.data) ∧
        ConsumerEnd S stored c s (get p v c.data) := by
      by_cases hids : S.ids = []
      · have hfree := h.keys.free hids (c.data.targetIndex p v)
        refine getEnd_of_free hfree (hiff.mpr fun _ w hslot => ?_)
        rw [hslot] at hfree
        cases hfree
      · obtain ⟨p', hp', hnumber⟩ := h.keys.exists_producer hids S.nodup p
        rw [targetIndex_of_number v hnumber, getMustWait_of_number v hnumber] at hiff
        rw [getLoop_of_number v hnumber, get_of_number v hnumber]
        exact h.get_end hp' v hiff
    rcases Monitor.segment_eq_some hseg with e | e
    · rw [e]
      exact hend.2
    · rw [e]
      exact hend.1

section Steps

variable [DecidableEq ς]

/-- A step of a thread leaves producers producers and consumers consumers. -/
theorem MixedThreads.step {ok : Request → Prop} (h : MixedThreads ok c) {t : Int ⊕ ς}
    (hs : Step monitor (mixedWorkers S) c t c') : MixedThreads ok c' := by
  cases hs with
  | wait => exact ⟨h.producers, h.consumers⟩
  | spurious => exact ⟨h.producers, h.consumers⟩
  | @ret i seg st r hi hseg hdel hexit =>
    constructor
    · intro p
      dsimp only
      by_cases e : Sum.inl p = t
      · obtain ⟨worker, hworker⟩ := h.producers p
        subst e
        rw [Function.update_self, hworker]
        exact ⟨_, rfl⟩
      · rw [Function.update_of_ne e]
        exact h.producers p
    · intro s
      dsimp only
      obtain ⟨todo, htodo, hall⟩ := h.consumers s
      by_cases e : Sum.inr s = t
      · subst e
        rw [Function.update_self, htodo]
        exact ⟨todo.tail, rfl, fun r hr => hall r (List.mem_of_mem_tail hr)⟩
      · rw [Function.update_of_ne e]
        exact ⟨todo, htodo, hall⟩

theorem MixedInv.step_cases (h : MixedInv S stored c)
    (hnext : NextNarrow S (c.map MixedWorker.toWorker).thread) {ok : Request → Prop} {t : Int ⊕ ς}
    (hthreads : MixedThreads ok c) (hpops : PopsStored S stored c t)
    (hs : Step monitor (mixedWorkers S) c t c') : MixedStep S stored c t c' := by
  cases t with
  | inl p =>
    obtain ⟨worker, hworker⟩ := hthreads.producers p
    refine .producer (h.base.producer_step hnext (hs.map MixedWorker.toWorker ?_ ?_))
    · rw [hworker]
      rfl
    · intro r
      rw [hworker]
      rfl
  | inr s =>
    obtain ⟨todo, htodo, -⟩ := hthreads.consumers s
    have hcall : ∀ i, (mixedWorkers S).call (c.thread (.inr s)) = some i →
        ∃ request : Request, i = request.call := by
      intro i hi
      rw [htodo] at hi
      cases todo with
      | nil => cases hi
      | cons request todo => exact ⟨request, (Option.some.inj hi).symm⟩
    cases hs with
    | @wait i seg st cv hi hseg hdel hexit =>
      obtain ⟨request, rfl⟩ := hcall i hi
      cases h.consumer_end hpops hi hseg with
      | wait cv' hfront =>
        exact .quiet [] hfront rfl (fun _ => rfl) (List.append_nil _).symm rfl rfl
      | throw => cases hexit
      | value => cases hexit
    | @ret i seg st r hi hseg hdel hexit =>
      obtain ⟨request, rfl⟩ := hcall i hi
      have hinl : ∀ p, Function.update c.thread (.inr s)
          ((mixedWorkers S).after (c.thread (.inr s)) r) (.inl p) = c.thread (.inl p) :=
        fun p => Function.update_of_ne (by simp) _ _
      have hpushed : pushed [(⟨.inr s, request.call, r⟩ : Event (Int ⊕ ς) (Call T) (Result T))] =
          [] := by
        cases request <;> rfl
      cases h.consumer_end hpops hi hseg with
      | wait => cases hexit
      | throw what hfront =>
        obtain rfl := Exit.ret.inj hexit
        refine .quiet [_] hfront rfl hinl rfl hpushed ?_
        cases request <;> rfl
      | value w hw hiff =>
        obtain rfl := Exit.ret.inj hexit
        refine .deliver w _ hw hiff rfl hinl rfl hpushed ?_
        cases request <;> rfl
    | @spurious cv hasleep =>
      refine .quiet [] ?_ rfl (fun _ => rfl) (List.append_nil _).symm rfl rfl
      intro p v _ hrun
      exact absurd hasleep (hrun cv)

omit [QueueItem T] [DecidableEq ς] in
theorem delivered_append_perm (h h' : List (Event (Int ⊕ ς) (Call T) (Result T))) :
    (delivered (h ++ h')).Perm (delivered h ++ delivered h') := by
  simp only [delivered, popped_append, gotten_append, List.append_assoc]
  exact (List.perm_append_comm_assoc _ _ _).append_left _

/-- A step leaves the producers' numbers alone, and without producers the slots. -/
theorem MixedKeys.step (h : MixedKeys S.ids c.data)
    (hbase : QueueInv S stored (c.map MixedWorker.toWorker)) {t : Int ⊕ ς}
    (hs : Step monitor (mixedWorkers S) c t c') (hcases : MixedStep S stored c t c') :
    MixedKeys S.ids c'.data := by
  constructor
  · rw [← h.numbers]
    rcases hs.data_cases with he | ⟨i, seg, _, hseg, he⟩
    · rw [he]
    · rw [he, (segment_effect hseg).numbers]
  · intro hids
    have hnone : ∀ p, p ∉ S.ids := by
      rw [hids]
      exact fun _ => List.not_mem_nil
    cases hcases with
    | @producer p _ hstep =>
      cases hstep with
      | idle hd hth hh =>
        have hdata : c'.data = c.data := hd
        rw [hdata]
        exact h.free hids
      | push v hp => exact absurd hp (hnone p)
      | delete hp => exact absurd hp (hnone p)
    | quiet events _ hd =>
      rw [hd]
      exact h.free hids
    | deliver w e hw => exact absurd (hbase.inv.stored_spec w hw).1 (hnone _)

omit [DecidableEq ς] in
theorem MixedInv.split_of_nothing (h : MixedInv S stored c)
    {events : List (Event (Int ⊕ ς) (Call T) (Result T))} (hh : c'.history = c.history ++ events)
    (hpushed : pushed events = []) (hdelivered : delivered events = []) :
    (pushed c'.history).Perm (delivered c'.history ++ stored) := by
  have hperm := delivered_append_perm c.history events
  rw [hdelivered, List.append_nil] at hperm
  rw [hh, pushed_append, hpushed, List.append_nil]
  exact h.split.trans (hperm.symm.append_right _)

theorem MixedInv.producer (h : MixedInv S stored c) {p : Int}
    (hstep : ProducerStep S (c.map MixedWorker.toWorker) p (c'.map MixedWorker.toWorker))
    (hkeys : MixedKeys S.ids c'.data) :
    ∃ stored', MixedInv S stored' c' ∧ (c.data.queue = stored → c'.data.queue = stored') := by
  cases hstep with
  | idle hd hth hh =>
    have hdata : c'.data = c.data := hd
    have hhistory : c'.history = c.history := hh
    refine ⟨stored, ⟨?_, by rw [hdata]; exact h.length, ?_, hkeys⟩, fun hq => by rw [hdata]; exact hq⟩
    · exact h.base.congr hd (fun p => by rw [hth]) (by rw [hh]) (by rw [hh]; exact fun _ he => he)
    · rw [hhistory]
      exact h.split
  | push v hp hact hth hv hpv hbatch hd hth' hh hsmall =>
    have hq : c'.data.queue = c.data.queue ++ [v] := congrArg ThreadSafeBatchQueue.queue hd
    have hhistory : c'.history = c.history ++ [⟨.inl p, .push v, .unit⟩] := hh
    refine ⟨stored ++ [v], ⟨h.base.push hp hact hth hv hpv hbatch hd hth' hh hsmall, ?_, ?_, hkeys⟩, ?_⟩
    · rw [hq, List.length_append, List.length_append, h.length]
    · have hperm := delivered_append_perm c.history [⟨.inl p, .push v, .unit⟩]
      have hnone : delivered [(⟨.inl p, .push v, .unit⟩ : Event (Int ⊕ ς) (Call T) (Result T))] =
          [] := rfl
      have hone : pushed [(⟨.inl p, .push v, .unit⟩ : Event (Int ⊕ ς) (Call T) (Result T))] =
          [v] := rfl
      rw [hnone, List.append_nil] at hperm
      rw [hhistory, pushed_append, hone, ← List.append_assoc]
      exact (h.split.append_right [v]).trans ((hperm.symm.append_right stored).append_right [v])
    · intro hstored
      rw [hq, hstored]
  | delete hp hact hth hd hth' hh =>
    have hq : c'.data.queue = c.data.queue :=
      (congrArg ThreadSafeBatchQueue.queue hd).trans (resetIfFinished_queue _)
    have hhistory : c'.history = c.history ++ [⟨.inl p, .deleteProducer p, .unit⟩] := hh
    refine ⟨stored, ⟨h.base.delete hp hact hth hd hth' hh, by rw [hq]; exact h.length,
      h.split_of_nothing hhistory rfl rfl, hkeys⟩, fun hstored => by rw [hq]; exact hstored⟩

omit [DecidableEq ς] in
theorem MixedInv.deliver {l₁ l₂ : List T} {w : T} (h : MixedInv S (l₁ ++ w :: l₂) c)
    {e : Event (Int ⊕ ς) (Call T) (Result T)}
    (hd : c'.data = (afterRead w c.data.queue.tail c.data).resetIfFinished.1)
    (hth : ∀ p, c'.thread (.inl p) = c.thread (.inl p)) (hh : c'.history = c.history ++ [e])
    (hpushed : pushed [e] = []) (hdelivered : delivered [e] = [w])
    (hkeys : MixedKeys S.ids c'.data) : MixedInv S (l₁ ++ l₂) c' where
  base := h.base.read _ hd (fun p => congrArg MixedWorker.toWorker (hth p)) e hpushed hh
  length := by
    rw [hd, resetIfFinished_queue]
    show c.data.queue.tail.length = _
    rw [List.length_tail, h.length]
    simp
  split := by
    have hperm := delivered_append_perm c.history [e]
    rw [hdelivered] at hperm
    rw [hh, pushed_append, hpushed, List.append_nil]
    refine (h.split.trans ?_).trans (hperm.symm.append_right _)
    rw [List.append_assoc]
    exact List.perm_middle.append_left _
  keys := hkeys

/-- **Every step keeps the invariant**, and `m_queue` the list of the stored chunks
when the step takes its front. -/
theorem MixedInv.step (h : MixedInv S stored c)
    (hnext : NextNarrow S (c.map MixedWorker.toWorker).thread) {ok : Request → Prop} {t : Int ⊕ ς}
    (hthreads : MixedThreads ok c) (hpops : PopsStored S stored c t)
    (hs : Step monitor (mixedWorkers S) c t c') :
    ∃ stored', MixedInv S stored' c' ∧
      (c.data.queue = stored → GetsFront S c t → c'.data.queue = stored') := by
  have hcases := h.step_cases hnext hthreads hpops hs
  have hkeys := h.keys.step h.base hs hcases
  cases hcases with
  | @producer p _ hstep =>
    obtain ⟨stored', hI, hq⟩ := h.producer hstep hkeys
    exact ⟨stored', hI, fun hstored _ => hq hstored⟩
  | quiet events _ hd hth hh hpushed hdelivered =>
    refine ⟨stored, ⟨?_, by rw [hd]; exact h.length, h.split_of_nothing hh hpushed hdelivered, hkeys⟩,
      fun hstored _ => by rw [hd]; exact hstored⟩
    refine h.base.congr hd (fun p => congrArg MixedWorker.toWorker (hth p)) ?_ ?_
    · show pushed c'.history = pushed c.history
      rw [hh, pushed_append, hpushed, List.append_nil]
    · intro e he
      show e ∈ c'.history
      rw [hh]
      exact List.mem_append_left _ he
  | @deliver s _ w e hw hiff hd hth hh hpushed hdelivered =>
    -- in step with `m_queue`, the stored chunks without `w` are its tail
    by_cases hfront : c.data.queue = stored ∧ GetsFront S c (.inr s)
    · obtain ⟨rest, hrest⟩ := List.head?_eq_some_iff.mp (hiff.mp hfront.2)
      rw [← hfront.1, hrest] at h
      have hsplit : MixedInv S ([] ++ w :: rest) c := h
      refine ⟨rest, hsplit.deliver hd hth hh hpushed hdelivered hkeys, fun _ _ => ?_⟩
      rw [hd, resetIfFinished_queue]
      show c.data.queue.tail = rest
      rw [hrest]
      rfl
    · obtain ⟨l₁, l₂, rfl⟩ := List.append_of_mem hw
      exact ⟨l₁ ++ l₂, h.deliver hd hth hh hpushed hdelivered hkeys,
        fun hstored hok => absurd ⟨hstored, hok⟩ hfront⟩

end Steps

/-! ## Exactly-once delivery -/

section Delivery

variable [DecidableEq T]

/-- The chunks that are not delivered are the stored ones. -/
theorem MixedInv.undelivered_perm (h : MixedInv S stored c) :
    (undelivered c.history).Perm stored := by
  have hnodup : (delivered c.history ++ stored).Nodup := h.split.nodup_iff.mp h.base.pushed_nodup
  have hdisjoint : ∀ v ∈ stored, v ∉ delivered c.history :=
    fun v hv hdelivered => (List.nodup_append.mp hnodup).2.2 v hdelivered v hv rfl
  have hnone : (delivered c.history).filter (fun v => decide (v ∉ delivered c.history)) = [] :=
    List.filter_eq_nil_iff.mpr fun v hv => by simpa using hv
  have hall : stored.filter (fun v => decide (v ∉ delivered c.history)) = stored :=
    List.filter_eq_self.mpr fun v hv => by simpa using hdisjoint v hv
  have hfilter := h.split.filter fun v => decide (v ∉ delivered c.history)
  rw [List.filter_append, hnone, hall, List.nil_append] at hfilter
  exact hfilter

omit [DecidableEq T] in
theorem MixedInv.once (h : MixedInv S stored c) : (delivered c.history).Nodup :=
  (List.nodup_append.mp (h.split.nodup_iff.mp h.base.pushed_nodup)).1

theorem MixedInv.items (h : MixedInv S stored c) :
    c.data.itemsToRead = (undelivered c.history).length := by
  rw [h.undelivered_perm.length_eq]
  exact h.base.inv.items

theorem MixedInv.keepsChunks (h : MixedInv S c.data.queue c) : KeepsChunks c :=
  ⟨h.once, fun _ hv => h.undelivered_perm.mem_iff.mp hv, h.items⟩

variable [DecidableEq ς]

/-- A `Get` that does not take the front drops a chunk that nobody has received. -/
theorem MixedInv.getsFront_of_keeps (h : MixedInv S c.data.queue c)
    (hnext : NextNarrow S (c.map MixedWorker.toWorker).thread) {ok : Request → Prop}
    (hthreads : MixedThreads ok c) {t : Int ⊕ ς}
    (hs : Step monitor (mixedWorkers S) c t c') (hkeeps : KeepsChunks c') : GetsFront S c t := by
  cases h.step_cases hnext hthreads (fun _ => rfl) hs with
  | @producer p c' hstep =>
    obtain ⟨worker, hworker⟩ := hthreads.producers p
    intro p' v hcall
    rw [hworker] at hcall
    have hcall' : (workers S).call ((c.map MixedWorker.toWorker).thread (.inl p)) =
        some (.get p' v) := by
      show (workers S).call (c.thread (.inl p)).toWorker = _
      rw [hworker]
      exact hcall
    rcases (h.base.producer_call hcall').2.2 with ⟨v', hpush⟩ | hdelete
    · cases hpush
    · cases hdelete
  | quiet events hfront hd hth hh hpushed hdelivered => exact hfront
  | deliver w e hw hiff hd hth hh hpushed hdelivered =>
    rw [hiff]
    obtain ⟨front, rest, hq⟩ := List.exists_cons_of_ne_nil (List.ne_nil_of_mem hw)
    have hqueue : c'.data.queue = rest := by
      rw [hd, resetIfFinished_queue, hq]
      rfl
    have hnodup : (front :: rest).Nodup := hq ▸ h.base.inv.nodup
    rw [hq, List.head?_cons]
    by_contra hne
    -- `front` is not delivered, and no longer in the queue
    have hfront : front ∈ undelivered c.history :=
      h.undelivered_perm.mem_iff.mpr (by rw [hq]; exact List.mem_cons_self)
    obtain ⟨hfrontPushed, hfrontUndelivered⟩ := List.mem_filter.mp hfront
    have hperm := delivered_append_perm c.history [e]
    rw [hdelivered] at hperm
    have hstill : front ∈ undelivered c'.history := by
      refine List.mem_filter.mpr ⟨?_, ?_⟩
      · rw [hh, pushed_append]
        exact List.mem_append_left _ hfrontPushed
      · rw [decide_eq_true_eq, hh, hperm.mem_iff, List.mem_append, List.mem_singleton]
        rintro (hold | hnew)
        · exact of_decide_eq_true hfrontUndelivered hold
        · exact hne (congrArg some hnew)
    have hmem := hkeeps.reachable front hstill
    rw [hqueue] at hmem
    exact (List.nodup_cons.mp hnodup).1 hmem

omit [DecidableEq T] in
theorem MixedThreads.reachable {ok : Request → Prop} (hrequests : ∀ s, ∀ r ∈ requests s, ok r)
    (h : Reachable monitor (mixedWorkers S) (mixedStart S B requests) c) : MixedThreads ok c :=
  h.invariant (I := MixedThreads ok) (.start hrequests) fun _ _ _ hI hs => hI.step hs

omit [DecidableEq T] in
/-- The invariant of the runs whose steps all take the front. -/
theorem MixedInv.of_run (hB : 0 < B) (hnarrow : S.Narrow B)
    {tr : List (MixedConfig T ς × (Int ⊕ ς))}
    (h : Run monitor (mixedWorkers S) (mixedStart S B requests) tr c)
    (hok : ∀ s ∈ tr, GetsFront S s.1 s.2) : MixedInv S c.data.queue c := by
  have hboth := h.invariant (I := fun c => MixedInv S c.data.queue c ∧
    MixedThreads (fun _ => True) c) hok ⟨.start hB hnarrow.slots, .start fun _ _ _ => trivial⟩ ?_
  · exact hboth.1
  · rintro c t c' ⟨hI, hthreads⟩ hfront hs
    obtain ⟨stored', hI', hq⟩ := hI.step (hnarrow.next _) hthreads (fun _ => rfl) hs
    rw [← hq rfl hfront] at hI'
    exact ⟨hI', hthreads.step hs⟩

omit [DecidableEq T] in
/-- The invariant of the runs without `Pop`. -/
theorem MixedInv.of_gets (hB : 0 < B) (hnarrow : S.Narrow B) (hgets : ∀ s, .pop ∉ requests s)
    (h : Reachable monitor (mixedWorkers S) (mixedStart S B requests) c) :
    ∃ stored, MixedInv S stored c := by
  have hne : ∀ s, ∀ r ∈ requests s, r ≠ .pop := fun s r hr e => hgets s (e ▸ hr)
  have hboth := h.invariant (I := fun c => (∃ stored, MixedInv S stored c) ∧
    MixedThreads (· ≠ .pop) c) ⟨⟨[], .start hB hnarrow.slots⟩, .start hne⟩ ?_
  · exact hboth.1
  · rintro c t c' ⟨⟨stored, hI⟩, hthreads⟩ hs
    have hpops : PopsStored S stored c t := by
      intro hcall
      cases t with
      | inl p =>
        obtain ⟨worker, hworker⟩ := hthreads.producers p
        have hcall' : (workers S).call ((c.map MixedWorker.toWorker).thread (.inl p)) =
            some .pop := by
          show (workers S).call (c.thread (.inl p)).toWorker = _
          rw [hworker] at hcall ⊢
          exact hcall
        rcases (hI.base.producer_call hcall').2.2 with ⟨v', hpush⟩ | hdelete
        · cases hpush
        · cases hdelete
      | inr s =>
        obtain ⟨todo, htodo, hall⟩ := hthreads.consumers s
        rw [htodo] at hcall
        cases todo with
        | nil => cases hcall
        | cons r todo =>
          have hr := hall r List.mem_cons_self
          cases r with
          | pop => exact absurd rfl hr
          | get p v => cases hcall
    obtain ⟨stored', hI', -⟩ := hI.step (hnarrow.next _) hthreads hpops hs
    exact ⟨⟨stored', hI'⟩, hthreads.step hs⟩

/-- **Exactly when mixing `Pop` and `Get` keeps exactly-once delivery.** In a run,
every state does if and only if every `Get` that returns a chunk finds it in
front of `m_queue`. Without `Pop`, in every run, no chunk is returned twice and
`m_itemsToRead` is right. -/
theorem mixed_keeps_chunks_iff (hB : 0 < B) (hnarrow : S.Narrow B)
    {tr : List (MixedConfig T ς × (Int ⊕ ς))}
    (h : Run monitor (mixedWorkers S) (mixedStart S B requests) tr c) :
    (((∀ s ∈ tr, KeepsChunks s.1) ∧ KeepsChunks c) ↔ ∀ s ∈ tr, GetsFront S s.1 s.2) ∧
      ((∀ s, .pop ∉ requests s) → (delivered c.history).Nodup ∧
        c.data.itemsToRead = (undelivered c.history).length) := by
  constructor
  · induction h with
    | start =>
      refine iff_of_true ⟨nofun, ?_⟩ nofun
      exact MixedInv.keepsChunks (.start hB hnarrow.slots)
    | @step tr c c' t hr hs ih =>
      have hbefore : ((∀ s ∈ tr ++ [(c, t)], KeepsChunks s.1) ↔ ∀ s ∈ tr, GetsFront S s.1 s.2) := by
        rw [← ih]
        simp only [List.mem_append, List.mem_singleton, or_imp, forall_and, forall_eq]
      constructor
      · rintro ⟨hkeeps, hlast⟩
        have hfronts := hbefore.mp hkeeps
        have hI := MixedInv.of_run hB hnarrow hr hfronts
        have hthreads := MixedThreads.reachable (fun _ _ _ => trivial) ⟨tr, hr⟩
        have hfront := hI.getsFront_of_keeps (hnarrow.next _) hthreads hs hlast
        intro s hmem
        rcases List.mem_append.mp hmem with hold | hnew
        · exact hfronts s hold
        · rw [List.mem_singleton.mp hnew]
          exact hfront
      · intro hfronts
        refine ⟨hbefore.mpr fun s hmem => hfronts s (List.mem_append_left _ hmem), ?_⟩
        exact (MixedInv.of_run hB hnarrow (hr.step hs) hfronts).keepsChunks
  · intro hgets
    obtain ⟨stored, hI⟩ := MixedInv.of_gets hB hnarrow hgets ⟨tr, h⟩
    exact ⟨hI.once, hI.items⟩

end Delivery

/-- One producer with two chunks. -/
def twoChunks : Producers (Int × Nat) := .ofLengths [0] singleChunk.nodup fun _ => 2

/-- **A chunk delivered twice, and one lost.** `Get` for the second of two chunks
drops the first one from `m_queue`, and `Pop` finds the second one in front. -/
theorem mixed_delivers_twice :
    ∃ c, Reachable monitor (mixedWorkers twoChunks)
        (mixedStart twoChunks 2 fun _ : Unit => [.get 0 1, .pop]) c ∧
      ¬ (delivered c.history).Nodup ∧ (∃ v ∈ undelivered c.history, v ∉ c.data.queue) ∧
      c.data.itemsToRead ≠ (undelivered c.history).length := by
  let facts : MixedConfig (Int × Nat) Unit → _ := fun c =>
    (pushed c.history, delivered c.history, c.data.queue, c.data.itemsToRead)
  have hschedule : (Config.schedule monitor (mixedWorkers twoChunks) [.inl 0, .inr ()]
      [.inl 0, .inl 0, .inr (), .inr ()]
      (mixedStart twoChunks 2 fun _ : Unit => [.get 0 1, .pop])).map facts =
      some ([(0, 0), (0, 1)], [(0, 1), (0, 1)], [], 0) := by
    decide +kernel
  obtain ⟨c, hc, hfacts⟩ := Option.map_eq_some_iff.mp hschedule
  obtain ⟨hpushed, hdelivered, hqueue, hitems⟩ :
      pushed c.history = _ ∧ delivered c.history = _ ∧ c.data.queue = _ ∧ c.data.itemsToRead = _ := by
    simpa only [facts, Prod.mk.injEq] using hfacts
  obtain ⟨tr, hrun, _⟩ := Run.of_schedule (by simp) nofun hc
  refine ⟨c, ⟨tr, hrun⟩, ?_⟩
  unfold undelivered
  rw [hpushed, hdelivered, hqueue, hitems]
  exact ⟨by decide, ⟨(0, 0), by decide, by decide⟩, by decide⟩

/-- A `Get` that waits for its chunk and finds another one in front. -/
theorem mixed_keeps_chunks_iff_two :
    ∃ tr c, Run monitor (mixedWorkers twoProducers)
        (mixedStart twoProducers 1 fun _ : Unit => [.get 1 0]) tr c ∧
      delivered c.history = [(1, 0)] ∧ c.data.itemsToRead = (undelivered c.history).length ∧
      ¬ KeepsChunks c ∧ ¬ ∀ s ∈ tr, GetsFront twoProducers s.1 s.2 := by
  let facts : MixedConfig (Int × Nat) Unit → _ := fun c =>
    (pushed c.history, delivered c.history, c.data.queue)
  have hschedule : (Config.schedule monitor (mixedWorkers twoProducers) [.inl 0, .inl 1, .inr ()]
      [.inr (), .inl 0, .inl 1, .inr ()]
      (mixedStart twoProducers 1 fun _ : Unit => [.get 1 0])).map facts =
      some ([(0, 0), (1, 0)], [(1, 0)], [(1, 0)]) := by
    decide +kernel
  obtain ⟨c, hc, hfacts⟩ := Option.map_eq_some_iff.mp hschedule
  obtain ⟨hpushed, hdelivered, hqueue⟩ :
      pushed c.history = _ ∧ delivered c.history = _ ∧ c.data.queue = _ := by
    simpa only [facts, Prod.mk.injEq] using hfacts
  obtain ⟨tr, hrun, _⟩ := Run.of_schedule (by simp) nofun hc
  have hiff := mixed_keeps_chunks_iff (by decide) (twoProducers_narrow (by decide)) hrun
  have hlost : ¬ KeepsChunks c := by
    intro hkeeps
    have hmem : (0, 0) ∈ c.data.queue := by
      refine hkeeps.reachable (0, 0) ?_
      unfold undelivered
      rw [hpushed, hdelivered]
      decide
    rw [hqueue] at hmem
    exact absurd hmem (by decide)
  refine ⟨tr, c, hrun, hdelivered, (hiff.2 (by simp)).2, hlost, ?_⟩
  rw [← hiff.1]
  exact fun h => hlost h.2

end SasLibclient
