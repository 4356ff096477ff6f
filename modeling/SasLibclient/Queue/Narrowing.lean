import SasLibclient.Queue.Replay
import SasLibclient.Queue.Teardown

/-!
# Ids and slots beyond the range of `int`

One consumer pops every chunk before the next one is pushed, so that no thread
ever sleeps (`InTurn.next`). After `2 ^ 31` chunks the next id is negative when
it is converted to `int`: with batches of one chunk its `Push` does not wait for
the chunk before it, and with batches of three it takes the slot of another
producer, so that the batch does not end any more.
-/

namespace SasLibclient

open Monitors QueueItem ThreadSafeBatchQueue

section InTurn

variable {T : Type} [QueueItem T] {S : Producers T} {B n : Nat} {p : Int}
  {c c' : QueueConfig T Unit}

/-- The producer `p` has pushed `n` chunks, and the consumer has popped those that
are not in `m_queue`; the other producers have ended and no thread is inside a
call. -/
structure InTurn (S : Producers T) (B : Nat) (p : Int) (n : Nat) (c : QueueConfig T Unit) :
    Prop where
  reach : Reachable monitor (workers S) (popStart S B Unit) c
  inv : PopInv S c
  mem : p ∈ S.ids
  thread : c.thread (.inl p) = .producer p n
  active : ∀ q ∈ S.ids, c.data.active q = true ↔ q = p
  ready : ∀ t, c.status t = .ready

theorem InTurn.batchSize (h : InTurn S B p n c) : c.data.batchSize = B :=
  (frame_reachable h.reach).1

theorem InTurn.totalProducers (h : InTurn S B p n c) : c.data.totalProducers = S.ids.length :=
  (frame_reachable h.reach).2.1

theorem InTurn.sentBy (h : InTurn S B p n c) : sentBy S c.thread p = n := by
  simp [SasLibclient.sentBy, h.thread]

theorem InTurn.popper (h : InTurn S B p n c) : ∃ received, c.thread (.inr ()) = .popper received :=
  h.inv.popping (h.inv.base.activeProducers_ne h.mem ((h.active p h.mem).mpr rfl)) ()

theorem InTurn.deleted (h : InTurn S B p n c) {q : Int} (hq : q ≠ p) :
    c.thread (.inl q) = .deleted q := by
  rcases h.inv.base.producers q with ⟨hdeleted, _⟩ | ⟨hmem, hact, _⟩
  · exact hdeleted
  · exact absurd ((h.active q hmem).mp hact) hq

/-- Only `p` can push, and its next id is in the range of `int`. -/
theorem InTurn.nextNarrow (h : InTurn S B p n c) (hn : n < 2 ^ 31) : NextNarrow S c.thread := by
  intro q hq hlt
  by_cases e : q = p
  · rw [e, h.sentBy]
    exact hn
  · have hact : c.data.active q = false := by
      rw [← Bool.not_eq_true, h.active q hq]
      exact e
    rw [h.inv.base.sentBy_of_inactive hact] at hlt
    exact absurd hlt (Nat.lt_irrefl _)

/-- The batch, and the share of it that has been read, when nothing is stored. -/
theorem InTurn.batch (h : InTurn S B p n c) (hqueue : c.data.queue = []) :
    c.data.currentBatch = n / B ∧ c.data.readOf p = n % B := by
  have hcore := h.inv.base.inv
  rw [hqueue] at hcore
  have hpos := hcore.pos
  have hact := (h.active p h.mem).mpr rfl
  have hbalance := hcore.balance p h.mem hact
  have hbound := hcore.bound p h.mem
  rw [h.sentBy, countOf, List.countP_nil, Nat.add_zero, h.batchSize] at hbalance
  rw [countOf, List.countP_nil, Nat.add_zero, h.batchSize] at hbound
  have hne : c.data.readOf p ≠ B := by
    intro heq
    have hfinished : c.data.isBatchFinished = true := by
      refine (isBatchFinished_iff hcore.numbered).mpr ⟨fun q hq hactq => ?_, hcore.items⟩
      rw [(h.active q hq).mp hactq, heq, h.batchSize]
    rw [hcore.unfinished ⟨p, h.mem, hact⟩] at hfinished
    cases hfinished
  rw [h.batchSize] at hpos
  have hlt : c.data.readOf p < B := by omega
  have hn : n = c.data.readOf p + B * c.data.currentBatch := hbalance.symm
  constructor
  · rw [hn, Nat.add_mul_div_left _ _ hpos, Nat.div_eq_of_lt hlt, Nat.zero_add]
  · rw [hn, Nat.add_mul_mod_self_left, Nat.mod_eq_of_lt hlt]

/-- No slot is set when nothing is stored. -/
theorem InTurn.slot_free (h : InTurn S B p n c) (hqueue : c.data.queue = []) {j : Nat}
    (hj : j < S.ids.length * B) : (c.data.dataArray j).isSet = false := by
  by_contra hset
  obtain ⟨v, hv, -⟩ := h.inv.base.inv.chunk_at h.inv.base.slots_lt (j := j)
    (by rw [h.totalProducers, h.batchSize]; exact hj) (by simpa using hset)
  rw [hqueue] at hv
  cases hv

/-- The state after a completed call. -/
def completed (c : QueueConfig T Unit) (t : Int ⊕ Unit) (i : Call T) (r : Result T) (w : Worker T)
    (q : ThreadSafeBatchQueue T) : QueueConfig T Unit where
  data := q
  thread := Function.update c.thread t w
  status := Function.update c.status t .ready
  history := c.history ++ [⟨t, i, r⟩]

theorem step_completed {t : Int ⊕ Unit} {i : Call T} {r : Result T}
    (hready : ∀ t, c.status t = .ready) (hcall : (workers S).call (c.thread t) = some i)
    (hexit : (monitor.enter i c.data).exit = .ret r) :
    Step monitor (workers S) c t
      (completed c t i r ((workers S).after (c.thread t) r) (monitor.enter i c.data).data) := by
  refine Step.of_awake ?_ hcall (Monitor.segment_of_ready (hready t) _ _) hexit
  intro u cv hu
  rw [hready u] at hu
  cases hu

omit [QueueItem T] in
theorem status_completed {t : Int ⊕ Unit} {i : Call T} {r : Result T} {w : Worker T}
    {q : ThreadSafeBatchQueue T} (hready : ∀ t, c.status t = .ready) (u : Int ⊕ Unit) :
    (completed c t i r w q).status u = .ready := by
  by_cases e : u = t
  · rw [e]
    exact Function.update_self _ _ _
  · rw [← hready u]
    exact Function.update_of_ne e _ _

omit [QueueItem T] in
theorem thread_completed_ne {t u : Int ⊕ Unit} {i : Call T} {r : Result T} {w : Worker T}
    {q : ThreadSafeBatchQueue T} (hu : u ≠ t) : (completed c t i r w q).thread u = c.thread u :=
  Function.update_of_ne hu _ _

omit [QueueItem T] in
theorem thread_completed_self {t : Int ⊕ Unit} {i : Call T} {r : Result T} {w : Worker T}
    {q : ThreadSafeBatchQueue T} : (completed c t i r w q).thread t = w :=
  Function.update_self _ _ _

/-- The data after a `Push`, whatever the index is. -/
def stored (v : T) (q : ThreadSafeBatchQueue T) : ThreadSafeBatchQueue T :=
  { q with
    dataArray := Function.update q.dataArray (q.itemIndex v) ⟨some v, true⟩
    queue := q.queue ++ [v]
    itemsToRead := q.itemsToRead + 1 }

theorem push_stored {v : T} {q : ThreadSafeBatchQueue T} (hgo : q.pushMustWait v = false)
    (hfree : (q.dataArray (q.itemIndex v)).isSet = false) :
    ThreadSafeBatchQueue.push v q = ⟨stored v q,
      [.one .emptyCV, .all (.dataNotReadyCV (q.partitionIdToNumber (partitionId v)))],
      .ret .unit⟩ := by
  simp only [ThreadSafeBatchQueue.push, hgo, hfree, Bool.false_eq_true, if_false]
  rfl

theorem push_abort {v : T} {q : ThreadSafeBatchQueue T} (hgo : q.pushMustWait v = false)
    (hset : (q.dataArray (q.itemIndex v)).isSet = true) :
    ThreadSafeBatchQueue.push v q = ⟨q, [], .ret (.abort "pushing to non-empty place")⟩ := by
  simp only [ThreadSafeBatchQueue.push, hgo, hset, Bool.false_eq_true, if_false, if_true]

theorem pop_stored {v : T} {rest : List T} {q : ThreadSafeBatchQueue T} (hitems : q.itemsToRead ≠ 0)
    (hqueue : q.queue = v :: rest)
    (hnot : isBatchFinished { (q.readValue (q.itemIndex v)).2 with queue := rest } = false) :
    ThreadSafeBatchQueue.pop q =
      ⟨{ (q.readValue (q.itemIndex v)).2 with queue := rest }, [], .ret (.value v)⟩ := by
  simp only [ThreadSafeBatchQueue.pop, hitems, hqueue, false_and, if_false, resetIfFinished, hnot,
    Bool.false_eq_true]

omit [QueueItem T] in
theorem isBatchFinished_eq_false {q : ThreadSafeBatchQueue T} {i : Nat} (hi : i < q.totalProducers)
    (hact : q.producerActiveArray i = true) (hne : q.readInBatch i ≠ q.batchSize) :
    q.isBatchFinished = false := by
  rw [isBatchFinished, Bool.and_eq_false_iff, List.all_eq_false]
  exact Or.inl ⟨i, List.mem_range.mpr hi, by simp [hact, hne]⟩

theorem call_of_producer {w : Worker T} (hw : w = .producer p n) {v : T}
    (hv : (S.stream p)[n]? = some v) : (workers S).call w = some (.push v) := by
  rw [hw]
  simp only [workers, hv]

theorem InTurn.call (h : InTurn S B p n c) {v : T} (hv : (S.stream p)[n]? = some v) :
    (workers S).call (c.thread (.inl p)) = some (.push v) :=
  call_of_producer h.thread hv

theorem InTurn.after (h : InTurn S B p n c) {v : T} (hv : (S.stream p)[n]? = some v)
    (r : Result T) : (workers S).after (c.thread (.inl p)) r = .producer p (n + 1) := by
  rw [h.thread]
  exact if_pos (List.getElem?_eq_some_iff.mp hv).1

/-- **The next chunk is pushed.** -/
theorem InTurn.push (h : InTurn S B p n c) (hqueue : c.data.queue = []) (hn : n < 2 ^ 31) {v : T}
    (hv : (S.stream p)[n]? = some v) :
    InTurn S B p (n + 1) (completed c (.inl p) (.push v) .unit (.producer p (n + 1))
      (afterPush v c.data)) := by
  obtain ⟨hpv, hid⟩ := S.sequential p h.mem n v hv
  have hact := (h.active p h.mem).mpr rfl
  have hcall := h.call hv
  have hgo : c.data.pushMustWait v = false := by
    rw [← Bool.not_eq_true, h.inv.base.pushMustWait_iff (h.nextNarrow hn) h.mem hact hcall,
      h.batchSize, hid, (h.batch hqueue).1]
    exact Nat.lt_irrefl _
  have hmem : partitionId v ∈ S.ids := by
    rw [hpv]
    exact h.mem
  have hid' : itemId v < 2 ^ 31 := by
    rw [hid]
    exact hn
  have hpush := h.inv.base.inv.push_ret (v := v) hmem (by rw [hpv]; exact hact)
    (by rw [hpv, hid, h.sentBy]) ⟨hid', h.inv.base.inRange hmem _⟩ hgo
  have hstep := step_completed h.ready hcall (r := .unit) (congrArg Segment.exit hpush)
  rw [h.after hv, show (monitor.enter (.push v) c.data).data = afterPush v c.data from
    congrArg Segment.data hpush] at hstep
  refine ⟨h.reach.next hstep, h.inv.step (h.nextNarrow hn) hstep, h.mem,
    Function.update_self _ _ _, h.active, status_completed h.ready⟩

/-- **The consumer pops it.** -/
theorem InTurn.pop (h : InTurn S B p n c) {v : T} (hqueue : c.data.queue = [v]) :
    ∃ c', InTurn S B p n c' ∧ c'.data.queue = [] := by
  obtain ⟨received, hpopper⟩ := h.popper
  have hcall : (workers S).call (c.thread (.inr ())) = some .pop := by
    rw [hpopper]
    rfl
  rcases h.inv.base.inv.toBatchCore.pop_cases with ⟨hnil, _⟩ | ⟨hnil, _⟩ | ⟨w, rest, hq, hpop⟩
  · rw [hqueue] at hnil
    cases hnil
  · rw [hqueue] at hnil
    cases hnil
  · obtain ⟨rfl, rfl⟩ := List.cons.inj (hqueue.symm.trans hq)
    have hstep := step_completed h.ready hcall (r := .value v) (congrArg Segment.exit hpop)
    rw [show (monitor.enter .pop c.data).data = (afterRead v [] c.data).resetIfFinished.1 from
      congrArg Segment.data hpop] at hstep
    refine ⟨_, ⟨h.reach.next hstep, h.inv.of_popStep (h.inv.consumer_cases hstep), h.mem, ?_, ?_,
      status_completed h.ready⟩, resetIfFinished_queue _⟩
    · exact (thread_completed_ne Sum.inl_ne_inr).trans h.thread
    · intro q hq
      refine Iff.trans ?_ (h.active q hq)
      show ((afterRead v [] c.data).resetIfFinished.1).active q = true ↔ _
      rw [resetIfFinished_active]
      rfl

theorem InTurn.exists (h : InTurn S B p 0 c) (hqueue : c.data.queue = []) (n : Nat)
    (hn : n ≤ 2 ^ 31) (hlength : n ≤ (S.stream p).length) :
    ∃ c', InTurn S B p n c' ∧ c'.data.queue = [] := by
  induction n with
  | zero => exact ⟨c, h, hqueue⟩
  | succ n ih =>
    obtain ⟨c₁, h₁, hqueue₁⟩ := ih (by omega) (by omega)
    have hv := List.getElem?_eq_getElem (l := S.stream p) (i := n) (by omega)
    have hpushed := h₁.push hqueue₁ (by omega) hv
    refine hpushed.pop (v := (S.stream p)[n]) ?_
    show c₁.data.queue ++ [_] = _
    rw [hqueue₁]
    rfl

end InTurn

/-! ## A stream of more than `2 ^ 31` chunks -/

/-- The producer 0 has no chunks. -/
def oneStream (L : Nat) : Producers (Int × Nat) :=
  .ofLengths [0, 1] nodup_zero_one fun p => if p = 1 then L else 0

variable {L B n : Nat} {c : QueueConfig (Int × Nat) Unit}

theorem oneStream_length : ((oneStream L).stream 1).length = L := by
  simp [oneStream, Producers.ofLengths]

theorem oneStream_getElem (hn : n < L) : ((oneStream L).stream 1)[n]? = some (1, n) := by
  simp [oneStream, Producers.ofLengths, hn]

theorem inTurn_start (hB : 0 < B) (hslots : 2 * B < 2 ^ 31) :
    ∃ c, InTurn (oneStream L) B 1 0 c ∧ c.data.queue = [] := by
  have hstart : PopInv (oneStream L) (popStart (oneStream L) B Unit) :=
    .start B hB hslots
  have hcall : (workers (oneStream L)).call
      ((popStart (oneStream L) B Unit).thread (.inl 0)) = some (.deleteProducer 0) := rfl
  have hnext : NextNarrow (oneStream L) (popStart (oneStream L) B Unit).thread := by
    intro p hp _
    simp [sentBy, popStart, startConfig, hp]
  have hstep := step_completed (fun _ => rfl) hcall (r := .unit) rfl
  have hmem : (1 : Int) ∈ (oneStream L).ids :=
    List.mem_cons_of_mem _ (List.mem_singleton_self 1)
  refine ⟨_, ⟨Reachable.refl.next hstep, hstart.step hnext hstep, hmem, ?_, ?_,
    status_completed fun _ => rfl⟩, ?_⟩
  · rfl
  · intro q hq
    show ((deactivate 0 (create B [0, 1])).resetIfFinished.1).active q = true ↔ _
    rw [resetIfFinished_active, deactivate_active]
    rcases List.mem_cons.mp hq with rfl | hq
    · simp
    · rw [List.mem_singleton.mp hq]
      refine iff_of_true ?_ rfl
      rfl
  · show ((deactivate 0 (create B [0, 1])).resetIfFinished.1).queue = []
    rw [resetIfFinished_queue]
    rfl

theorem exists_inTurn (hB : 0 < B) (hslots : 2 * B < 2 ^ 31) (hn : n ≤ 2 ^ 31)
    (hlength : n ≤ L) :
    ∃ c, InTurn (oneStream L) B 1 n c ∧ c.data.queue = [] := by
  obtain ⟨c, h, hqueue⟩ := inTurn_start (L := L) hB hslots
  exact h.exists hqueue n hn (by rw [oneStream_length]; exact hlength)

theorem oneStream_ids : (oneStream L).ids = [0, 1] := rfl

theorem int32_limit : int32 (2 ^ 31 : Nat) = -2 ^ 31 := by decide +kernel

theorem pushMustWait_pair (q : ThreadSafeBatchQueue (Int × Nat)) (p : Int) (i : Nat) :
    q.pushMustWait (p, i) = decide (int32 (i / q.batchSize : Nat) > int32 q.currentBatch) := rfl

theorem InTurn.itemIndex_eq (h : InTurn (oneStream L) B 1 n c) (i : Nat) :
    c.data.itemIndex (1, i) = slotIndex B 1 (int32 i) := by
  have hnumber : c.data.partitionIdToNumber 1 = 1 := by
    rw [(frame_reachable h.reach).2.2]
    rfl
  rw [itemIndex, targetIndex, h.batchSize]
  show slotIndex B (c.data.partitionIdToNumber 1) (int32 i) = _
  rw [hnumber]
  rfl

/-- **A `Push` that does not wait**: with batches of one chunk, the chunk
`2 ^ 31` is pushed while the chunk before it is stored, in the same slot. -/
theorem long_stream_aborts :
    ∃ c, Reachable monitor (workers (oneStream (2 ^ 31 + 1)))
        (popStart (oneStream (2 ^ 31 + 1)) 1 Unit) c ∧
      ∃ e ∈ c.history, e.call = .push (1, 2 ^ 31) ∧
        e.result = .abort "pushing to non-empty place" := by
  obtain ⟨m, hm⟩ : ∃ m, m + 1 = 2 ^ 31 := ⟨2 ^ 31 - 1, rfl⟩
  obtain ⟨c₀, h₀, hqueue⟩ := exists_inTurn (L := 2 ^ 31 + 1) (B := 1) (n := m)
    (by decide) (by decide) (by omega) (by omega)
  have h := h₀.push hqueue (by omega) (oneStream_getElem (by omega))
  obtain ⟨c₁, hc₁⟩ : ∃ c₁, completed c₀ (.inl 1) (.push (1, m)) .unit (.producer 1 (m + 1))
    (afterPush (1, m) c₀.data) = c₁ := ⟨_, rfl⟩
  have hstored : (1, m) ∈ c₁.data.queue := by
    rw [← hc₁]
    exact List.mem_append_right _ (List.mem_singleton_self _)
  have hbatch : c₁.data.currentBatch = m := by
    rw [← hc₁]
    exact (h₀.batch hqueue).1.trans (Nat.div_one m)
  rw [hc₁, hm] at h
  have hindex : ∀ i : Nat, c₁.data.itemIndex (1, i) = 1 := by
    intro i
    rw [h.itemIndex_eq, slotIndex, Int.natCast_one, Int.tmod_one]
    exact int32_eq (by decide) (by decide)
  have hset : (c₁.data.dataArray (c₁.data.itemIndex (1, 2 ^ 31))).isSet = true := by
    have hslot := (h.inv.base.inv.stored_spec _ hstored).2.2.2
    have hid : int32 (itemId ((1, m) : Int × Nat)) = itemId ((1, m) : Int × Nat) :=
      int32_natCast (show m < 2 ^ 31 by omega)
    have hsame : c₁.data.targetIndex (partitionId ((1, m) : Int × Nat))
        (itemId ((1, m) : Int × Nat)) = c₁.data.itemIndex (1, m) := by
      rw [itemIndex, hid]
    rw [hsame, hindex] at hslot
    rw [hindex, hslot]
  have hgo : c₁.data.pushMustWait (1, 2 ^ 31) = false := by
    rw [pushMustWait_pair, h.batchSize, hbatch, decide_eq_false_iff_not, Nat.div_one, int32_limit,
      int32_natCast (by omega)]
    omega
  have hexit := congrArg Segment.exit (push_abort hgo hset)
  have hstep := step_completed h.ready (h.call (oneStream_getElem (by omega))) hexit
  exact ⟨_, h.reach.next hstep, _, List.mem_append_right _ (List.mem_singleton_self _), rfl, rfl⟩

/-! ### The slot of another producer -/

/-- With batches of three chunks, the chunk `2 ^ 31` goes into the slot 1, which
is one of the producer 0. -/
theorem InTurn.limit_pushed (h : InTurn (oneStream L) 3 1 (2 ^ 31) c)
    (hqueue : c.data.queue = []) :
    c.data.pushMustWait (1, 2 ^ 31) = false ∧ c.data.itemIndex (1, 2 ^ 31) = 1 ∧
      (c.data.dataArray 1).isSet = false := by
  refine ⟨?_, ?_, h.slot_free (j := 1) hqueue (by rw [oneStream_ids]; decide)⟩
  · rw [pushMustWait_pair, h.batchSize, (h.batch hqueue).1, decide_eq_false_iff_not]
    exact Int.lt_irrefl _
  · rw [h.itemIndex_eq, int32_limit]
    decide +kernel

/-- The state after the `Push` of the chunk `2 ^ 31`. -/
def afterLimit (c : QueueConfig (Int × Nat) Unit) : QueueConfig (Int × Nat) Unit :=
  completed c (.inl 1) (.push (1, 2 ^ 31)) .unit (.producer 1 (2 ^ 31 + 1))
    (stored (1, 2 ^ 31) c.data)

theorem InTurn.step_limit (h : InTurn (oneStream L) 3 1 (2 ^ 31) c)
    (hqueue : c.data.queue = []) (hlength : 2 ^ 31 < L) :
    Step monitor (workers (oneStream L)) c (.inl 1) (afterLimit c) := by
  obtain ⟨hgo, hindex, hfree⟩ := h.limit_pushed hqueue
  have hpush := push_stored hgo (by rw [hindex]; exact hfree)
  have hv := oneStream_getElem hlength
  have hstep := step_completed h.ready (h.call hv) (congrArg Segment.exit hpush)
  rw [h.after hv, show (monitor.enter (.push (1, 2 ^ 31)) c.data).data = stored (1, 2 ^ 31) c.data
    from congrArg Segment.data hpush] at hstep
  exact hstep

/-- **The batch barrier breaks**: the chunk is counted neither as read nor by the
set slots of its producer. -/
theorem long_stream_breaks_barrier :
    ∃ c, Reachable monitor (workers (oneStream (2 ^ 31 + 1)))
        (popStart (oneStream (2 ^ 31 + 1)) 3 Unit) c ∧
      ¬ BatchBarrier (oneStream (2 ^ 31 + 1)) 3 c := by
  obtain ⟨c, h, hqueue⟩ := exists_inTurn (L := 2 ^ 31 + 1) (B := 3) (n := 2 ^ 31)
    (by decide) (by decide) (Nat.le_refl _) (by decide)
  obtain ⟨-, hindex, -⟩ := h.limit_pushed hqueue
  refine ⟨afterLimit c, h.reach.next (h.step_limit hqueue (by decide)), ?_⟩
  intro hbarrier
  have hnumber : c.data.partitionIdToNumber 1 = 1 := by
    rw [(frame_reachable h.reach).2.2]
    rfl
  have hbatch := h.batch hqueue
  have hslots : (afterLimit c).data.setSlotsOf 1 = 0 := by
    refine Finset.card_eq_zero.mpr (Finset.filter_eq_empty_iff.mpr fun j hj => ?_)
    have hlt : j < 3 := by
      rw [Finset.mem_range] at hj
      exact hj.trans_eq h.batchSize
    have hne : ((c.data.partitionIdToNumber 1 * c.data.batchSize + j : Nat) : Int) ≠ 1 := by
      rw [hnumber, h.batchSize]
      omega
    show ¬ (Function.update c.data.dataArray (c.data.itemIndex (1, 2 ^ 31)) _
      ((c.data.partitionIdToNumber 1 * c.data.batchSize + j : Nat) : Int)).isSet = true
    rw [hindex, Function.update_of_ne hne, hnumber, h.batchSize,
      h.slot_free hqueue (by rw [oneStream_ids, List.length_cons, List.length_singleton]; omega)]
    exact Bool.false_ne_true
  have hcount : countOf 1 (pushed (afterLimit c).history) = 2 ^ 31 + 1 := by
    show countOf 1 (pushed (c.history ++ [_])) = _
    rw [pushed_append, countOf, List.countP_append]
    have hbefore : countOf 1 (pushed c.history) = 2 ^ 31 :=
      (h.inv.base.countOf_pushed h.mem).trans h.sentBy
    exact congrArg (· + 1) hbefore
  have hbalance := hbarrier.balance 1 h.mem ((h.active 1 h.mem).mpr rfl)
  rw [hslots, hcount] at hbalance
  change c.data.readOf 1 + 0 + 3 * c.data.currentBatch = 2 ^ 31 + 1 at hbalance
  rw [hbatch.1, hbatch.2] at hbalance
  omega

/-- The state after that chunk has been popped. -/
def poppedLimit (c : QueueConfig (Int × Nat) Unit) (received : List (Int × Nat)) :
    QueueConfig (Int × Nat) Unit :=
  completed (afterLimit c) (.inr ()) .pop (.value (1, 2 ^ 31)) (.popper (received ++ [(1, 2 ^ 31)]))
    { ((afterLimit c).data.readValue 1).2 with queue := [] }

theorem InTurn.step_poppedLimit (h : InTurn (oneStream L) 3 1 (2 ^ 31) c)
    (hqueue : c.data.queue = []) {received : List (Int × Nat)}
    (hpopper : c.thread (.inr ()) = .popper received) :
    Step monitor (workers (oneStream L)) (afterLimit c) (.inr ())
      (poppedLimit c received) := by
  obtain ⟨-, hindex, -⟩ := h.limit_pushed hqueue
  have hnumber : c.data.partitionIdToNumber 1 = 1 := by
    rw [(frame_reachable h.reach).2.2]
    rfl
  have hitems : c.data.itemsToRead = 0 := by
    rw [h.inv.base.inv.items, hqueue]
    rfl
  have hread : c.data.readInBatch 1 = 2 := by
    have hshare := (h.batch hqueue).2
    rw [readOf, hnumber] at hshare
    exact hshare
  have hactive : c.data.producerActiveArray 1 = true := by
    have hact := (h.active 1 h.mem).mpr rfl
    rw [ThreadSafeBatchQueue.active, hnumber] at hact
    exact hact
  have hthread : (afterLimit c).thread (.inr ()) = .popper received :=
    (thread_completed_ne Sum.inr_ne_inl).trans hpopper
  have hcall : (workers (oneStream L)).call ((afterLimit c).thread (.inr ())) = some .pop := by
    rw [hthread]
    rfl
  have hsame : (afterLimit c).data.itemIndex (1, 2 ^ 31) = 1 := hindex
  have hitems' : (afterLimit c).data.itemsToRead ≠ 0 := by
    show c.data.itemsToRead + 1 ≠ 0
    rw [hitems]
    decide
  have hqueue' : (afterLimit c).data.queue = [(1, 2 ^ 31)] := by
    show c.data.queue ++ [_] = _
    rw [hqueue]
    rfl
  -- the producer 0 is credited with the chunk
  have hnot : isBatchFinished { ((afterLimit c).data.readValue 1).2 with queue := [] } = false := by
    refine isBatchFinished_eq_false (i := 1) ?_ hactive ?_
    · show 1 < c.data.totalProducers
      rw [h.totalProducers, oneStream_ids]
      decide
    · show Function.update c.data.readInBatch ((1 : Int).tdiv c.data.batchSize).toNat _ 1 ≠
        c.data.batchSize
      rw [h.batchSize, Function.update_of_ne (by decide), hread]
      decide
  have hpop := pop_stored hitems' hqueue' (by rw [hsame]; exact hnot)
  rw [hsame] at hpop
  have hready : ∀ t, (afterLimit c).status t = .ready := status_completed h.ready
  have hstep := step_completed hready hcall (congrArg Segment.exit hpop)
  rw [hthread, show (monitor.enter .pop (afterLimit c).data).data = _ from
    congrArg Segment.data hpop] at hstep
  exact hstep

/-- The producer 1 is asleep in the `Push` of its next chunk, and nothing is stored. -/
structure Starved (c : QueueConfig (Int × Nat) Unit) : Prop where
  producer : c.thread (.inl 1) = .producer 1 (2 ^ 31 + 1)
  asleep : c.status (.inl 1) = .asleep .busyCV
  deleted : ∀ q, q ≠ 1 → c.thread (.inl q) = .deleted q
  popper : ∃ received, c.thread (.inr ()) = .popper received
  idle : c.status (.inr ()) = .ready
  items : c.data.itemsToRead = 0
  active : c.data.activeProducers ≠ 0

/-- The batch never finishes, since the producer 0 is credited with the chunk. -/
theorem exists_starved :
    ∃ c, Reachable monitor (workers (oneStream (2 ^ 31 + 2)))
        (popStart (oneStream (2 ^ 31 + 2)) 3 Unit) c ∧ Starved c := by
  obtain ⟨c, h, hqueue⟩ := exists_inTurn (L := 2 ^ 31 + 2) (B := 3) (n := 2 ^ 31)
    (by decide) (by decide) (Nat.le_refl _) (by decide)
  obtain ⟨received, hpopper⟩ := h.popper
  have hpopped := h.step_poppedLimit hqueue hpopper
  have hreach := (h.reach.next (h.step_limit hqueue (by decide))).next hpopped
  obtain ⟨c₂, hc₂⟩ : ∃ c₂, poppedLimit c received = c₂ := ⟨_, rfl⟩
  have hready : ∀ t, c₂.status t = .ready := by
    rw [← hc₂]
    exact status_completed (status_completed h.ready)
  have hproducer : c₂.thread (.inl 1) = .producer 1 (2 ^ 31 + 1) := by
    rw [← hc₂]
    exact (thread_completed_ne Sum.inl_ne_inr).trans thread_completed_self
  have hdeleted : ∀ q, q ≠ 1 → c₂.thread (.inl q) = .deleted q := by
    intro q hq
    rw [← hc₂]
    refine (thread_completed_ne Sum.inl_ne_inr).trans ?_
    exact (thread_completed_ne fun e => hq (Sum.inl.inj e)).trans (h.deleted hq)
  have hconsumer : c₂.thread (.inr ()) = .popper (received ++ [(1, 2 ^ 31)]) := by
    rw [← hc₂]
    exact thread_completed_self
  have hitems : c₂.data.itemsToRead = 0 := by
    rw [← hc₂]
    show c.data.itemsToRead + 1 - 1 = 0
    rw [h.inv.base.inv.items, hqueue]
    rfl
  have hactive : c₂.data.activeProducers ≠ 0 := by
    rw [← hc₂]
    show c.data.activeProducers ≠ 0
    exact h.inv.base.activeProducers_ne h.mem ((h.active 1 h.mem).mpr rfl)
  have hwait : c₂.data.pushMustWait (1, 2 ^ 31 + 1) = true := by
    have hsize : c₂.data.batchSize = 3 := by
      rw [← hc₂]
      exact h.batchSize
    have hbatch : c₂.data.currentBatch = 2 ^ 31 / 3 := by
      rw [← hc₂]
      exact (h.batch hqueue).1
    rw [pushMustWait_pair, hsize, hbatch, decide_eq_true_eq, int32_natCast (by omega),
      int32_natCast (by omega)]
    omega
  have henter : monitor.enter (.push (1, 2 ^ 31 + 1)) c₂.data = ⟨c₂.data, [], .wait .busyCV⟩ :=
    push_wait hwait
  have hcall : (workers (oneStream (2 ^ 31 + 2))).call (c₂.thread (.inl 1)) =
      some (.push (1, 2 ^ 31 + 1)) :=
    call_of_producer hproducer (oneStream_getElem (by omega))
  rw [hc₂] at hreach
  refine ⟨_, hreach.next (Step.sleep (hready _) hcall henter), hproducer,
    Config.status_sleep, hdeleted, ⟨_, hconsumer⟩, ?_, hitems, hactive⟩
  exact (Config.status_sleep_ne Sum.inr_ne_inl).trans (hready _)

/-- **The run is stuck**: the producer waits for the next batch and the consumer
for a chunk. -/
theorem long_stream_gets_stuck :
    ∃ c, Reachable monitor (workers (oneStream (2 ^ 31 + 2)))
        (popStart (oneStream (2 ^ 31 + 2)) 3 Unit) c ∧
      Stuck (workers (oneStream (2 ^ 31 + 2))) c := by
  obtain ⟨c, hreach, h⟩ := exists_starved
  obtain ⟨received, hpopper⟩ := h.popper
  have henter : monitor.enter .pop c.data = ⟨c.data, [], .wait .emptyCV⟩ := by
    show ThreadSafeBatchQueue.pop c.data = _
    rw [ThreadSafeBatchQueue.pop, if_pos ⟨h.items, h.active⟩]
  have hcall : (workers (oneStream (2 ^ 31 + 2))).call (c.thread (.inr ())) = some .pop := by
    rw [hpopper]
    rfl
  have hasleep : (c.sleep (.inr ()) .emptyCV).status (.inl 1) = .asleep .busyCV :=
    (Config.status_sleep_ne Sum.inl_ne_inr).trans h.asleep
  refine ⟨_, hreach.next (Step.sleep h.idle hcall henter), ⟨.inr (), ?_⟩, ?_⟩
  · show (workers _).call (c.thread (.inr ())) ≠ none
    rw [hcall]
    exact Option.some_ne_none _
  · rintro (q | u) hun
    · by_cases e : q = 1
      · rw [e]
        exact ⟨_, hasleep⟩
      · refine absurd ?_ hun
        show (workers _).call (c.thread (.inl q)) = none
        rw [h.deleted q e]
        rfl
    · exact ⟨_, Config.status_sleep⟩

/-- **The teardown is stuck**: `FreeBatchData` waits for a chunk. -/
theorem long_stream_stops_teardown :
    ∃ c : QueueConfig (Int × Nat) Unit, TeardownPrefix (oneStream (2 ^ 31 + 2)) 3 c ∧
      ∃ d, Reachable teardownMonitor (teardown (oneStream (2 ^ 31 + 2))) (teardownStart c) d ∧
        Stuck (teardown (oneStream (2 ^ 31 + 2))) d := by
  obtain ⟨c, hreach, h⟩ := exists_starved
  refine ⟨c, ⟨by decide, Or.inl hreach, fun _ => h.idle⟩, ?_⟩
  obtain ⟨d, hd⟩ : ∃ d, teardownStart c = d := ⟨_, rfl⟩
  have hitems : d.data.queue.itemsToRead = 0 := by
    rw [← hd]
    exact h.items
  have hactive : d.data.queue.activeProducers ≠ 0 := by
    rw [← hd]
    exact h.active
  have hready : d.status (.inr ()) = .ready := by
    rw [← hd]
    rfl
  have hcall : (teardown (oneStream (2 ^ 31 + 2))).call (d.thread (.inr ())) =
      some .freeBatchData := by
    rw [← hd]
    rfl
  have henter : teardownMonitor.enter .freeBatchData d.data = ⟨d.data, [], .wait .emptyCV⟩ := by
    show freeTurns (d.data.queue.itemsToRead.toNat + 1) d.data [] = _
    unfold freeTurns
    rw [if_pos (Or.inl hactive), freeTurn, if_pos ⟨hitems, hactive⟩]
  rw [hd]
  refine ⟨_, Reachable.refl.next (Step.sleep hready hcall henter), ⟨.inr (), ?_⟩, ?_⟩
  · show (teardown _).call (d.thread (.inr ())) ≠ none
    rw [hcall]
    exact Option.some_ne_none _
  · rintro (q | u) hun
    · by_cases e : q = 1
      · rw [e]
        refine ⟨.busyCV, (Config.status_sleep_ne Sum.inl_ne_inr).trans ?_⟩
        rw [← hd]
        exact h.asleep
      · refine absurd ?_ hun
        show (teardown _).call (d.thread (.inl q)) = none
        rw [← hd]
        show ((workers _).call (c.thread (.inl q))).map _ = none
        rw [h.deleted q e]
        rfl
    · exact ⟨_, Config.status_sleep⟩

/-! ## More than `2 ^ 31` slots -/

/-- The producers 0 and 4 have a chunk each. -/
def fiveProducers : Producers (Int × Nat) :=
  .ofLengths [0, 1, 2, 3, 4] (by decide) fun p => if p = 0 ∨ p = 4 then 1 else 0

theorem deleted_reachable {S : Producers (Int × Nat)} {ς : Type} [DecidableEq ς] {B : Nat}
    {consumer : ς → Worker (Int × Nat)} {c : QueueConfig (Int × Nat) ς}
    (h : Reachable monitor (workers S) (startConfig S B consumer) c) {p : Int} (hp : p ∉ S.ids) :
    c.thread (.inl p) = .deleted p := by
  have hstart : (startConfig S B consumer).thread (.inl p) = .deleted p := if_neg hp
  refine h.invariant (I := fun c => c.thread (.inl p) = .deleted p) hstart ?_
  intro c t c' hdeleted hs
  rcases hs.thread_cases with he | ⟨r, he⟩
  · rw [he]
    exact hdeleted
  · rw [he]
    by_cases e : t = .inl p
    · rw [e, Function.update_self, hdeleted]
      rfl
    · rw [Function.update_of_ne (Ne.symm e)]
      exact hdeleted

/-- **The slot of another producer**: with batches of `2 ^ 30` chunks, the first
chunks of the producers 0 and 4 have the same slot, and a later pass returns one
for the other. -/
theorem many_slots_return_other_chunk :
    ∃ c₁ c₂ : QueueConfig (Int × Nat) Unit,
      Reachable monitor (workers fiveProducers) (popStart fiveProducers (2 ^ 30) Unit) c₁ ∧
      Complete fiveProducers c₁ ∧
      Reachable monitor (workers fiveProducers) (getStart fiveProducers (2 ^ 30) (records c₁)) c₂ ∧
      ∃ e ∈ c₂.history, e.call = .get 4 0 ∧ e.result = .value (0, 0) := by
  let threads : List (Int ⊕ Unit) := [.inl 0, .inl 1, .inl 2, .inl 3, .inl 4, .inr ()]
  let wrong : Event (Int ⊕ Unit) (Call (Int × Nat)) (Result (Int × Nat)) → Bool := fun e =>
    e.call = .get 4 0 ∧ e.result = .value (0, 0)
  let facts : QueueConfig (Int × Nat) Unit × QueueConfig (Int × Nat) Unit → Bool × Bool := fun x =>
    (threads.all fun t => ((workers fiveProducers).call (x.1.thread t)).isNone,
      x.2.history.any wrong)
  have hschedule : ((Config.schedule monitor (workers fiveProducers) threads
        ([.inl 4, .inr (), .inl 0, .inr ()] ++ threads)
        (popStart fiveProducers (2 ^ 30) Unit)).bind fun c =>
      (Config.schedule monitor (workers fiveProducers) threads [.inl 0, .inr ()]
        (getStart fiveProducers (2 ^ 30) (records c))).map fun d => facts (c, d)) =
      some (true, true) := by
    decide +kernel
  obtain ⟨c₁, hc₁, hmap⟩ := Option.bind_eq_some_iff.mp hschedule
  obtain ⟨c₂, hc₂, hfacts⟩ := Option.map_eq_some_iff.mp hmap
  obtain ⟨hdone, hwrong⟩ := Prod.mk.inj hfacts
  obtain ⟨tr₁, h₁, _⟩ := Run.of_schedule (by simp [threads]) nofun hc₁
  obtain ⟨tr₂, h₂, _⟩ := Run.of_schedule (by simp [threads]) nofun hc₂
  obtain ⟨e, he, hanswer⟩ := List.any_eq_true.mp hwrong
  refine ⟨c₁, c₂, ⟨tr₁, h₁⟩, ?_, ⟨tr₂, h₂⟩, e, he, of_decide_eq_true hanswer⟩
  · intro t hun
    by_cases ht : t ∈ threads
    · exact hun (Option.isNone_iff_eq_none.mp (List.all_eq_true.mp hdone t ht))
    · cases t with
      | inl p =>
        refine hun ?_
        rw [deleted_reachable ⟨tr₁, h₁⟩ (p := p)
          (by simpa [threads, fiveProducers, Producers.ofLengths] using ht)]
        rfl
      | inr u => exact ht (by simp [threads])

end SasLibclient
