import SasLibclient.Loops.Strided
import SasLibclient.S2ClientError
import SasLibclient.Queue.ThreadSafeBatchQueue
import SasLibclient.Queue.ThreadSafeSimpleQueue

/-!
# Partitions, workers and consumers (`utils.cpp`, `CreateChunkQueue`)

`WorkerPartitions` deals the partitions of the database to the workers, and
`ConsumerPartitions` those of a worker to its consumers. `CreateChunkQueue`
makes one queue for each consumer and fills `m_partition_consumer`.
-/

namespace SasLibclient

open Loops

/-- Two's complement range of `int`. -/
def intMax : Int := 2 ^ 31 - 1

def workerPartitions (numWorkers workerId totalPartitions : Int) :
    Except S2ClientError (List Int) :=
  if numWorkers ≤ 0 then
    .error ⟨s2cErrorInvArg, "received negative numWorkers"⟩
  else
    .ok (strided workerId numWorkers totalPartitions)

/-- The counter of the loop is a `uint64_t`. -/
def consumerPartitions (nConsumers consumerId : Int) (workerPartitions : List Int) :
    Except S2ClientError (List Int) :=
  if nConsumers ≤ 0 then
    .error ⟨s2cErrorInvArg, "received negative nConsumers"⟩
  else
    .ok ((strided (consumerId % 2 ^ 64) nConsumers workerPartitions.length).map
      fun i => workerPartitions.getD i.toNat 0)

/-- What `CreateChunkQueue` reads of the client. -/
structure S2Client where
  numPartitions : Nat
  workerId : Nat
  numWorkers : Nat

/-- `for (auto p : consumer_partitions) m_partition_consumer[p] = consumer_id;` -/
def setConsumer (consumerId : Int) (consumerPartitions : List Int) (partitionConsumer : List Int) :
    List Int :=
  consumerPartitions.foldl (fun v p => v.set p.toNat consumerId) partitionConsumer

/-- The loop of `CreateChunkQueue` over the consumers: the queue of each and
`m_partition_consumer`. -/
def createConsumerQueues {Q : Type} (newQueue : List Int → Q) (nConsumers : Int)
    (partitions : List Int) : List Int → List Q × List Int →
      Except S2ClientError (List Q × List Int)
  | [], acc => .ok acc
  | consumerId :: ids, (queues, partitionConsumer) => do
    let ps ← consumerPartitions nConsumers consumerId partitions
    createConsumerQueues newQueue nConsumers partitions ids
      (queues ++ [newQueue ps], setConsumer consumerId ps partitionConsumer)

/-- The queues and `m_partition_consumer` of `MultiPassQueue::CreateChunkQueue`. -/
def MultiPassQueue.createQueues (T : Type) (client : S2Client) (capacity : Nat)
    (nConsumers : Int) : Except S2ClientError (List (ThreadSafeBatchQueue T) × List Int) := do
  let partitions ← workerPartitions client.numWorkers client.workerId client.numPartitions
  createConsumerQueues (ThreadSafeBatchQueue.create capacity) nConsumers partitions
    (strided 0 1 nConsumers) ([], List.replicate client.numPartitions (-1))

/-- The queues and `m_partition_consumer` of `StreamingQueue::CreateChunkQueue`;
a read that is not parallel has the partition 0 only. -/
def StreamingQueue.createQueues (T : Type) (client : S2Client) (capacity : Nat)
    (nConsumers : Int) (doesParallelRead : Bool) :
    Except S2ClientError (List (ThreadSafeSimpleQueue T) × List Int) := do
  let partitions ←
    if doesParallelRead then
      workerPartitions client.numWorkers client.workerId client.numPartitions
    else
      .ok [0]
  createConsumerQueues (fun ps => ThreadSafeSimpleQueue.create capacity ps.length) nConsumers
    partitions (strided 0 1 nConsumers) ([], List.replicate client.numPartitions (-1))

/-! ## The partitions of one consumer -/

/-- Every `n`-th of the partitions `ps`, from the one at position `c` on. -/
def pick (n c : Int) (ps : List Int) : List Int :=
  (strided c n ps.length).map fun i => ps.getD i.toNat 0

variable {n c c' p : Int} {ps : List Int}

theorem workerPartitions_ok {numWorkers : Int} (h : 0 < numWorkers) (workerId total : Int) :
    workerPartitions numWorkers workerId total = .ok (strided workerId numWorkers total) := by
  rw [workerPartitions, if_neg (by omega)]

theorem consumerPartitions_ok (h0 : 0 ≤ c) (hc : c < n) (hn : n ≤ intMax) :
    consumerPartitions n c ps = .ok (pick n c ps) := by
  have hmod : c % 2 ^ 64 = c := by
    unfold intMax at hn
    omega
  rw [consumerPartitions, if_neg (by omega), hmod]
  rfl

theorem mem_pick (hn : 0 < n) (h0 : 0 ≤ c) (hc : c < n) :
    p ∈ pick n c ps ↔ ∃ i : Nat, ps[i]? = some p ∧ (i : Int) % n = c := by
  constructor
  · intro h
    obtain ⟨i, hi, rfl⟩ := List.mem_map.mp h
    obtain ⟨hle, hlt, hd⟩ := (mem_strided hn).mp hi
    have hbound : i.toNat < ps.length := by omega
    refine ⟨i.toNat, ?_, ?_⟩
    · rw [List.getD_eq_getElem?_getD, List.getElem?_eq_getElem hbound]
      rfl
    · have hmod := Int.emod_eq_emod_iff_emod_sub_eq_zero.mpr (Int.emod_eq_zero_of_dvd hd)
      rw [Int.toNat_of_nonneg (by omega), hmod, Int.emod_eq_of_lt h0 hc]
  · rintro ⟨i, hi, hmod⟩
    have hbound := (List.getElem?_eq_some_iff.mp hi).1
    refine List.mem_map.mpr ⟨i, ?_, ?_⟩
    · rw [← hmod]
      exact mem_strided_emod hn (by omega) (by omega)
    · rw [Int.toNat_natCast, List.getD_eq_getElem?_getD, hi]
      rfl

theorem pick_nodup (hn : 0 < n) (h0 : 0 ≤ c) (hps : ps.Nodup) : (pick n c ps).Nodup := by
  refine (strided_nodup c n ps.length).map_on fun i hi j hj h => ?_
  obtain ⟨hle, hlt, _⟩ := (mem_strided hn).mp hi
  obtain ⟨hle', hlt', _⟩ := (mem_strided hn).mp hj
  have hget : ∀ k, (hk : k < ps.length) → ps.getD k 0 = ps[k] := by
    intro k hk
    rw [List.getD_eq_getElem?_getD, List.getElem?_eq_getElem hk]
    rfl
  rw [hget i.toNat (by omega), hget j.toNat (by omega)] at h
  have := (hps.getElem_inj_iff).mp h
  omega

theorem pick_disjoint (hn : 0 < n) (hps : ps.Nodup) (h0 : 0 ≤ c) (hc : c < n) (h0' : 0 ≤ c')
    (hc' : c' < n) (h : p ∈ pick n c ps) (h' : p ∈ pick n c' ps) : c = c' := by
  obtain ⟨i, hi, hmod⟩ := (mem_pick hn h0 hc).mp h
  obtain ⟨j, hj, hmod'⟩ := (mem_pick hn h0' hc').mp h'
  obtain ⟨hbi, hgi⟩ := List.getElem?_eq_some_iff.mp hi
  obtain ⟨hbj, hgj⟩ := List.getElem?_eq_some_iff.mp hj
  have hij : i = j := (hps.getElem_inj_iff).mp (hgi.trans hgj.symm)
  rw [← hmod, ← hmod', hij]

theorem pick_subset (hn : 0 < n) (h0 : 0 ≤ c) (hc : c < n) (h : p ∈ pick n c ps) : p ∈ ps := by
  obtain ⟨i, hi, _⟩ := (mem_pick hn h0 hc).mp h
  exact List.mem_of_getElem? hi

theorem exists_pick (hn : 0 < n) (h : p ∈ ps) : ∃ c, 0 ≤ c ∧ c < n ∧ p ∈ pick n c ps := by
  obtain ⟨i, hi⟩ := List.getElem?_of_mem h
  have h0 := Int.emod_nonneg (i : Int) (by omega : n ≠ 0)
  have hlt := Int.emod_lt_of_pos (i : Int) hn
  exact ⟨i % n, h0, hlt, (mem_pick hn h0 hlt).mpr ⟨i, hi, rfl⟩⟩

theorem pick_single (p : Int) : pick 1 0 [p] = [p] :=
  congrArg (List.map fun i : Int => [p].getD i.toNat 0) (strided_zero_one 1)

/-! ## `m_partition_consumer` -/

theorem setConsumer_length (consumerId : Int) (ps v : List Int) :
    (setConsumer consumerId ps v).length = v.length := by
  induction ps generalizing v with
  | nil => rfl
  | cons p ps ih =>
    show (setConsumer consumerId ps (v.set p.toNat consumerId)).length = v.length
    rw [ih, List.length_set]

theorem setConsumer_getElem? (consumerId : Int) (ps v : List Int) (h : ∀ p ∈ ps, 0 ≤ p) {j : Nat}
    (hj : j < v.length) : (setConsumer consumerId ps v)[j]? =
      if (j : Int) ∈ ps then some consumerId else v[j]? := by
  induction ps generalizing v with
  | nil => rfl
  | cons p ps ih =>
    have hp := h p List.mem_cons_self
    have hstep : setConsumer consumerId (p :: ps) v =
        setConsumer consumerId ps (v.set p.toNat consumerId) := rfl
    rw [hstep, ih _ (fun q hq => h q (List.mem_cons_of_mem _ hq)) (by rw [List.length_set]; exact hj)]
    by_cases hmem : (j : Int) ∈ ps
    · rw [if_pos hmem, if_pos (List.mem_cons_of_mem _ hmem)]
    · rw [if_neg hmem]
      by_cases e : (j : Int) = p
      · have hpj : p.toNat = j := by omega
        rw [hpj, List.getElem?_set_self hj, if_pos (by rw [e]; exact List.mem_cons_self)]
      · have hpj : p.toNat ≠ j := by omega
        rw [List.getElem?_set_ne hpj, if_neg]
        rw [List.mem_cons, not_or]
        exact ⟨e, hmem⟩

theorem createConsumerQueues_single {Q : Type} (newQueue : List Int → Q) (p : Int) (v : List Int) :
    createConsumerQueues newQueue 1 [p] (strided 0 1 1) ([], v) =
      .ok ([newQueue [p]], setConsumer 0 [p] v) := by
  have hone : strided 0 1 1 = [0] := strided_zero_one 1
  have hconsumer : consumerPartitions 1 0 [p] = .ok [p] := by
    rw [consumerPartitions_ok (by decide) (by decide) (by decide), pick_single]
  rw [hone, createConsumerQueues, hconsumer]
  rfl

/-- **The loop over the consumers** gives each of them its own partitions, and
`m_partition_consumer` the inverse of that. -/
theorem createConsumerQueues_spec {Q : Type} (newQueue : List Int → Q) (hn : 0 < n)
    (hmax : n ≤ intMax) (hps : ps.Nodup) (hpos : ∀ p ∈ ps, 0 ≤ p) (ids : List Int)
    (hids : ∀ c ∈ ids, 0 ≤ c ∧ c < n) (hnodup : ids.Nodup) (queues : List Q) (v : List Int) :
    ∃ v', createConsumerQueues newQueue n ps ids (queues, v) =
        .ok (queues ++ ids.map fun c => newQueue (pick n c ps), v') ∧
      v'.length = v.length ∧ ∀ j < v.length,
        (∀ c ∈ ids, (j : Int) ∈ pick n c ps → v'[j]? = some c) ∧
        ((∀ c ∈ ids, (j : Int) ∉ pick n c ps) → v'[j]? = v[j]?) := by
  induction ids generalizing queues v with
  | nil => exact ⟨v, by simp [createConsumerQueues], rfl, fun j _ => ⟨by simp, fun _ => rfl⟩⟩
  | cons c ids ih =>
    obtain ⟨hc0, hcn⟩ := hids c List.mem_cons_self
    rw [List.nodup_cons] at hnodup
    obtain ⟨v', hrun, hlen, hv'⟩ := ih (fun c hc => hids c (List.mem_cons_of_mem _ hc)) hnodup.2
      (queues ++ [newQueue (pick n c ps)]) (setConsumer c (pick n c ps) v)
    rw [setConsumer_length] at hlen
    refine ⟨v', ?_, hlen, fun j hj => ?_⟩
    · rw [createConsumerQueues, consumerPartitions_ok hc0 hcn hmax]
      refine hrun.trans ?_
      rw [List.map_cons, List.append_assoc, List.singleton_append]
    · have hset := setConsumer_getElem? c (pick n c ps) v
        (fun p hp => hpos p (pick_subset hn hc0 hcn hp)) hj
      obtain ⟨hmine, hother⟩ := hv' j (by rw [setConsumer_length]; exact hj)
      constructor
      · intro d hd hjd
        rcases List.mem_cons.mp hd with rfl | hd
        · -- no later consumer has the same partition
          rw [hother, hset, if_pos hjd]
          intro e he hje
          obtain ⟨he0, hen⟩ := hids e (List.mem_cons_of_mem _ he)
          have := pick_disjoint hn hps hc0 hcn he0 hen hjd hje
          exact hnodup.1 (this ▸ he)
        · exact hmine d hd hjd
      · intro hnone
        rw [hother fun d hd => hnone d (List.mem_cons_of_mem _ hd), hset,
          if_neg (hnone c List.mem_cons_self)]

/-- The loop makes a queue for each consumer and keeps the length of
`m_partition_consumer`. -/
theorem createConsumerQueues_length {Q : Type} {newQueue : List Int → Q} {ids v v' : List Int}
    {queues queues' : List Q}
    (h : createConsumerQueues newQueue n ps ids (queues, v) = .ok (queues', v')) :
    queues'.length = queues.length + ids.length ∧ v'.length = v.length := by
  induction ids generalizing queues v with
  | nil =>
    obtain ⟨rfl, rfl⟩ := Prod.mk.inj (Except.ok.inj h)
    exact ⟨rfl, rfl⟩
  | cons c ids ih =>
    rw [createConsumerQueues] at h
    cases hps : consumerPartitions n c ps with
    | error e =>
      rw [hps] at h
      cases h
    | ok list =>
      rw [hps] at h
      obtain ⟨hqueues, hv⟩ := ih h
      rw [setConsumer_length] at hv
      refine ⟨?_, hv⟩
      rw [hqueues, List.length_append, List.length_singleton, List.length_cons]
      omega

/-- The partitions of worker `w` that consumer `c` reads. -/
def consumerList (W T : Nat) (n : Nat → Nat) (w c : Nat) : List Int :=
  pick (n w) c (strided w W T)

variable {W T w : Nat} {counts : Nat → Nat}

/-- `m_partition_consumer` of worker `w`: the consumer whose list has the
partition, `-1` for the partitions of other workers. -/
def InvertsLists (W T : Nat) (counts : Nat → Nat) (w : Nat) (v : List Int) : Prop :=
  ∀ j < T,
    (∀ c < counts w, v[j]? = some (c : Int) ↔ (j : Int) ∈ consumerList W T counts w c) ∧
    ((∀ c < counts w, (j : Int) ∉ consumerList W T counts w c) → v[j]? = some (-1))

theorem createConsumerQueues_worker {Q : Type} (newQueue : List Int → Q) (hW : 0 < W) (hn : 1 ≤ counts w) (hmax : (counts w : Int) ≤ intMax) :
    ∃ queues v, createConsumerQueues newQueue (counts w) (strided w W T)
        (strided 0 1 (counts w)) ([], List.replicate T (-1)) = .ok (queues, v) ∧
      InvertsLists W T counts w v := by
  have hpos : (0 : Int) < counts w := by omega
  have hstep : (0 : Int) < W := by omega
  have hps := strided_nodup w W T
  have hids : ∀ c : Int, c ∈ strided 0 1 (counts w) ↔ 0 ≤ c ∧ c < counts w := by
    intro c
    rw [mem_strided (by decide)]
    simp
  obtain ⟨v, hrun, hlen, hv⟩ := createConsumerQueues_spec newQueue hpos hmax hps
    (fun p hp => by have := le_of_mem_strided hp; omega) (strided 0 1 (counts w))
    (fun c hc => (hids c).mp hc) (strided_nodup _ _ _) [] (List.replicate T (-1))
  refine ⟨_, v, hrun, fun j hj => ?_⟩
  obtain ⟨hmine, hnone⟩ := hv j (by rw [List.length_replicate]; exact hj)
  have hminus : (List.replicate T (-1 : Int))[j]? = some (-1) := List.getElem?_replicate_of_lt hj
  constructor
  · intro c hc
    constructor
    · intro hvc
      by_contra hmem
      by_cases hsome : ∃ d ∈ strided 0 1 (counts w : Int), (j : Int) ∈ pick (counts w) d (strided w W T)
      · obtain ⟨d, hd, hjd⟩ := hsome
        rw [hmine d hd hjd] at hvc
        obtain rfl := Option.some.inj hvc
        exact hmem hjd
      · rw [hnone fun d hd hjd => hsome ⟨d, hd, hjd⟩, hminus] at hvc
        have := Option.some.inj hvc
        omega
    · intro hmem
      exact hmine c ((hids c).mpr ⟨by omega, by omega⟩) hmem
  · intro hno
    rw [hnone, hminus]
    intro d hd hjd
    obtain ⟨hd0, hdn⟩ := (hids d).mp hd
    obtain ⟨k, rfl⟩ := Int.eq_ofNat_of_zero_le hd0
    exact hno k (by omega) hjd

/-- **The assignment is a partition.** Over all workers and consumers the lists
are duplicate-free, disjoint and cover the partitions; on a worker their sizes
differ by at most one; `m_partition_consumer` is the inverse of the lists, and
`-1` elsewhere. The counter of `WorkerPartitions` stays in the range of `int`. -/
theorem partitions_assigned_once (hW : 1 ≤ W) (hrange : (W : Int) + T ≤ intMax)
    (hcounts : ∀ w < W, 1 ≤ counts w ∧ (counts w : Int) ≤ intMax) :
    (∀ w < W, ∀ c < counts w,
      (workerPartitions W w T >>= consumerPartitions (counts w) c) =
        .ok (consumerList W T counts w c) ∧
      (consumerList W T counts w c).Nodup) ∧
    (∀ w < W, ∀ c < counts w, ∀ w' < W, ∀ c' < counts w', ∀ p,
      p ∈ consumerList W T counts w c → p ∈ consumerList W T counts w' c' → w = w' ∧ c = c') ∧
    (∀ p, (∃ w < W, ∃ c < counts w, p ∈ consumerList W T counts w c) ↔ 0 ≤ p ∧ p < T) ∧
    (∀ w < W, ∀ c < counts w, ∀ c' < counts w,
      (consumerList W T counts w c).length ≤ (consumerList W T counts w c').length + 1) ∧
    (∀ w < W, ∀ i ∈ strided w W T, i + W ≤ intMax) ∧
    (∀ w < W, ∀ (α : Type) capacity, ∃ queues v,
      MultiPassQueue.createQueues α ⟨T, w, W⟩ capacity (counts w) = .ok (queues, v) ∧
      InvertsLists W T counts w v) ∧
    (∀ w < W, ∀ (α : Type) capacity, ∃ queues v,
      StreamingQueue.createQueues α ⟨T, w, W⟩ capacity (counts w) true = .ok (queues, v) ∧
      InvertsLists W T counts w v) := by
  have hstep : (0 : Int) < W := by omega
  have hworker : ∀ w : Nat, workerPartitions W w T = .ok (strided w W T) :=
    fun w => workerPartitions_ok hstep w T
  have hps : ∀ w : Nat, (strided (w : Int) W T).Nodup := fun w => strided_nodup w W T
  -- a consumer number of worker `w`
  have hconsumer : ∀ w < W, ∀ c < counts w,
      (0 : Int) < counts w ∧ (0 : Int) ≤ c ∧ (c : Int) < counts w := fun w _ c hc => by omega
  refine ⟨?_, ?_, ?_, ?_, ?_, ?_, ?_⟩
  · intro w hw c hc
    obtain ⟨hpos, h0, hlt⟩ := hconsumer w hw c hc
    constructor
    · rw [hworker]
      exact consumerPartitions_ok h0 hlt (hcounts w hw).2
    · exact pick_nodup hpos h0 (hps w)
  · intro w hw c hc w' hw' c' hc' p hp hp'
    obtain ⟨hpos, h0, hlt⟩ := hconsumer w hw c hc
    obtain ⟨hpos', h0', hlt'⟩ := hconsumer w' hw' c' hc'
    have hsame := strided_disjoint hstep (by omega) (by omega) (by omega) (by omega)
      (pick_subset hpos h0 hlt hp) (pick_subset hpos' h0' hlt' hp')
    obtain rfl : w = w' := by omega
    have hc := pick_disjoint hpos (hps w) h0 hlt h0' hlt' hp hp'
    exact ⟨rfl, by omega⟩
  · intro p
    constructor
    · rintro ⟨w, hw, c, hc, hp⟩
      obtain ⟨hpos, h0, hlt⟩ := hconsumer w hw c hc
      obtain ⟨hle, hbound, _⟩ := (mem_strided hstep).mp (pick_subset hpos h0 hlt hp)
      exact ⟨by omega, hbound⟩
    · rintro ⟨h0, hT⟩
      have hmem := mem_strided_emod hstep h0 hT
      have hlt := Int.emod_lt_of_pos p hstep
      obtain ⟨w, hwp⟩ := Int.eq_ofNat_of_zero_le (Int.emod_nonneg p (by omega : (W : Int) ≠ 0))
      rw [hwp] at hmem hlt
      have hw : w < W := by omega
      obtain ⟨c, hc0, hcn, hpick⟩ := exists_pick (n := counts w)
        (by have := (hcounts w hw).1; omega) hmem
      obtain ⟨c, rfl⟩ := Int.eq_ofNat_of_zero_le hc0
      exact ⟨w, hw, c, by omega, hpick⟩
  · intro w hw c hc c' hc'
    rw [consumerList, consumerList, pick, pick, List.length_map, List.length_map]
    exact (length_strided_balanced (by omega) (by omega)).1
  · intro w hw i hi
    obtain ⟨_, hlt, _⟩ := (mem_strided hstep).mp hi
    omega
  · intro w hw α capacity
    rw [MultiPassQueue.createQueues]
    dsimp only
    rw [hworker]
    exact createConsumerQueues_worker _ hW (hcounts w hw).1 (hcounts w hw).2
  · intro w hw α capacity
    rw [StreamingQueue.createQueues, if_pos rfl]
    dsimp only
    rw [hworker]
    exact createConsumerQueues_worker _ hW (hcounts w hw).1 (hcounts w hw).2

/-- Two workers with two and one consumers, and three partitions. -/
theorem partitions_assigned_once_example :
    (∃ w < 2, ∃ c < (fun w => if w = 0 then 2 else 1) w,
      (1 : Int) ∈ consumerList 2 3 (fun w => if w = 0 then 2 else 1) w c) :=
  ((partitions_assigned_once (W := 2) (T := 3) (by decide) (by decide)
    (fun w _ => by split <;> decide)).2.2.1 1).mpr (by decide)

end SasLibclient
