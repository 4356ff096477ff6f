import SasLibclient.AccessRuns

/-!
# When the calls of the API index in range

The runs whose steps all meet `StepOk`. A call of `GetChunkMulti` for a partition
of another worker does not: `m_partition_consumer` has -1 for it.
-/

namespace SasLibclient

open Monitors QueueItem Bytes Loops ThreadSafeBatchQueue

/-- **The accesses of the calls**, in the runs of the multi-pass mode whose steps
all meet the condition: they are in range, no divisor is 0, no chunk is used
after it has been deleted, and the requests are answered with what serves them
or with `false`. -/
theorem accesses_fine {ς : Type} [DecidableEq ς] {client : S2Client} {name : String}
    {chunkSize : UInt64} {queueCapacity n : Int} {rowSchema : RowSchema}
    {response : Int → Response} {malloc : Int → Nat → Option Mem} {uninitialized : Int}
    {Q : ApiQueue} {requests : ς → List (ApiRequest × Chunk)} {tr : List (ApiConfig ς × (Int ⊕ ς))}
    {c : ApiConfig ς}
    (hrange : (client.numWorkers : Int) + client.numPartitions ≤ intMax) (hmax : n ≤ intMax)
    (hQ : parallelReadGetQueue client name chunkSize queueCapacity n true rowSchema response malloc
      uninitialized = .ok Q)
    (hthreads : Q.partitions = [] ∨ 1 ≤ n)
    (hrequests : ∀ s, ∀ r ∈ requests s, r.1.InRange n client.numPartitions)
    (hrun : Run (apiMonitor Q) Q.threads (Q.start requests) tr c)
    (hok : ∀ st ∈ tr, Q.StepOk st.1 st.2) :
    (∀ a ∈ Q.createAccesses, a.Fine) ∧
    (∀ st ∈ tr, ∀ a ∈ Q.stepAccesses queueCapacity st.1 st.2, a.Fine) ∧
    ∀ s, Q.Answering (requests s) (c.thread (.inr s)) := by
  obtain ⟨⟨S, hS⟩, hmade⟩ := reads_of_parallelReadGetQueue hrange hmax hQ hthreads
  have hstep : ∀ (c : ApiConfig ς) t c', AccessInv Q S requests c → Q.StepOk c t →
      Step (apiMonitor Q) Q.threads c t c' → AccessInv Q S requests c' :=
    fun _ _ _ h hok hs => h.step hS hmade hok hs
  refine ⟨hmade.create, ?_, ?_⟩
  · intro st hst
    have hbefore := hrun.invariant_before hok (AccessInv.start hS) hstep st hst
    exact hbefore.fine_step hS hmade hrequests (hok st hst)
  · exact (hrun.invariant hok (AccessInv.start hS) hstep).callers

/-! ## A worker with one partition -/

theorem multiPass_createQueues_single (client : S2Client) {p : Int} (capacity : Nat)
    (hpart : workerPartitions client.numWorkers client.workerId client.numPartitions = .ok [p]) :
    createQueues .multiPass client capacity 1 =
      .ok ([.batch (ThreadSafeBatchQueue.create capacity [p])],
        setConsumer 0 [p] (List.replicate client.numPartitions (-1))) := by
  have hrun := createConsumerQueues_single (ThreadSafeBatchQueue.create (T := ReadChunk) capacity) p
    (List.replicate client.numPartitions (-1))
  rw [createQueues, MultiPassQueue.createQueues, hpart]
  simp only [bind, Except.bind, hrun, List.map_cons, List.map_nil]

theorem parallelReadGetQueue_single (client : S2Client) {p : Int} (name : String)
    (chunkSize : UInt64) (capacity : Nat) (rowSchema : RowSchema) (response : Int → Response)
    (malloc : Int → Nat → Option Mem) (uninitialized : Int)
    (hpart : workerPartitions client.numWorkers client.workerId client.numPartitions = .ok [p]) :
    ∃ Q, parallelReadGetQueue client name chunkSize capacity 1 true rowSchema response malloc
        uninitialized = .ok Q ∧
      Q.kind = .multiPass ∧ Q.rowSchema = rowSchema ∧ Q.consumerThreadsNum = 1 ∧
      Q.consumers = 1 ∧ Q.partitions = [p] ∧
      Q.queues = [.batch (ThreadSafeBatchQueue.create capacity [p])] ∧
      Q.partitionConsumer = setConsumer 0 [p] (List.replicate client.numPartitions (-1)) ∧
      Q.queueOf = (fun p' => (Q.partitionConsumer.getD p'.toNat (-1)).toNat) ∧
      Q.reader = fun p' => ResultTableReader.createReader (response p') (some rowSchema)
        (UInt32.ofInt p') chunkSize (malloc p') := by
  have hcapacity : capacityOf .multiPass capacity = capacity := Int.toNat_natCast capacity
  have hqueues := multiPass_createQueues_single client (capacityOf .multiPass capacity) hpart
  refine ⟨_, createChunkQueue_eq hpart hqueues, rfl, rfl, rfl, rfl, rfl, ?_, rfl, rfl, rfl⟩
  exact congrArg (fun capacity => [ConsumerQueue.batch (ThreadSafeBatchQueue.create capacity [p])])
    hcapacity

def otherPartition : List (ApiRequest × Chunk) := [(.getChunkMulti 1 0, newChunk (fun _ => 0) 0 0 0)]

/-- **A partition of another worker**: `m_consumer_queues` is indexed with -1. -/
theorem getChunkMulti_other_worker : ∃ Q c,
    parallelReadGetQueue ⟨2, 0, 2⟩ "t" 64 1 1 true numberAndText (fun _ => textResponse)
      (fun _ _ => some fun _ => 0) 0 = .ok Q ∧
    (∀ r ∈ otherPartition, r.1.InRange 1 2) ∧
    Run (apiMonitor Q) Q.threads (Q.start fun _ : Unit => otherPartition)
      [(Q.start fun _ => otherPartition, .inr ())] c ∧
    .index .consumerQueues (-1) 1 ∈
      Q.stepAccesses 1 (Q.start fun _ : Unit => otherPartition) (.inr ()) ∧
    ¬ (VectorAccess.index .consumerQueues (-1) 1).Fine := by
  have hlist : strided 0 2 2 = [0] := by
    rw [strided_of_lt (by decide) (by decide), strided_of_le (by decide)]
  have hpart : workerPartitions (2 : Nat) (0 : Nat) (2 : Nat) = .ok [0] := by
    rw [workerPartitions_ok (by decide)]
    exact congrArg Except.ok hlist
  obtain ⟨Q, hQ, -, -, -, -, -, hqueues, hconsumer, -, -⟩ :=
    parallelReadGetQueue_single ⟨2, 0, 2⟩ "t" 64 1 numberAndText (fun _ => textResponse)
      (fun _ _ => some fun _ => 0) 0 hpart
  obtain ⟨c, hstep⟩ := Step.exists_of_ready (M := apiMonitor Q) (P := Q.threads)
    (c := Q.start fun _ : Unit => otherPartition) (t := .inr ()) (fun _ => rfl) rfl
  refine ⟨Q, c, hQ, ?_, Run.start.step hstep, ?_, ?_⟩
  · intro r hr
    rw [List.mem_singleton.mp hr]
    show (1 : UInt32).toNat < 2
    decide
  · apply List.mem_append_left
    have hminus : Q.partitionConsumer.getD (1 : Int).toNat (-1) = -1 := by
      rw [hconsumer]
      decide
    have hpartition : toInt32 1 = 1 := by decide
    show _ ∈ Q.partitionAccesses (toInt32 1)
    rw [hpartition, ApiQueue.partitionAccesses, hminus, hqueues]
    exact List.mem_cons_of_mem _ List.mem_cons_self
  · rintro ⟨hnonneg, -⟩
    exact absurd hnonneg (by decide)

theorem textResponse_chunk :
    ∃ v, (ResultTableReader.createReader textResponse (some numberAndText) (UInt32.ofInt 0) 64
        fun _ => some fun _ => 0).read = [.push v, .deleteProducer] ∧
      partitionId v = 0 ∧ itemId v = 0 := by
  obtain ⟨v, hread, hp, hturn⟩ : ∃ v, (ResultTableReader.createReader textResponse
      (some numberAndText) (UInt32.ofInt 0) 64 fun _ => some fun _ => 0).read =
        [.push v, .deleteProducer] ∧ partitionId v = 0 ∧ v.turn = 0 :=
    ⟨_, rfl, rfl, rfl⟩
  refine ⟨v, hread, hp, ?_⟩
  show chunkIdOf v.turn = 0
  rw [hturn]
  exact chunkIdOf_eq (by decide)

/-- The first chunk of the only producer can be got as soon as it is pushed. -/
theorem push_first {v : ReadChunk} (hp : partitionId v = 0) (hid : itemId v = 0) :
    PushOk v (create 1 [0]) ∧ (ThreadSafeBatchQueue.push v (create 1 [0])).exit = .ret .unit ∧
      (ThreadSafeBatchQueue.push v (create 1 [0])).data.GetLoopOk 0 0 := by
  have hzero : (create (T := ReadChunk) 1 [0]).partitionIdToNumber 0 = 0 := rfl
  have hrange : (create (T := ReadChunk) 1 [0]).InRange 0 0 := by
    rw [InRange, hzero]
    decide
  have hfits : (create (T := ReadChunk) 1 [0]).Fits v := by
    rw [Fits, hp, hid]
    exact ⟨by decide, hrange⟩
  have hgo : (create (T := ReadChunk) 1 [0]).pushMustWait v = false := by
    rw [← Bool.not_eq_true, pushMustWait_iff hfits.1 (Nat.zero_le _), hid]
    decide
  have hcreate := BatchInv.create (T := ReadChunk) 1 (by decide) [0] (List.nodup_singleton 0)
  have hpush := hcreate.push_ret (by rw [hp]; exact List.mem_singleton_self 0)
    (by rw [hp]; rfl) hid hfits hgo
  refine ⟨⟨by decide, hfits⟩, ?_, ?_⟩
  · rw [hpush]
  · rw [hpush]
    refine ⟨(by decide : 0 < 1), ?_, Or.inr (Or.inr ⟨Int.le_refl 0, Int.zero_tdiv 1⟩)⟩
    rw [IndexOk, show (afterPush v (create 1 [0])).partitionIdToNumber 0 = 0 from hzero,
      Int.zero_tmod, Int.natCast_zero, Int.zero_mul]
    decide

def firstChunk : List (ApiRequest × Chunk) := [(.getChunkMulti 0 0, newChunk (fun _ => 0) 0 0 0)]

/-- The chunk is pushed and got, with accesses that are fine. -/
theorem accesses_fine_text : ∃ Q tr c,
    parallelReadGetQueue ⟨1, 0, 1⟩ "t" 64 1 1 true numberAndText (fun _ => textResponse)
      (fun _ _ => some fun _ => 0) 0 = .ok Q ∧
    Run (apiMonitor Q) Q.threads (Q.start fun _ : Unit => firstChunk) tr c ∧ tr.length = 2 ∧
    (∀ st ∈ tr, ∀ a ∈ Q.stepAccesses 1 st.1 st.2, a.Fine) ∧
    Q.Answering firstChunk (c.thread (.inr ())) := by
  have hpart : workerPartitions (1 : Nat) (0 : Nat) (1 : Nat) = .ok [0] := by
    rw [workerPartitions_ok (by decide)]
    exact congrArg Except.ok (strided_zero_one 1)
  obtain ⟨Q, hQ, hkind, -, -, -, hpartitions, hqueues, hconsumer, hqueueOf, hreader⟩ :=
    parallelReadGetQueue_single ⟨1, 0, 1⟩ "t" 64 1 numberAndText (fun _ => textResponse)
      (fun _ _ => some fun _ => 0) 0 hpart
  obtain ⟨v, hread, hp, hid⟩ := textResponse_chunk
  obtain ⟨hpushOk, hexit, hgetOk⟩ := push_first hp hid
  obtain ⟨q, hq⟩ : ∃ q, ThreadSafeBatchQueue.create (T := ReadChunk) 1 [0] = q := ⟨_, rfl⟩
  rw [hq] at hpushOk hexit hgetOk hqueues
  replace hread : (Q.reader 0).read = [.push v, .deleteProducer] := by
    rw [hreader]
    exact hread
  have hzero : Q.queueOf 0 = 0 := by
    rw [hqueueOf, hconsumer]
    rfl
  -- the push
  have hqueue : (Q.start fun _ : Unit => firstChunk).data.shared.queues 0 = .batch q := by
    show Q.queues.getD 0 _ = _
    rw [hqueues]
    rfl
  have hpush : Q.threads.call ((Q.start fun _ : Unit => firstChunk).thread (.inl 0)) =
      some (.shared (.queue 0 (.push v))) := by
    show Q.threads.call (.reader 0 (if 0 ∈ Q.partitions then (Q.reader 0).read else [])) = _
    rw [hpartitions, if_pos (List.mem_singleton_self 0), hread, ← hzero]
    rfl
  have henter := ConsumerQueue.enter_push_batch v q
  obtain ⟨seg, hseg⟩ : ∃ seg, ThreadSafeBatchQueue.push v q = seg := ⟨_, rfl⟩
  rw [hseg] at henter hexit hgetOk
  obtain ⟨c₁, hstep₁, hdata₁, hthread₁, hready₁⟩ := Step.of_ready (M := apiMonitor Q)
    (r := .shared (.queue .unit)) (fun _ => rfl) hpush (by
      simp [apiMonitor, onShared, sharedMonitor, onQueue, hqueue, henter, hexit, tagExit,
        tagApiExit])
  have hqueue₁ : c₁.data.shared.queues 0 = .batch seg.data := by
    rw [hdata₁]
    simp [apiMonitor, onShared, sharedMonitor, onQueue, hqueue, henter]
  -- the call of `GetChunkMulti`
  have hget : Q.threads.call (c₁.thread (.inr ())) = some (.shared (.queue 0 (.get 0 0))) := by
    rw [hthread₁, Function.update_of_ne (by simp)]
    show some (Q.requestCall (.getChunkMulti 0 0)) = _
    have hpartition : toInt32 0 = 0 := by decide
    rw [ApiQueue.requestCall, hkind]
    dsimp only
    rw [hpartition, hzero]
  obtain ⟨c₂, hstep₂⟩ := Step.exists_of_ready (M := apiMonitor Q) hready₁ hget
  have hrun := (Run.start.step hstep₁).step hstep₂
  have hfine := accesses_fine (by decide) (by decide) hQ (Or.inr (by decide)) (by
    intro s r hr
    rw [List.mem_singleton.mp hr]
    show (0 : UInt32).toNat < 1
    decide) hrun (by
    intro st hst
    rcases List.mem_append.mp hst with hfirst | hsecond
    · rw [List.mem_singleton.mp hfirst]
      intro call hcall _
      obtain rfl := Option.some.inj (hpush.symm.trans hcall)
      refine ⟨?_, by simp⟩
      rw [hqueue]
      exact hpushOk
    · rw [List.mem_singleton.mp hsecond]
      intro call hcall _
      obtain rfl := Option.some.inj (hget.symm.trans hcall)
      constructor
      · rw [hqueue₁]
        exact Or.inr hgetOk
      · intro p v e
        obtain ⟨rfl, -⟩ := Call.get.inj e
        rw [hpartitions]
        exact List.mem_singleton_self 0)
  exact ⟨Q, _, c₂, hQ, hrun, rfl, hfine.2.1, hfine.2.2 ()⟩

end SasLibclient
