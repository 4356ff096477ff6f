import SasLibclient.Queue.BatchInvariant

/-!
# What a segment changes, and whom it notifies

Four facts of the queue decide whether a sleeper may go on: the batch number,
the number of active producers, the slots and the number of items.
`segment_effect` matches every change that a critical section makes to them
with its notification. The flags of the active producers are the exception:
`DeleteProducer` clears one and notifies nobody of it.
-/

namespace SasLibclient

open Monitors QueueItem

namespace ThreadSafeBatchQueue

variable {T : Type}

/-- Either nothing happens, or the next batch starts and every producer and
every reader waiting for a chunk is notified. -/
theorem resetIfFinished_cases (q : ThreadSafeBatchQueue T) :
    q.resetIfFinished = (q, []) ∨
      q.isBatchFinished = true ∧ q.resetIfFinished = (q.resetBatch, q.resetSignals) := by
  unfold resetIfFinished
  split
  · rename_i h
    exact Or.inr ⟨h, rfl⟩
  · exact Or.inl rfl

variable [QueueItem T]

/-- The changes of a segment of call `i` that starts from `q`, with their
notifications. -/
structure Effect (i : Call T) (q : ThreadSafeBatchQueue T)
    (seg : Segment (ThreadSafeBatchQueue T) CondVar (Result T)) : Prop where
  batchSize : seg.data.batchSize = q.batchSize
  total : seg.data.totalProducers = q.totalProducers
  numbers : seg.data.partitionIdToNumber = q.partitionIdToNumber
  flags : seg.data.producerActiveArray = q.producerActiveArray ∨ ∃ p, i = .deleteProducer p
  batch : seg.data.currentBatch = q.currentBatch ∨
    seg.data.currentBatch = q.currentBatch + 1 ∧ ∀ s ∈ q.resetSignals, s ∈ seg.signals
  producers : seg.data.activeProducers = q.activeProducers ∨ seg.data.activeProducers ≠ 0 ∨
    Signal.all .emptyCV ∈ seg.signals
  slots : ∀ idx, (seg.data.dataArray idx).isSet = true → (q.dataArray idx).isSet = true ∨
    ∃ v : T, i = .push v ∧ idx = q.itemIndex v ∧
      Signal.all (.dataNotReadyCV (q.partitionIdToNumber (partitionId v))) ∈ seg.signals
  items : seg.data.itemsToRead ≤ q.itemsToRead ∨
    seg.data.itemsToRead ≤ q.itemsToRead + 1 ∧ Signal.one .emptyCV ∈ seg.signals

theorem Effect.unchanged (i : Call T) (q : ThreadSafeBatchQueue T) (S : List (Signal CondVar))
    (e : Exit CondVar (Result T)) : Effect i q ⟨q, S, e⟩ where
  batchSize := rfl
  total := rfl
  numbers := rfl
  flags := Or.inl rfl
  batch := Or.inl rfl
  producers := Or.inl rfl
  slots := fun _ h => Or.inl h
  items := Or.inl (Int.le_refl _)

/-- `readValue`, the removal from `m_queue` and the check of the batch. -/
theorem Effect.read (i : Call T) (q : ThreadSafeBatchQueue T) (idx : Int) (rest : List T)
    (e : Exit CondVar (Result T)) :
    Effect i q ⟨({ (q.readValue idx).2 with queue := rest } : ThreadSafeBatchQueue T).resetIfFinished.1,
      ({ (q.readValue idx).2 with queue := rest } : ThreadSafeBatchQueue T).resetIfFinished.2, e⟩ := by
  have hset : ∀ j, (Function.update q.dataArray idx
      { q.dataArray idx with isSet := false } j).isSet = true → (q.dataArray j).isSet = true := by
    intro j hj
    rw [Function.update_apply] at hj
    split at hj
    · cases hj
    · exact hj
  rcases resetIfFinished_cases
    ({ (q.readValue idx).2 with queue := rest } : ThreadSafeBatchQueue T) with hr | ⟨_, hr⟩
  · rw [hr]
    exact ⟨rfl, rfl, rfl, Or.inl rfl, Or.inl rfl, Or.inl rfl, fun j hj => Or.inl (hset j hj),
      Or.inl (Int.sub_le_self _ (by decide))⟩
  · rw [hr]
    exact ⟨rfl, rfl, rfl, Or.inl rfl, Or.inr ⟨rfl, fun _ hs => hs⟩, Or.inl rfl, fun j hj => Or.inl (hset j hj),
      Or.inl (Int.sub_le_self _ (by decide))⟩

theorem effect_push (v : T) (q : ThreadSafeBatchQueue T) : Effect (.push v) q (push v q) := by
  unfold push
  dsimp only
  split
  · exact Effect.unchanged ..
  · split
    · exact Effect.unchanged ..
    · refine ⟨rfl, rfl, rfl, Or.inl rfl, Or.inl rfl, Or.inl rfl, fun idx hidx => ?_, Or.inr ⟨Int.le_refl _, by simp⟩⟩
      dsimp only at hidx
      rw [Function.update_apply] at hidx
      split at hidx
      · rename_i hv
        exact Or.inr ⟨v, rfl, hv, by simp⟩
      · exact Or.inl hidx

theorem effect_pop (q : ThreadSafeBatchQueue T) : Effect .pop q (pop q) := by
  unfold pop
  split
  · exact Effect.unchanged ..
  · split
    · exact Effect.unchanged ..
    · split
      · exact Effect.unchanged ..
      · exact Effect.read ..

theorem effect_getLoop (p v : Int) (q : ThreadSafeBatchQueue T) :
    Effect (.get p v) q (getLoop p v q) := by
  unfold getLoop
  dsimp only
  split
  · exact Effect.unchanged ..
  · split
    · exact Effect.unchanged ..
    · split
      · exact Effect.read ..
      · exact Effect.unchanged ..
      · exact Effect.unchanged ..

theorem effect_get (p v : Int) (q : ThreadSafeBatchQueue T) : Effect (.get p v) q (get p v q) := by
  unfold get
  split
  · exact Effect.unchanged ..
  · exact effect_getLoop p v q

theorem effect_deleteProducer (p : Int) (q : ThreadSafeBatchQueue T) :
    Effect (.deleteProducer p) q (deleteProducer p q) := by
  have hproducers : ∀ S : List (Signal CondVar), q.activeProducers - 1 = q.activeProducers ∨
      q.activeProducers - 1 ≠ 0 ∨
      Signal.all .emptyCV ∈ S ++ if q.activeProducers - 1 = 0 then [.all .emptyCV] else [] := by
    intro S
    by_cases h0 : q.activeProducers - 1 = 0
    · exact Or.inr (Or.inr (by simp [h0]))
    · exact Or.inr (Or.inl h0)
  have hsignals : (q.deactivate p).resetIfFinished.1.currentBatch = q.currentBatch ∨
      (q.deactivate p).resetIfFinished.1.currentBatch = q.currentBatch + 1 ∧
        ∀ s ∈ q.resetSignals, s ∈ (deleteProducer p q).signals := by
    rcases resetIfFinished_cases (q.deactivate p) with hr | ⟨_, hr⟩
    · rw [hr]
      exact Or.inl rfl
    · refine Or.inr ⟨by rw [hr]; rfl, fun s hs => ?_⟩
      simp only [deleteProducer, hr]
      exact List.mem_append_left _ hs
  refine ⟨resetIfFinished_batchSize _, resetIfFinished_totalProducers _,
    resetIfFinished_partitionIdToNumber _, Or.inr ⟨p, rfl⟩, hsignals, ?_, fun idx hidx => Or.inl ?_,
    Or.inl ?_⟩
  · simp only [deleteProducer, resetIfFinished_activeProducers]
    exact hproducers _
  · simp only [deleteProducer, resetIfFinished_dataArray] at hidx
    exact hidx
  · simp only [deleteProducer, resetIfFinished_itemsToRead]
    exact Int.le_refl _

/-- **Every segment of every call.** -/
theorem segment_effect {s : Status CondVar} {i : Call T} {q : ThreadSafeBatchQueue T}
    {seg : Segment (ThreadSafeBatchQueue T) CondVar (Result T)}
    (h : monitor.segment s i q = some seg) : Effect i q seg := by
  rcases Monitor.segment_eq_some h with rfl | rfl
  · cases i with
    | push v => exact effect_push v q
    | pop => exact effect_pop q
    | get p v => exact effect_get p v q
    | deleteProducer p => exact effect_deleteProducer p q
  · cases i with
    | push v => exact effect_push v q
    | pop => exact effect_pop q
    | get p v => exact effect_getLoop p v q
    | deleteProducer p => exact effect_deleteProducer p q

/-- A sleeper in `Push` keeps its reason, or the segment wakes it. -/
theorem Effect.keeps_push {i : Call T} {q : ThreadSafeBatchQueue T}
    {seg : Segment (ThreadSafeBatchQueue T) CondVar (Result T)} (h : Effect i q seg) (v : T)
    (hno : Signal.all .busyCV ∉ seg.signals) (hw : q.pushMustWait v = true) :
    seg.data.pushMustWait v = true := by
  rcases h.batch with he | ⟨_, hs⟩
  · rw [pushMustWait, h.batchSize, he]
    exact hw
  · exact absurd (hs _ (by simp [resetSignals])) hno

/-- A sleeper in `Get` keeps its reason as long as its producer is active, or
the segment wakes it. -/
theorem Effect.keeps_get {i : Call T} {q : ThreadSafeBatchQueue T}
    {seg : Segment (ThreadSafeBatchQueue T) CondVar (Result T)} (h : Effect i q seg)
    (hB : 0 < q.batchSize) {p : Int} {v : Nat}
    (hlt : q.partitionIdToNumber p < q.totalProducers) (hr : q.InRange p v)
    (hpush : ∀ w : T, i = .push w → q.Fits w)
    (hno : Signal.all (.dataNotReadyCV (q.partitionIdToNumber p)) ∉ seg.signals)
    (hw : q.getMustWait p v = true)
    (hactive : seg.data.producerActiveArray (q.partitionIdToNumber p) = true) :
    seg.data.getMustWait p v = true := by
  have htarget : seg.data.targetIndex p v = q.targetIndex p v := by
    simp [targetIndex, h.batchSize, h.numbers]
  have hbatch : seg.data.currentBatch = q.currentBatch := by
    rcases h.batch with he | ⟨_, hs⟩
    · exact he
    · exact absurd (hs _ (by simp [resetSignals, hlt])) hno
  -- a slot filled by a push of this producer would have been announced
  have hslot : (q.dataArray (q.targetIndex p v)).isSet = false →
      (seg.data.dataArray (q.targetIndex p v)).isSet = false := by
    intro hfree
    by_contra hset
    rcases h.slots _ (by simpa using hset) with hold | ⟨w, hcall, hidx, hsig⟩
    · rw [hfree] at hold
      cases hold
    · obtain ⟨hid, hrw⟩ := hpush w hcall
      rw [itemIndex_eq hid] at hidx
      rw [← (hr.targetIndex_inj hrw hB hidx).1] at hsig
      exact hno hsig
  unfold getMustWait at hw ⊢
  rw [htarget, h.batchSize, hbatch, h.numbers, hactive]
  simp only [Bool.and_true, Bool.and_eq_true, Bool.or_eq_true, Bool.not_eq_true'] at hw ⊢
  rcases hw.1 with hfree | hother
  · exact Or.inl (hslot hfree)
  · exact Or.inr hother

end ThreadSafeBatchQueue

end SasLibclient
