import Mathlib.Data.List.Nodup
import SasLibclient.Queue.ThreadSafeBatchQueue

/-!
# The representation invariant of the batch queue

`BatchCore ids q stored sent` ties the five redundant pieces of state
together: `stored` lists the chunks pushed and not yet delivered, `sent p` is
the number of chunks producer `p` has pushed. It holds of the data whichever
of `Pop` and `Get` delivers. `BatchInv` adds that the batch is not finished
while a producer is active, which is what `resetBatch` re-establishes.

One lemma for each operation: `BatchInv.create`, `BatchInv.push`,
`BatchInv.read` (shared by `Pop` and `Get`) and `BatchInv.deleteProducer`.
-/

namespace SasLibclient

open Monitors QueueItem

variable {T : Type}

namespace ThreadSafeBatchQueue

/-! ## The producer numbers -/

theorem numberFrom_of_not_mem (p : Int) (ps : List Int) (first : Nat) (m : Int → Nat)
    (hp : p ∉ ps) : numberFrom first m ps p = m p := by
  induction ps generalizing first m with
  | nil => rfl
  | cons a ps ih =>
    simp only [List.mem_cons, not_or] at hp
    rw [numberFrom, ih _ _ hp.2, Function.update_of_ne hp.1]

theorem numberFrom_getElem (ps : List Int) (first : Nat) (m : Int → Nat) (hn : ps.Nodup)
    (i : Nat) (hi : i < ps.length) : numberFrom first m ps ps[i] = first + i := by
  induction ps generalizing first m i with
  | nil => simp at hi
  | cons a ps ih =>
    obtain ⟨ha, hps⟩ := List.nodup_cons.mp hn
    cases i with
    | zero =>
      simp only [List.getElem_cons_zero, numberFrom]
      rw [numberFrom_of_not_mem _ _ _ _ ha, Function.update_self]
      rfl
    | succ i =>
      simp only [List.getElem_cons_succ, numberFrom]
      rw [ih (first + 1) _ hps i (by simpa using hi)]
      omega

/-- The producers of `ids` are numbered `0, …, totalProducers - 1`. -/
structure Numbered (ids : List Int) (q : ThreadSafeBatchQueue T) : Prop where
  lt : ∀ p ∈ ids, q.partitionIdToNumber p < q.totalProducers
  inj : ∀ p ∈ ids, ∀ p' ∈ ids,
    q.partitionIdToNumber p = q.partitionIdToNumber p' → p = p'
  onto : ∀ i, i < q.totalProducers → ∃ p ∈ ids, q.partitionIdToNumber p = i

theorem numbered_create (B : Nat) (ids : List Int) (hn : ids.Nodup) :
    Numbered ids (create (T := T) B ids) := by
  have num : ∀ i (hi : i < ids.length), (create (T := T) B ids).partitionIdToNumber ids[i] = i := by
    intro i hi
    simp only [create]
    rw [numberFrom_getElem ids 0 _ hn i hi, Nat.zero_add]
  refine ⟨?_, ?_, ?_⟩
  · intro p hp
    obtain ⟨i, hi, rfl⟩ := List.mem_iff_getElem.mp hp
    rw [num i hi]
    exact hi
  · intro p hp p' hp' h
    obtain ⟨i, hi, rfl⟩ := List.mem_iff_getElem.mp hp
    obtain ⟨j, hj, rfl⟩ := List.mem_iff_getElem.mp hp'
    rw [num i hi, num j hj] at h
    subst h
    rfl
  · intro i hi
    exact ⟨ids[i], List.getElem_mem hi, num i hi⟩

/-! ## Slots -/

/-- The slot of chunk `i` of producer `p` has an index in the range of `int`. -/
def InRange (q : ThreadSafeBatchQueue T) (p : Int) (i : Nat) : Prop :=
  q.partitionIdToNumber p * q.batchSize + i % q.batchSize < 2 ^ 31

section InRange

variable {q : ThreadSafeBatchQueue T} {p p' : Int} {i i' : Nat}

theorem slot_lt (hB : 0 < q.batchSize) (hp : q.partitionIdToNumber p < q.totalProducers) (i : Nat) :
    q.partitionIdToNumber p * q.batchSize + i % q.batchSize < q.totalProducers * q.batchSize := by
  have hmod := Nat.mod_lt i hB
  have hle := Nat.mul_le_mul_right q.batchSize (Nat.succ_le_of_lt hp)
  rw [Nat.succ_mul] at hle
  omega

theorem InRange.of_slots (hB : 0 < q.batchSize) (hp : q.partitionIdToNumber p < q.totalProducers)
    (hslots : q.totalProducers * q.batchSize < 2 ^ 31) (i : Nat) : q.InRange p i :=
  Nat.lt_trans (slot_lt hB hp i) hslots

theorem InRange.congr (h : q.InRange p i) (hi : i' % q.batchSize = i % q.batchSize) :
    q.InRange p i' := by
  unfold InRange
  rw [hi]
  exact h

theorem InRange.targetIndex_eq (h : q.InRange p i) :
    q.targetIndex p (i : Int) =
      ((q.partitionIdToNumber p * q.batchSize + i % q.batchSize : Nat) : Int) := by
  rw [targetIndex, slotIndex, ← Int.ofNat_tmod, ← Int.natCast_mul, ← Int.natCast_add,
    int32_natCast h]

theorem InRange.targetIndex_tdiv (h : q.InRange p i) (hB : 0 < q.batchSize) :
    ((q.targetIndex p (i : Int)).tdiv q.batchSize).toNat = q.partitionIdToNumber p := by
  rw [h.targetIndex_eq, ← Int.ofNat_tdiv, Int.toNat_natCast, Nat.mul_comm,
    Nat.mul_add_div hB, Nat.div_eq_of_lt (Nat.mod_lt i hB), Nat.add_zero]

/-- Slots of different producers, or of different places in the batch, differ. -/
theorem InRange.targetIndex_inj (h : q.InRange p i) (h' : q.InRange p' i') (hB : 0 < q.batchSize)
    (he : q.targetIndex p (i : Int) = q.targetIndex p' (i' : Int)) :
    q.partitionIdToNumber p = q.partitionIdToNumber p' ∧
      i % q.batchSize = i' % q.batchSize := by
  have hnum : q.partitionIdToNumber p = q.partitionIdToNumber p' := by
    rw [← h.targetIndex_tdiv hB, he, h'.targetIndex_tdiv hB]
  rw [h.targetIndex_eq, h'.targetIndex_eq, hnum] at he
  have := Int.ofNat.inj he
  exact ⟨hnum, by omega⟩

end InRange

theorem targetIndex_congr (q : ThreadSafeBatchQueue T) (p : Int) {i i' : Nat}
    (h : i % q.batchSize = i' % q.batchSize) :
    q.targetIndex p (i : Int) = q.targetIndex p (i' : Int) := by
  rw [targetIndex, targetIndex, slotIndex, slotIndex, ← Int.ofNat_tmod, ← Int.ofNat_tmod, h]

/-- `m_producerActiveArray` at the number of `p`. -/
def active (q : ThreadSafeBatchQueue T) (p : Int) : Bool :=
  q.producerActiveArray (q.partitionIdToNumber p)

/-- `m_readInBatch` at the number of `p`. -/
def readOf (q : ThreadSafeBatchQueue T) (p : Int) : Nat :=
  q.readInBatch (q.partitionIdToNumber p)

theorem isBatchFinished_iff {ids : List Int} {q : ThreadSafeBatchQueue T}
    (hnum : Numbered ids q) : q.isBatchFinished = true ↔
      (∀ p ∈ ids, q.active p = true → q.readOf p = q.batchSize) ∧ q.itemsToRead = 0 := by
  simp only [isBatchFinished, Bool.and_eq_true, List.all_eq_true, List.mem_range,
    Bool.not_eq_true', Bool.and_eq_false_iff, bne_eq_false_iff_eq, beq_iff_eq]
  constructor
  · rintro ⟨h, hitems⟩
    refine ⟨fun p hp hact => ?_, hitems⟩
    rcases h _ (hnum.lt p hp) with h | h
    · simp only [active] at hact
      rw [h] at hact
      cases hact
    · exact h
  · rintro ⟨h, hitems⟩
    refine ⟨fun i hi => ?_, hitems⟩
    obtain ⟨p, hp, rfl⟩ := hnum.onto i hi
    cases hact : q.producerActiveArray (q.partitionIdToNumber p) with
    | false => exact Or.inl rfl
    | true => exact Or.inr (h p hp hact)

variable [QueueItem T]

/-- The number of chunks of producer `p` in a list. -/
def countOf (p : Int) (l : List T) : Nat := l.countP fun v => decide (partitionId v = p)

omit [QueueItem T] in
theorem countP_split (f : T → Bool) (l₁ l₂ : List T) (v : T) :
    (l₁ ++ v :: l₂).countP f = (l₁ ++ l₂).countP f + if f v then 1 else 0 := by
  simp only [List.countP_append, List.countP_cons]
  omega

/-- The number of the chunk and its index are in the range of `int`. -/
def Fits (val : T) (q : ThreadSafeBatchQueue T) : Prop :=
  itemId val < 2 ^ 31 ∧ q.InRange (partitionId val) (itemId val)

/-- The joint invariant of the slots, the counters and the batch number. -/
structure BatchCore (ids : List Int) (q : ThreadSafeBatchQueue T) (stored : List T)
    (sent : Int → Nat) : Prop where
  pos : 0 < q.batchSize
  numbered : Numbered ids q
  nodupIds : ids.Nodup
  stored_spec : ∀ v ∈ stored, partitionId v ∈ ids ∧ itemId v / q.batchSize = q.currentBatch ∧
    itemId v < sent (partitionId v) ∧
    q.dataArray (q.targetIndex (partitionId v) (itemId v)) = ⟨some v, true⟩
  slots : ∀ p ∈ ids, ∀ i : Nat, q.InRange p i → (q.dataArray (q.targetIndex p i)).isSet = true →
    ∃ v ∈ stored, partitionId v = p ∧ itemId v % q.batchSize = i % q.batchSize
  nodup : stored.Nodup
  items : q.itemsToRead = stored.length
  balance : ∀ p ∈ ids, q.active p = true →
    q.readOf p + countOf p stored + q.batchSize * q.currentBatch = sent p
  bound : ∀ p ∈ ids, q.readOf p + countOf p stored ≤ q.batchSize
  actives : q.activeProducers = (ids.countP q.active : Int)
  fits : ∀ v ∈ stored, q.Fits v

/-- The invariant between two critical sections. -/
structure BatchInv (ids : List Int) (q : ThreadSafeBatchQueue T) (stored : List T)
    (sent : Int → Nat) : Prop extends BatchCore ids q stored sent where
  unfinished : (∃ p ∈ ids, q.active p = true) → q.isBatchFinished = false

variable {ids : List Int} {q : ThreadSafeBatchQueue T} {stored : List T} {sent : Int → Nat}

/-- The index of a chunk whose id is in the range of `int`. -/
theorem itemIndex_eq {v : T} (hv : itemId v < 2 ^ 31) :
    q.itemIndex v = q.targetIndex (partitionId v) (itemId v) := by
  rw [itemIndex, int32_natCast hv]

/-- A stored chunk of the current batch is found by its producer and its place. -/
theorem BatchCore.stored_unique (h : BatchCore ids q stored sent) {v w : T} (hv : v ∈ stored)
    (hw : w ∈ stored) (hp : partitionId v = partitionId w)
    (hi : itemId v % q.batchSize = itemId w % q.batchSize) : v = w := by
  obtain ⟨_, _, _, hsv⟩ := h.stored_spec v hv
  obtain ⟨_, _, _, hsw⟩ := h.stored_spec w hw
  rw [hp, targetIndex_congr q _ hi, hsw] at hsv
  have := (DataContainer.mk.inj hsv).1
  exact (Option.some.inj this).symm

theorem BatchInv.create (B : Nat) (hB : 0 < B) (ids : List Int) (hn : ids.Nodup) :
    BatchInv ids (ThreadSafeBatchQueue.create (T := T) B ids) [] (fun _ => 0) where
  pos := hB
  numbered := numbered_create B ids hn
  nodupIds := hn
  stored_spec := by simp
  slots := by simp [ThreadSafeBatchQueue.create]
  nodup := List.nodup_nil
  items := rfl
  balance := by simp [ThreadSafeBatchQueue.create, readOf, countOf]
  bound := by simp [ThreadSafeBatchQueue.create, readOf, countOf]
  actives := by
    have hall : ids.countP (ThreadSafeBatchQueue.create (T := T) B ids).active = ids.length := by
      refine List.countP_eq_length.mpr fun p hp => ?_
      have := (numbered_create (T := T) B ids hn).lt p hp
      simpa [active, ThreadSafeBatchQueue.create] using this
    rw [hall]
    rfl
  fits := by simp
  unfinished := by
    rintro ⟨p, hp, hact⟩
    by_contra hfin
    have hread := ((isBatchFinished_iff (numbered_create B ids hn)).mp (by simpa using hfin)).1
      p hp hact
    simp only [readOf, ThreadSafeBatchQueue.create] at hread
    omega

/-! ## `resetBatch` -/

/-- After the check at the end of `Pop`, `Get` and `DeleteProducer` the
invariant holds between critical sections again. -/
theorem BatchCore.resetIfFinished (h : BatchCore ids q stored sent) :
    BatchInv ids q.resetIfFinished.1 stored sent := by
  unfold ThreadSafeBatchQueue.resetIfFinished
  split
  · rename_i hfin
    obtain ⟨hfull, hitems⟩ := (isBatchFinished_iff h.numbered).mp hfin
    have hnil : stored = [] := by
      have := h.items
      rw [hitems] at this
      exact List.length_eq_zero_iff.mp (by omega)
    subst hnil
    have hread : ∀ p ∈ ids, q.resetBatch.readOf p = 0 := fun p hp => by
      simp [readOf, ThreadSafeBatchQueue.resetBatch, h.numbered.lt p hp]
    refine ⟨⟨h.pos, ⟨h.numbered.lt, h.numbered.inj, h.numbered.onto⟩, h.nodupIds, by simp,
      fun p hp i hr hset => ?_, List.nodup_nil, h.items, fun p hp hact => ?_, fun p hp => ?_,
      h.actives, by simp⟩, ?_⟩
    · obtain ⟨v, hv, _⟩ := h.slots p hp i hr hset
      simp at hv
    · have hbal := h.balance p hp hact
      rw [hfull p hp hact] at hbal
      rw [hread p hp]
      simp only [ThreadSafeBatchQueue.resetBatch, countOf, List.countP_nil] at hbal ⊢
      rw [Nat.mul_add]
      omega
    · rw [hread p hp]
      simp [countOf]
    · rintro ⟨p, hp, hact⟩
      by_contra hfin'
      have hnum : Numbered ids q.resetBatch := ⟨h.numbered.lt, h.numbered.inj, h.numbered.onto⟩
      have hB := ((isBatchFinished_iff hnum).mp (by simpa using hfin')).1 p hp hact
      rw [hread p hp] at hB
      have hpos := h.pos
      simp only [ThreadSafeBatchQueue.resetBatch] at hB
      omega
  · rename_i hfin
    exact ⟨h, fun _ => by simpa using hfin⟩

/-! ## `Push` -/

/-- The data `Push` leaves when it does not wait. -/
def afterPush (v : T) (q : ThreadSafeBatchQueue T) : ThreadSafeBatchQueue T :=
  { q with
    dataArray := Function.update q.dataArray (q.targetIndex (partitionId v) (itemId v))
      ⟨some v, true⟩
    queue := q.queue ++ [v]
    itemsToRead := q.itemsToRead + 1 }

/-- Batch numbers of ids in the range of `int` are compared as they are. -/
theorem pushMustWait_iff {v : T} (hv : itemId v < 2 ^ 31)
    (hb : q.currentBatch ≤ itemId v / q.batchSize) :
    q.pushMustWait v = true ↔ itemId v / q.batchSize > q.currentBatch := by
  have hle := Nat.div_le_self (itemId v) q.batchSize
  rw [pushMustWait, decide_eq_true_iff, int32_natCast (by omega), int32_natCast (by omega)]
  omega

theorem push_wait {v : T} (hw : q.pushMustWait v = true) :
    push v q = ⟨q, [], .wait .busyCV⟩ := by
  simp only [push, hw, ↓reduceIte]

/-- The batch of the next chunk of an active producer has not passed. -/
theorem BatchInv.currentBatch_le (h : BatchInv ids q stored sent) {v : T}
    (hp : partitionId v ∈ ids) (hact : q.active (partitionId v) = true)
    (hid : itemId v = sent (partitionId v)) : q.currentBatch ≤ itemId v / q.batchSize := by
  have hbal := h.balance _ hp hact
  rw [Nat.le_div_iff_mul_le h.pos, Nat.mul_comm]
  omega

theorem BatchInv.slot_free (h : BatchInv ids q stored sent) {v : T} (hp : partitionId v ∈ ids)
    (hact : q.active (partitionId v) = true) (hid : itemId v = sent (partitionId v))
    (hv : q.Fits v) (hw : q.pushMustWait v = false) :
    itemId v / q.batchSize = q.currentBatch ∧
      (q.dataArray (q.targetIndex (partitionId v) (itemId v))).isSet = false := by
  have hge := h.currentBatch_le hp hact hid
  have hle : ¬ itemId v / q.batchSize > q.currentBatch := by
    rw [← pushMustWait_iff hv.1 hge, hw]
    exact Bool.false_ne_true
  refine ⟨by omega, ?_⟩
  by_contra hset
  obtain ⟨w, hw, hpw, hiw⟩ := h.slots _ hp _ hv.2 (by simpa using hset)
  obtain ⟨_, hbatch, hlt, _⟩ := h.stored_spec w hw
  have e : itemId w = itemId v := by
    rw [← Nat.div_add_mod (itemId w) q.batchSize, ← Nat.div_add_mod (itemId v) q.batchSize, hbatch,
      hiw]
    congr 2
    omega
  rw [hpw] at hlt
  omega

theorem BatchInv.push_ret (h : BatchInv ids q stored sent) {v : T} (hp : partitionId v ∈ ids)
    (hact : q.active (partitionId v) = true) (hid : itemId v = sent (partitionId v))
    (hv : q.Fits v) (hw : q.pushMustWait v = false) :
    push v q = ⟨afterPush v q,
      [.one .emptyCV, .all (.dataNotReadyCV (q.partitionIdToNumber (partitionId v)))],
      .ret .unit⟩ := by
  have hfree := (h.slot_free hp hact hid hv hw).2
  simp only [push, hw, itemIndex_eq hv.1, ↓reduceIte, hfree, Bool.false_eq_true]
  rfl

/-- **`Push` keeps the invariant**: the chunk is stored and counted as sent. -/
theorem BatchInv.push (h : BatchInv ids q stored sent) {v : T} (hp : partitionId v ∈ ids)
    (hact : q.active (partitionId v) = true) (hid : itemId v = sent (partitionId v))
    (hv : q.Fits v) (hw : q.pushMustWait v = false) :
    BatchInv ids (afterPush v q) (stored ++ [v])
      (Function.update sent (partitionId v) (itemId v + 1)) := by
  obtain ⟨hbatch, hfree⟩ := h.slot_free hp hact hid hv hw
  have hbal := h.balance _ hp hact
  have hnew : v ∉ stored := fun hv => by
    have := (h.stored_spec v hv).2.2.1
    omega
  have hcount : ∀ p, countOf p (stored ++ [v]) =
      countOf p stored + if partitionId v = p then 1 else 0 := fun p => by
    simp [countOf, List.countP_append, List.countP_singleton]
  refine ⟨⟨h.pos, ⟨h.numbered.lt, h.numbered.inj, h.numbered.onto⟩, h.nodupIds, ?_, ?_, ?_, ?_,
    ?_, ?_, h.actives, ?_⟩, ?_⟩
  · intro w hwm
    rcases List.mem_append.mp hwm with hw' | hw'
    · obtain ⟨hpw, hbw, hlt, hslot⟩ := h.stored_spec w hw'
      have hne : q.targetIndex (partitionId w) (itemId w) ≠
          q.targetIndex (partitionId v) (itemId v) := by
        intro e
        rw [← e, hslot] at hfree
        cases hfree
      refine ⟨hpw, hbw, ?_, ?_⟩
      · by_cases e : partitionId w = partitionId v
        · rw [e, Function.update_self]
          rw [e] at hlt
          omega
        · rw [Function.update_of_ne e]
          exact hlt
      · exact (Function.update_of_ne hne _ _).trans hslot
    · rw [List.mem_singleton] at hw'
      subst hw'
      refine ⟨hp, hbatch, ?_, Function.update_self ..⟩
      rw [Function.update_self]
      exact Nat.lt_succ_self _
  · intro p hpm i hr hset
    by_cases e : q.targetIndex p (i : Int) = q.targetIndex (partitionId v) (itemId v)
    · obtain ⟨hnum, hmod⟩ := InRange.targetIndex_inj hr hv.2 h.pos e
      exact ⟨v, by simp, (h.numbered.inj _ hpm _ hp hnum).symm, hmod.symm⟩
    · have hold : (q.dataArray (q.targetIndex p i)).isSet = true :=
        (congrArg DataContainer.isSet (Function.update_of_ne e _ _)).symm.trans hset
      obtain ⟨w, hwm, hpw, hiw⟩ := h.slots p hpm i hr hold
      exact ⟨w, List.mem_append_left _ hwm, hpw, hiw⟩
  · exact List.nodup_append.mpr ⟨h.nodup, by simp, fun a ha b hb => by
      rw [List.mem_singleton] at hb
      subst hb
      exact fun e => hnew (e ▸ ha)⟩
  · have := h.items
    simp only [afterPush, List.length_append, List.length_singleton]
    push_cast
    omega
  · intro p hpm hactp
    have hb := h.balance p hpm hactp
    change q.readOf p + countOf p (stored ++ [v]) + q.batchSize * q.currentBatch = _
    rw [hcount]
    by_cases e : partitionId v = p
    · subst e
      rw [if_pos rfl, Function.update_self]
      omega
    · rw [if_neg e, Function.update_of_ne (Ne.symm e)]
      omega
  · intro p hpm
    have hb := h.bound p hpm
    change q.readOf p + countOf p (stored ++ [v]) ≤ q.batchSize
    rw [hcount]
    by_cases e : partitionId v = p
    · subst e
      have hlt : itemId v < q.batchSize * (q.currentBatch + 1) := by
        rw [← hbatch, Nat.mul_comm]
        exact Nat.lt_mul_of_div_lt (Nat.lt_succ_self _) h.pos
      rw [Nat.mul_add] at hlt
      rw [if_pos rfl]
      omega
    · rw [if_neg e]
      exact hb
  · intro w hwm
    rcases List.mem_append.mp hwm with hold | hnew'
    · exact h.fits w hold
    · rw [List.mem_singleton.mp hnew']
      exact hv
  · intro _
    have hne : q.itemsToRead + 1 ≠ 0 := by
      have := h.items
      omega
    simp [isBatchFinished, afterPush, hne]

/-! ## Delivery, shared by `Pop` and `Get` -/

/-- The data after `readValue` on the slot of `v` and `m_queue.pop()`, before
the batch is checked. -/
def afterRead (v : T) (rest : List T) (q : ThreadSafeBatchQueue T) : ThreadSafeBatchQueue T :=
  { (q.readValue (q.targetIndex (partitionId v) (itemId v))).2 with queue := rest }

theorem BatchCore.readOf_afterRead (h : BatchCore ids q stored sent) {v : T} (rest : List T)
    (hv : partitionId v ∈ ids) (hfits : q.Fits v) {p : Int} (hp : p ∈ ids) :
    (afterRead v rest q).readOf p = q.readOf p + if partitionId v = p then 1 else 0 := by
  simp only [afterRead, readOf, readValue, hfits.2.targetIndex_tdiv h.pos]
  by_cases e : partitionId v = p
  · subst e
    rw [Function.update_self, if_pos rfl]
  · rw [if_neg e, Function.update_of_ne]
    · rfl
    · exact fun hn => e (h.numbered.inj _ hp _ hv hn).symm

theorem BatchCore.read {l₁ l₂ : List T} {v : T}
    (h : BatchCore ids q (l₁ ++ v :: l₂) sent) (rest : List T) :
    BatchCore ids (afterRead v rest q) (l₁ ++ l₂) sent := by
  have hvm : v ∈ l₁ ++ v :: l₂ := by simp
  have hsub : ∀ w ∈ l₁ ++ l₂, w ∈ l₁ ++ v :: l₂ ∧ w ≠ v := by
    intro w hw
    have hn := h.nodup
    rw [List.nodup_middle, List.nodup_cons] at hn
    refine ⟨?_, fun e => hn.1 (e ▸ hw)⟩
    simp only [List.mem_append, List.mem_cons] at hw ⊢
    rcases hw with hw | hw
    · exact Or.inl hw
    · exact Or.inr (Or.inr hw)
  obtain ⟨hvp, _, _, hvslot⟩ := h.stored_spec v hvm
  have hcount : ∀ p, countOf p (l₁ ++ v :: l₂) =
      countOf p (l₁ ++ l₂) + if partitionId v = p then 1 else 0 := fun p => by
    simpa [countOf] using countP_split (fun w => decide (partitionId w = p)) l₁ l₂ v
  refine ⟨h.pos, ⟨h.numbered.lt, h.numbered.inj, h.numbered.onto⟩, h.nodupIds, ?_, ?_, ?_, ?_,
    ?_, ?_, h.actives, fun w hw => h.fits w (hsub w hw).1⟩
  · intro w hw
    obtain ⟨hwm, hne⟩ := hsub w hw
    obtain ⟨hpw, hbw, hlt, hslot⟩ := h.stored_spec w hwm
    have hidx : q.targetIndex (partitionId w) (itemId w) ≠
        q.targetIndex (partitionId v) (itemId v) := by
      intro e
      rw [e, hvslot] at hslot
      exact hne (Option.some.inj (DataContainer.mk.inj hslot).1).symm
    exact ⟨hpw, hbw, hlt, (Function.update_of_ne hidx _ _).trans hslot⟩
  · intro p hp i hr hset
    have hne : q.targetIndex p i ≠ q.targetIndex (partitionId v) (itemId v) := by
      intro e
      have : (q.readValue (q.targetIndex (partitionId v) (itemId v))).2.dataArray
          (q.targetIndex p i) = { q.dataArray (q.targetIndex p i) with isSet := false } := by
        rw [e]
        exact Function.update_self ..
      have hset' : ((q.readValue (q.targetIndex (partitionId v) (itemId v))).2.dataArray
          (q.targetIndex p i)).isSet = true := hset
      rw [this] at hset'
      cases hset'
    have hold : (q.dataArray (q.targetIndex p i)).isSet = true :=
      (congrArg DataContainer.isSet (Function.update_of_ne hne _ _)).symm.trans hset
    obtain ⟨w, hwm, hpw, hiw⟩ := h.slots p hp i hr hold
    refine ⟨w, ?_, hpw, hiw⟩
    have hwv : w ≠ v := by
      rintro rfl
      exact hne (by rw [hpw]; exact targetIndex_congr q p hiw.symm)
    simp only [List.mem_append, List.mem_cons] at hwm ⊢
    rcases hwm with hw | hw | hw
    · exact Or.inl hw
    · exact absurd hw hwv
    · exact Or.inr hw
  · exact ((List.nodup_middle.mp h.nodup) |> List.nodup_cons.mp).2
  · have := h.items
    simp only [List.length_append, List.length_cons] at this ⊢
    change q.itemsToRead - 1 = _
    push_cast at this ⊢
    omega
  · intro p hp hact
    have hb := h.balance p hp hact
    rw [hcount] at hb
    rw [h.readOf_afterRead rest hvp (h.fits v hvm) hp]
    change _ + _ + q.batchSize * q.currentBatch = _
    omega
  · intro p hp
    have hb := h.bound p hp
    rw [hcount] at hb
    rw [h.readOf_afterRead rest hvp (h.fits v hvm) hp]
    change _ ≤ q.batchSize
    omega

section Frame

variable (q : ThreadSafeBatchQueue T)

omit [QueueItem T]

@[simp] theorem resetIfFinished_queue : q.resetIfFinished.1.queue = q.queue := by
  unfold resetIfFinished; split <;> rfl

@[simp] theorem resetIfFinished_batchSize : q.resetIfFinished.1.batchSize = q.batchSize := by
  unfold resetIfFinished; split <;> rfl

@[simp] theorem resetIfFinished_totalProducers :
    q.resetIfFinished.1.totalProducers = q.totalProducers := by
  unfold resetIfFinished; split <;> rfl

@[simp] theorem resetIfFinished_partitionIdToNumber :
    q.resetIfFinished.1.partitionIdToNumber = q.partitionIdToNumber := by
  unfold resetIfFinished; split <;> rfl

@[simp] theorem resetIfFinished_dataArray :
    q.resetIfFinished.1.dataArray = q.dataArray := by
  unfold resetIfFinished; split <;> rfl

@[simp] theorem resetIfFinished_itemsToRead :
    q.resetIfFinished.1.itemsToRead = q.itemsToRead := by
  unfold resetIfFinished; split <;> rfl

@[simp] theorem resetIfFinished_activeProducers :
    q.resetIfFinished.1.activeProducers = q.activeProducers := by
  unfold resetIfFinished; split <;> rfl

@[simp] theorem resetIfFinished_producerActiveArray :
    q.resetIfFinished.1.producerActiveArray = q.producerActiveArray := by
  unfold resetIfFinished; split <;> rfl

@[simp] theorem resetIfFinished_active (p : Int) :
    q.resetIfFinished.1.active p = q.active p := by
  simp [active]

@[simp] theorem resetIfFinished_inRange (p : Int) (i : Nat) :
    q.resetIfFinished.1.InRange p i ↔ q.InRange p i := by
  simp [InRange]

@[simp] theorem resetIfFinished_targetIndex (p i : Int) :
    q.resetIfFinished.1.targetIndex p i = q.targetIndex p i := by
  simp [targetIndex]

theorem resetIfFinished_currentBatch_le :
    q.currentBatch ≤ q.resetIfFinished.1.currentBatch := by
  unfold resetIfFinished; split <;> simp [resetBatch]

end Frame

/-! ## `Pop` -/

/-- The three ways `Pop` can go when the queue lists the stored chunks. -/
theorem BatchCore.pop_cases (h : BatchCore ids q q.queue sent) :
    (q.queue = [] ∧ q.activeProducers ≠ 0 ∧ pop q = ⟨q, [], .wait .emptyCV⟩) ∨
    (q.queue = [] ∧ q.activeProducers = 0 ∧
      pop q = ⟨q, [], .ret (.outOfRange "Queue is empty")⟩) ∨
    (∃ v rest, q.queue = v :: rest ∧
      pop q = ⟨(afterRead v rest q).resetIfFinished.1, (afterRead v rest q).resetIfFinished.2,
        .ret (.value v)⟩) := by
  have hitems := h.items
  cases hq : q.queue with
  | nil =>
    rw [hq] at hitems
    have h0 : q.itemsToRead = 0 := by simpa using hitems
    by_cases ha : q.activeProducers = 0
    · exact Or.inr (Or.inl ⟨rfl, ha, by simp [pop, h0, ha]⟩)
    · exact Or.inl ⟨rfl, ha, by simp [pop, h0, ha]⟩
  | cons v rest =>
    rw [hq] at hitems
    have h0 : q.itemsToRead ≠ 0 := by
      simp only [List.length_cons] at hitems
      omega
    have hv : itemId v < 2 ^ 31 := (h.fits v (by rw [hq]; exact List.mem_cons_self)).1
    refine Or.inr (Or.inr ⟨v, rest, rfl, ?_⟩)
    simp only [pop, h0, hq, itemIndex_eq hv, false_and, ↓reduceIte]
    rfl

theorem BatchCore.pop_value (h : BatchCore ids q q.queue sent) {v : T} {rest : List T}
    (hq : q.queue = v :: rest) :
    BatchInv ids (afterRead v rest q).resetIfFinished.1 rest sent := by
  have h' : BatchCore ids q ([] ++ v :: rest) sent := by
    rw [hq] at h
    exact h
  exact (h'.read rest).resetIfFinished

/-! ## `DeleteProducer` -/

theorem countP_deactivate {α : Type} [DecidableEq α] {l : List α} (hn : l.Nodup) {a : α}
    (ha : a ∈ l) (f : α → Bool) (hf : f a = true) :
    l.countP f = l.countP (fun b => if b = a then false else f b) + 1 := by
  obtain ⟨l₁, l₂, rfl⟩ := List.append_of_mem ha
  rw [List.nodup_middle, List.nodup_cons] at hn
  have hrest : (l₁ ++ l₂).countP (fun b => if b = a then false else f b) =
      (l₁ ++ l₂).countP f := by
    refine List.countP_congr fun b hb => ?_
    rw [if_neg]
    rintro rfl
    exact hn.1 hb
  simp only [List.countP_append, List.countP_cons, hf, ↓reduceIte, Bool.false_eq_true] at hrest ⊢
  omega

omit [QueueItem T] in
theorem deactivate_active (q : ThreadSafeBatchQueue T) (p p' : Int) :
    (q.deactivate p).active p' =
      if q.partitionIdToNumber p' = q.partitionIdToNumber p then false else q.active p' := by
  simp only [active, ThreadSafeBatchQueue.deactivate, Function.update_apply]

theorem BatchCore.deactivate (h : BatchCore ids q stored sent) {p : Int} (hp : p ∈ ids)
    (hact : q.active p = true) : BatchCore ids (q.deactivate p) stored sent := by
  have hactive : ∀ p' ∈ ids, (q.deactivate p).active p' = if p' = p then false else q.active p' := by
    intro p' hp'
    rw [deactivate_active]
    by_cases e : p' = p
    · subst e
      rw [if_pos rfl, if_pos rfl]
    · rw [if_neg e, if_neg fun hn => e (h.numbered.inj _ hp' _ hp hn)]
  refine ⟨h.pos, ⟨h.numbered.lt, h.numbered.inj, h.numbered.onto⟩, h.nodupIds, h.stored_spec,
    h.slots, h.nodup, h.items, ?_, h.bound, ?_, h.fits⟩
  · intro p' hp' hact'
    rw [hactive p' hp'] at hact'
    split at hact'
    · cases hact'
    · exact h.balance p' hp' hact'
  · have hcount := countP_deactivate h.nodupIds hp q.active hact
    have hcongr : ids.countP (q.deactivate p).active =
        ids.countP (fun b => if b = p then false else q.active b) :=
      List.countP_congr fun p' hp' => by rw [hactive p' hp']
    have := h.actives
    change q.activeProducers - 1 = _
    rw [hcongr]
    omega

/-- **`DeleteProducer` keeps the invariant.** -/
theorem BatchInv.deleteProducer (h : BatchInv ids q stored sent) {p : Int} (hp : p ∈ ids)
    (hact : q.active p = true) :
    BatchInv ids (deleteProducer p q).data stored sent :=
  (h.toBatchCore.deactivate hp hact).resetIfFinished

/-- No producer is active exactly when `m_activeProducers` is zero. -/
theorem BatchCore.activeProducers_eq_zero (h : BatchCore ids q stored sent) :
    q.activeProducers = 0 ↔ ∀ p ∈ ids, q.active p = false := by
  rw [h.actives, Int.natCast_eq_zero, List.countP_eq_zero]
  simp

end ThreadSafeBatchQueue

end SasLibclient
