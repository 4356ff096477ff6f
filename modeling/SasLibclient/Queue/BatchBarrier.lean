import Mathlib.Data.Finset.Card
import SasLibclient.Queue.GetRuns
import SasLibclient.Queue.PopMode

/-!
# The batch barrier

What the invariants of the two modes say about the fields of the class: the
slots that are set, `m_itemsToRead`, `m_queue.size()`, `m_readInBatch` and
`m_currentBatch` agree, and no chunk of a batch is stored while a chunk of an
earlier batch has not been delivered (`batch_barrier`).
-/

namespace SasLibclient

open Monitors QueueItem

namespace ThreadSafeBatchQueue

variable {T : Type}

/-- The number of slots of `m_dataArray` that are set. -/
def setSlots (q : ThreadSafeBatchQueue T) : Nat :=
  ((Finset.range (q.totalProducers * q.batchSize)).filter
    fun j => (q.dataArray (j : Nat)).isSet).card

/-- The number of set slots among those of producer `p`. -/
def setSlotsOf (q : ThreadSafeBatchQueue T) (p : Int) : Nat :=
  ((Finset.range q.batchSize).filter fun j =>
    (q.dataArray ((q.partitionIdToNumber p * q.batchSize + j : Nat))).isSet).card

variable [QueueItem T] {ids : List Int} {q : ThreadSafeBatchQueue T} {stored : List T}
  {sent : Int → Nat}

theorem BatchCore.chunk_at (h : BatchCore ids q stored sent)
    (hslots : q.totalProducers * q.batchSize < 2 ^ 31) {j : Nat}
    (hj : j < q.totalProducers * q.batchSize) (hset : (q.dataArray (j : Nat)).isSet = true) :
    ∃ v ∈ stored, (j : Int) = q.targetIndex (partitionId v) (itemId v) := by
  have hdiv : j / q.batchSize < q.totalProducers := Nat.div_lt_of_lt_mul (by rwa [Nat.mul_comm])
  obtain ⟨p, hp, hnum⟩ := h.numbered.onto _ hdiv
  have hrange : q.InRange p j := .of_slots h.pos (h.numbered.lt p hp) hslots j
  have hindex : (j : Int) = q.targetIndex p (j : Nat) := by
    rw [hrange.targetIndex_eq, hnum, Nat.div_add_mod']
  rw [hindex] at hset
  obtain ⟨v, hv, hpv, hmod⟩ := h.slots p hp j hrange hset
  refine ⟨v, hv, ?_⟩
  rw [hpv]
  exact hindex.trans (targetIndex_congr q p hmod.symm)

/-- The number of a stored chunk's slot. -/
def slotOf (q : ThreadSafeBatchQueue T) (v : T) : Nat :=
  q.partitionIdToNumber (partitionId v) * q.batchSize + itemId v % q.batchSize

theorem BatchCore.targetIndex_eq_slotOf (h : BatchCore ids q stored sent) {v : T}
    (hv : v ∈ stored) : q.targetIndex (partitionId v) (itemId v) = (q.slotOf v : Int) :=
  (h.fits v hv).2.targetIndex_eq

theorem BatchCore.nodup_slots (h : BatchCore ids q stored sent) :
    (stored.map q.slotOf).Nodup := by
  refine List.Nodup.map_on ?_ h.nodup
  intro v hv w hw hslot
  have hindex : q.targetIndex (partitionId v) (itemId v) =
      q.targetIndex (partitionId w) (itemId w) := by
    rw [h.targetIndex_eq_slotOf hv, h.targetIndex_eq_slotOf hw, hslot]
  obtain ⟨hnum, hmod⟩ := (h.fits v hv).2.targetIndex_inj (h.fits w hw).2 h.pos hindex
  have hp := h.numbered.inj _ (h.stored_spec v hv).1 _ (h.stored_spec w hw).1 hnum
  exact h.stored_unique hv hw hp hmod

theorem BatchCore.slotOf_lt (h : BatchCore ids q stored sent) {v : T} (hv : v ∈ stored) :
    q.slotOf v < q.totalProducers * q.batchSize := by
  have hnum := h.numbered.lt _ (h.stored_spec v hv).1
  have hmod := Nat.mod_lt (itemId v) h.pos
  have hle := Nat.mul_le_mul_right q.batchSize (Nat.succ_le_of_lt hnum)
  rw [Nat.succ_mul] at hle
  unfold slotOf
  omega

theorem BatchCore.setSlots_eq (h : BatchCore ids q stored sent)
    (hslots : q.totalProducers * q.batchSize < 2 ^ 31) :
    q.setSlots = stored.length := by
  have hset : (Finset.range (q.totalProducers * q.batchSize)).filter
      (fun j => (q.dataArray (j : Nat)).isSet) = (stored.map q.slotOf).toFinset := by
    ext j
    rw [Finset.mem_filter, Finset.mem_range, List.mem_toFinset, List.mem_map]
    constructor
    · rintro ⟨hj, hslot⟩
      obtain ⟨v, hv, hindex⟩ := h.chunk_at hslots hj hslot
      rw [h.targetIndex_eq_slotOf hv, Int.natCast_inj] at hindex
      exact ⟨v, hv, hindex.symm⟩
    · rintro ⟨v, hv, rfl⟩
      refine ⟨h.slotOf_lt hv, ?_⟩
      rw [← h.targetIndex_eq_slotOf hv, (h.stored_spec v hv).2.2.2]
  rw [setSlots, hset, List.toFinset_card_of_nodup h.nodup_slots, List.length_map]

theorem BatchCore.setSlotsOf_eq (h : BatchCore ids q stored sent) {p : Int} (hp : p ∈ ids)
    (hrange : ∀ i, q.InRange p i) :
    q.setSlotsOf p = countOf p stored := by
  have hmem : ∀ v, v ∈ stored.filter (fun v => decide (partitionId v = p)) ↔
      v ∈ stored ∧ partitionId v = p := by simp
  have hnodup : ((stored.filter fun v => decide (partitionId v = p)).map
      fun v => itemId v % q.batchSize).Nodup := by
    refine List.Nodup.map_on ?_ (h.nodup.filter _)
    intro v hv w hw hmod
    rw [hmem] at hv hw
    exact h.stored_unique hv.1 hw.1 (hv.2.trans hw.2.symm) hmod
  have hset : (Finset.range q.batchSize).filter (fun j =>
      (q.dataArray ((q.partitionIdToNumber p * q.batchSize + j : Nat))).isSet) =
      ((stored.filter fun v => decide (partitionId v = p)).map
        fun v => itemId v % q.batchSize).toFinset := by
    ext j
    rw [Finset.mem_filter, Finset.mem_range, List.mem_toFinset, List.mem_map]
    constructor
    · rintro ⟨hj, hslot⟩
      have hindex : ((q.partitionIdToNumber p * q.batchSize + j : Nat) : Int) =
          q.targetIndex p (j : Nat) := by
        rw [(hrange j).targetIndex_eq, Nat.mod_eq_of_lt hj]
      rw [hindex] at hslot
      obtain ⟨v, hv, hpv, hmod⟩ := h.slots p hp j (hrange j) hslot
      refine ⟨v, (hmem v).mpr ⟨hv, hpv⟩, ?_⟩
      rw [hmod, Nat.mod_eq_of_lt hj]
    · rintro ⟨v, hv, rfl⟩
      rw [hmem] at hv
      refine ⟨Nat.mod_lt _ h.pos, ?_⟩
      have hspec := (h.stored_spec v hv.1).2.2.2
      rw [h.targetIndex_eq_slotOf hv.1, slotOf, hv.2] at hspec
      rw [hspec]
  rw [setSlotsOf, hset, List.toFinset_card_of_nodup hnodup, List.length_map,
    ← List.countP_eq_length_filter]
  rfl

end ThreadSafeBatchQueue

open ThreadSafeBatchQueue

variable {T ς : Type} [QueueItem T] {S : Producers T} {B : Nat} {c c' : QueueConfig T ς}
  {stored : List T} {requests : ς → List (Int × Nat)}

/-- **The counters are those of the code**: `m_itemsToRead`, and `m_currentBatch`
while a producer is active, are in the range of `int`. -/
theorem QueueInv.counters_int (h : QueueInv S stored c)
    (hids : ∀ p ∈ S.ids, (S.stream p).length < 2 ^ 31) :
    int32 c.data.itemsToRead = c.data.itemsToRead ∧
      ∀ p ∈ S.ids, c.data.active p = true →
        int32 c.data.currentBatch = c.data.currentBatch := by
  have hcore := h.inv.toBatchCore
  constructor
  · have hset : c.data.setSlots ≤ c.data.totalProducers * c.data.batchSize := by
      have hcard := Finset.card_filter_le (Finset.range (c.data.totalProducers * c.data.batchSize))
        fun j => (c.data.dataArray (j : Nat)).isSet
      rwa [Finset.card_range] at hcard
    rw [hcore.setSlots_eq h.slots_lt] at hset
    rw [hcore.items]
    exact int32_natCast (Nat.lt_of_le_of_lt hset h.slots_lt)
  · intro p hp hact
    obtain ⟨next, hle, -, hsent⟩ := h.thread_of_active hp hact
    have hbalance := hcore.balance p hp hact
    have hbatch := Nat.le_mul_of_pos_left c.data.currentBatch hcore.pos
    have hlength := hids p hp
    exact int32_natCast (by omega)

/-- What both modes keep: the chunks that were pushed are those delivered and
those stored. -/
structure StoredInv (S : Producers T) (stored : List T) (c : QueueConfig T ς) : Prop where
  base : QueueInv S stored c
  length : c.data.queue.length = stored.length
  split : (pushed c.history).Perm (delivered c.history ++ stored)

theorem GetRunInv.storedInv (h : GetRunInv S stored c) : StoredInv S stored c where
  base := h.base
  length := h.length
  split := by
    rw [delivered, h.noPop, List.nil_append]
    exact h.split

theorem QueueInv.sentBy_le (h : QueueInv S stored c) (p : Int) :
    sentBy S c.thread p ≤ (S.stream p).length := by
  rcases h.producers p with ⟨hth, _⟩ | ⟨_, _, next, hle, hth⟩
  · simp [sentBy, hth]
  · simpa [sentBy, hth] using hle

theorem QueueInv.countOf_pushed (h : QueueInv S stored c) {p : Int} (hp : p ∈ S.ids) :
    countOf p (pushed c.history) = sentBy S c.thread p := by
  have hmem : ∀ v, v ∈ (pushed c.history).filter (fun v => decide (partitionId v = p)) ↔
      v ∈ pushed c.history ∧ partitionId v = p := by simp
  have hnodup : (((pushed c.history).filter fun v => decide (partitionId v = p)).map
      itemId).Nodup := by
    refine List.Nodup.map_on ?_ (h.pushed_nodup.filter _)
    intro v hv w hw hid
    rw [hmem] at hv hw
    have hv' := (h.pushed_lt v hv.1).2.2
    have hw' := (h.pushed_lt w hw.1).2.2
    rw [hv.2, hid] at hv'
    rw [hw.2, hv'] at hw'
    exact Option.some.inj hw'
  have hperm : (((pushed c.history).filter fun v => decide (partitionId v = p)).map itemId).Perm
      (List.range (sentBy S c.thread p)) := by
    refine (List.perm_ext_iff_of_nodup hnodup List.nodup_range).mpr fun i => ?_
    rw [List.mem_map, List.mem_range]
    constructor
    · rintro ⟨v, hv, rfl⟩
      rw [hmem] at hv
      rw [← hv.2]
      exact (h.pushed_lt v hv.1).2.1
    · intro hi
      have hlt := Nat.lt_of_lt_of_le hi (h.sentBy_le p)
      have hv := List.getElem?_eq_getElem hlt
      obtain ⟨hpv, hiv⟩ := S.sequential p hp i _ hv
      exact ⟨_, (hmem _).mpr ⟨h.pushed_all p hp i _ hi hv, hpv⟩, hiv⟩
  have hlength := hperm.length_eq
  rw [List.length_map, List.length_range, ← List.countP_eq_length_filter] at hlength
  exact hlength

theorem StoredInv.delivered_of_earlier (h : StoredInv S stored c) {p : Int} (hp : p ∈ S.ids)
    {w : T} (hw : w ∈ S.stream p) (hbatch : itemId w / c.data.batchSize < c.data.currentBatch) :
    w ∈ delivered c.history := by
  obtain ⟨i, hi, hget⟩ := List.mem_iff_getElem.mp hw
  have hstream : (S.stream p)[i]? = some w := by rw [List.getElem?_eq_getElem hi, hget]
  obtain ⟨hpw, hiw⟩ := S.sequential p hp i w hstream
  have hsent : i < sentBy S c.thread p := by
    cases hact : c.data.active p with
    | true =>
      have hbalance := h.base.inv.balance p hp hact
      have hlt := (Nat.div_lt_iff_lt_mul h.base.inv.pos).mp hbatch
      rw [hiw, Nat.mul_comm] at hlt
      omega
    | false =>
      rw [h.base.sentBy_of_inactive hact]
      exact hi
  have hpushed := h.base.pushed_all p hp i w hsent hstream
  rcases List.mem_append.mp (h.split.mem_iff.mp hpushed) with hdelivered | hstored
  · exact hdelivered
  · have hcurrent := (h.base.inv.stored_spec w hstored).2.1
    omega

/-- The fields of the queue agree with each other and with what the producers
and the consumers have done. -/
structure BatchBarrier (S : Producers T) (B : Nat) (c : QueueConfig T ς) : Prop where
  batchSize : c.data.batchSize = B
  items : c.data.itemsToRead = c.data.setSlots ∧ c.data.itemsToRead = c.data.queue.length
  placed : ∀ v ∈ pushed c.history, v ∉ delivered c.history →
    c.data.dataArray (c.data.targetIndex (partitionId v) (itemId v)) = ⟨some v, true⟩ ∧
      itemId v / B = c.data.currentBatch
  occupied : ∀ j : Nat, j < c.data.totalProducers * B →
    (c.data.dataArray j).isSet = true → ∃ v ∈ pushed c.history, v ∉ delivered c.history ∧
      (j : Int) = c.data.targetIndex (partitionId v) (itemId v)
  share : ∀ p ∈ S.ids, c.data.readOf p + c.data.setSlotsOf p ≤ B
  balance : ∀ p ∈ S.ids, c.data.active p = true →
    c.data.readOf p + c.data.setSlotsOf p + B * c.data.currentBatch =
      countOf p (pushed c.history)
  barrier : ∀ v ∈ pushed c.history, v ∉ delivered c.history → ∀ p ∈ S.ids, ∀ w ∈ S.stream p,
    itemId w / B < itemId v / B → w ∈ delivered c.history
  capacity : ∀ p ∈ S.ids, countOf p (pushed c.history) ≤ countOf p (delivered c.history) + B

theorem StoredInv.batchBarrier (h : StoredInv S stored c) : BatchBarrier S c.data.batchSize c := by
  have hcore := h.base.inv.toBatchCore
  have hnodup := h.split.nodup_iff.mp h.base.pushed_nodup
  -- stored means pushed and not delivered
  have hstored : ∀ v, v ∈ stored ↔ v ∈ pushed c.history ∧ v ∉ delivered c.history := by
    intro v
    rw [h.split.mem_iff, List.mem_append]
    constructor
    · intro hv
      refine ⟨Or.inr hv, fun hd => ?_⟩
      exact (List.nodup_append.mp hnodup).2.2 v hd v hv rfl
    · rintro ⟨hd | hv, hnot⟩
      · exact absurd hd hnot
      · exact hv
  constructor
  · rfl
  · rw [hcore.setSlots_eq h.base.slots_lt, h.length]
    exact ⟨hcore.items, hcore.items⟩
  · intro v hv hnot
    obtain ⟨_, hbatch, _, hslot⟩ := hcore.stored_spec v ((hstored v).mpr ⟨hv, hnot⟩)
    exact ⟨hslot, hbatch⟩
  · intro j hj hset
    obtain ⟨v, hv, hindex⟩ := hcore.chunk_at h.base.slots_lt hj hset
    obtain ⟨hpushed, hnot⟩ := (hstored v).mp hv
    exact ⟨v, hpushed, hnot, hindex⟩
  · intro p hp
    rw [hcore.setSlotsOf_eq hp (h.base.inRange hp)]
    exact hcore.bound p hp
  · intro p hp hact
    rw [hcore.setSlotsOf_eq hp (h.base.inRange hp), h.base.countOf_pushed hp]
    exact hcore.balance p hp hact
  · intro v hv hnot p hp w hw hlt
    have hbatch := (hcore.stored_spec v ((hstored v).mpr ⟨hv, hnot⟩)).2.1
    rw [hbatch] at hlt
    exact h.delivered_of_earlier hp hw hlt
  · intro p hp
    have hcount : countOf p (pushed c.history) =
        countOf p (delivered c.history) + countOf p stored := by
      rw [countOf, h.split.countP_eq, List.countP_append]
      rfl
    have hbound := hcore.bound p hp
    omega

variable [DecidableEq ς]

/-- The fields that no method writes. -/
theorem frame_reachable {c₀ : QueueConfig T ς} (h : Reachable monitor (workers S) c₀ c) :
    c.data.batchSize = c₀.data.batchSize ∧ c.data.totalProducers = c₀.data.totalProducers ∧
      c.data.partitionIdToNumber = c₀.data.partitionIdToNumber := by
  refine h.invariant (I := fun c => c.data.batchSize = c₀.data.batchSize ∧
    c.data.totalProducers = c₀.data.totalProducers ∧
    c.data.partitionIdToNumber = c₀.data.partitionIdToNumber) ⟨rfl, rfl, rfl⟩ ?_
  intro c t c' hI hs
  rcases hs.data_cases with hd | ⟨i, seg, _, hseg, hd⟩
  · rw [hd]
    exact hI
  · have heffect := segment_effect hseg
    rw [hd, heffect.batchSize, heffect.total, heffect.numbers]
    exact hI

/-- `Pop` mode makes no calls of `Get`. -/
theorem PopInv.noGet (hB : 0 < B) (hnarrow : S.Narrow B)
    (h : Reachable monitor (workers S) (popStart S B ς) c) :
    gotten c.history = [] := by
  have hall : PopInv S c ∧ gotten c.history = [] := by
    refine h.invariant (I := fun c => PopInv S c ∧ gotten c.history = []) ?_ ?_
    · exact ⟨PopInv.start B hB hnarrow.slots, rfl⟩
    · rintro c t c' ⟨hI, hnone⟩ hs
      refine ⟨hI.step (hnarrow.next _) hs, ?_⟩
      cases hI.step_cases (hnarrow.next _) hs with
      | producer hp =>
        cases hp with
        | idle hd hth hh => rw [hh]; exact hnone
        | push v hpm hact ht hv hpv hbatch hd hth hh hsmall => rw [hh, gotten_append, hnone]; rfl
        | delete hpm hact ht hd hth hh => rw [hh, gotten_append, hnone]; rfl
      | idle hd hth hh => rw [hh]; exact hnone
      | pop received v rest ht hq hd hth hh => rw [hh, gotten_append, hnone]; rfl
      | drain received ht hq ha hd hth hh => rw [hh, gotten_append, hnone]; rfl
  exact hall.2

theorem PopInv.storedInv (hB : 0 < B) (hnarrow : S.Narrow B)
    (h : Reachable monitor (workers S) (popStart S B ς) c) :
    StoredInv S c.data.queue c := by
  have hI := PopInv.reachable hB hnarrow h
  refine ⟨hI.base, rfl, ?_⟩
  rw [delivered, PopInv.noGet hB hnarrow h, List.append_nil, hI.order]

/-- **The batch barrier**, in every state of every run of `Pop`s and of every
run of `Get`s. -/
theorem batch_barrier (hB : 0 < B) (hnarrow : S.Narrow B)
    (hrequests : ∀ s, ∀ r ∈ requests s, r.1 ∈ S.ids)
    (h : Reachable monitor (workers S) (popStart S B ς) c ∨
      Reachable monitor (workers S) (getStart S B requests) c) : BatchBarrier S B c := by
  rcases h with hpop | hget
  · have hbarrier := (PopInv.storedInv hB hnarrow hpop).batchBarrier
    rw [(frame_reachable hpop).1] at hbarrier
    exact hbarrier
  · obtain ⟨stored, hI⟩ := GetRunInv.reachable hB hnarrow hrequests hget
    have hbarrier := hI.storedInv.batchBarrier
    rw [(frame_reachable hget).1] at hbarrier
    exact hbarrier

/-- In the second batch, after `Pop`s, and after `Get`s in another order than the
pushes; one chunk is stored. -/
theorem batch_barrier_two :
    (∃ c, Reachable monitor (workers twoProducers) (popStart twoProducers 1 Bool) c ∧
      popped c.history = [(0, 0), (1, 0)] ∧ c.data.itemsToRead = 1 ∧
      BatchBarrier twoProducers 1 c) ∧
    ∃ c, Reachable monitor (workers twoProducers)
        (getStart twoProducers 1 fun s : Bool => bif s then [(1, 0), (1, 1)] else [(0, 0)]) c ∧
      gotten c.history = [(1, 0), (0, 0)] ∧ c.data.itemsToRead = 1 ∧
      BatchBarrier twoProducers 1 c := by
  have hnarrow : twoProducers.Narrow 1 := twoProducers_narrow (by decide)
  have hrequests : ∀ s : Bool, ∀ r ∈ (bif s then [((1 : Int), 0), (1, 1)] else [(0, 0)]),
      r.1 ∈ twoProducers.ids := by
    decide
  constructor
  · let facts : QueueConfig (Int × Nat) Bool → _ := fun c => (popped c.history, c.data.itemsToRead)
    have hschedule : (popTwo [.inr false, .inr true, .inl 0, .inl 0, .inl 1, .inr true, .inr false,
        .inl 0]).map facts = some ([(0, 0), (1, 0)], 1) := by
      decide +kernel
    obtain ⟨c, hc, hfacts⟩ := Option.map_eq_some_iff.mp hschedule
    obtain ⟨hpopped, hitems⟩ : popped c.history = _ ∧ c.data.itemsToRead = _ := by
      simpa only [facts, Prod.mk.injEq] using hfacts
    have hreach := reachable_popTwo (by simp) hc
    exact ⟨c, hreach, hpopped, hitems,
      batch_barrier (by decide) hnarrow hrequests (Or.inl hreach)⟩
  · let facts : QueueConfig (Int × Nat) Bool → _ := fun c => (gotten c.history, c.data.itemsToRead)
    have hschedule : (Config.schedule monitor (workers twoProducers)
        [.inl 0, .inl 1, .inr false, .inr true]
        [.inr true, .inr false, .inl 0, .inl 1, .inr true, .inr false, .inl 1]
        (getStart twoProducers 1 fun s : Bool => bif s then [(1, 0), (1, 1)] else [(0, 0)])).map
          facts = some ([(1, 0), (0, 0)], 1) := by
      decide +kernel
    obtain ⟨c, hc, hfacts⟩ := Option.map_eq_some_iff.mp hschedule
    obtain ⟨hgotten, hitems⟩ : gotten c.history = _ ∧ c.data.itemsToRead = _ := by
      simpa only [facts, Prod.mk.injEq] using hfacts
    obtain ⟨tr, hrun, _⟩ := Run.of_schedule (by simp) nofun hc
    exact ⟨c, ⟨tr, hrun⟩, hgotten, hitems,
      batch_barrier (by decide) hnarrow hrequests (Or.inr ⟨tr, hrun⟩)⟩

end SasLibclient
