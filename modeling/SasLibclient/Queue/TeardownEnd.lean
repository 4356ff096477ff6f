import SasLibclient.Monitor.Progress
import SasLibclient.Queue.Teardown

/-!
# The end of the teardown

`FreeBatchData` returns: the calls of the readers and the turns of its loop are
bounded by the chunks that the readers have left and those that are stored, and
no state is stuck.
-/

namespace SasLibclient

open Monitors QueueItem ThreadSafeBatchQueue

namespace ThreadSafeBatchQueue

variable {T : Type} [QueueItem T] {ids : List Int} {sent : Int → Nat} {d : Freeing T}

/-- `FreeBatchData` notifies nobody while nothing is stored. -/
theorem freeBatchData_quiet (h : BatchInv ids d.queue [] sent)
    (hslots : d.queue.totalProducers * d.queue.batchSize < 2 ^ 31) (hqueue : d.queue.queue = []) :
    (freeBatchData d).signals = [] ∧ (freeBatchDataWoken d).signals = [] := by
  have hitems : d.queue.itemsToRead = 0 := by simpa using h.items
  have hlen : d.queue.queue.length = ([] : List T).length := by rw [hqueue]
  have hturns : turns d = 1 := by rw [turns, hitems]; rfl
  have hloop : (freeTurns 1 d []).signals = [] := by
    unfold freeTurns
    split
    · rename_i hgo
      rcases h.toBatchCore.freeTurn_cases hslots hlen (freeTurns 0) [] with ⟨_, _, e⟩ | ⟨_, hzero, _⟩ |
        ⟨_, _, _, _, hno, _⟩
      · rw [e]
      · simp [hzero, hitems] at hgo
      · simp at hno
    · rfl
  refine ⟨by rw [freeBatchData, hturns]; exact hloop, ?_⟩
  rw [freeBatchDataWoken, hturns]
  rcases h.toBatchCore.freeTurn_cases hslots hlen (freeTurns 1) [] with ⟨_, _, e⟩ | ⟨_, _, e⟩ |
    ⟨_, _, _, _, hno, _⟩
  · rw [e]
  · rw [e]
    exact hloop
  · simp at hno

end ThreadSafeBatchQueue

variable {T ς : Type} [QueueItem T] {S : Producers T} {stored : List T}
  {h₀ : List (Event (Int ⊕ Unit) (Call T) (Result T))} {d d' : TeardownConfig T}

/-! ## What is left to do -/

/-- The calls of a reader until it returns. -/
def workerRank (S : Producers T) : Worker T → Nat
  | .producer p next => (S.stream p).length - next + 1
  | _ => 0

theorem workerRank_producer {p : Int} {next : Nat} :
    workerRank S (.producer p next) = (S.stream p).length - next + 1 := rfl

theorem workerRank_deleted {p : Int} : workerRank S (.deleted p) = 0 := rfl

/-- The calls of the readers, each worth the chunk that it may push, the stored
chunks, and the return of `FreeBatchData`. -/
def teardownRank (S : Producers T) (data : Freeing T) (thread : Int ⊕ Unit → TeardownWorker T) :
    Nat :=
  2 * (S.ids.map fun p => workerRank S (thread (.inl p)).worker).sum +
    data.queue.itemsToRead.toNat +
    match thread (.inr ()) with
    | .freeing => 1
    | _ => 0

theorem workers_rank {thread thread' : Int ⊕ Unit → TeardownWorker T} {p : Int} (hp : p ∈ S.ids)
    {w w' : Worker T} (hw : (thread (.inl p)).worker = w) (hw' : (thread' (.inl p)).worker = w')
    (hother : ∀ t, t ≠ .inl p → thread' t = thread t) :
    (S.ids.map fun q => workerRank S (thread' (.inl q)).worker).sum + workerRank S w =
      (S.ids.map fun q => workerRank S (thread (.inl q)).worker).sum + workerRank S w' := by
  have hone := sum_map_of_one S.nodup hp
    (g := fun q => workerRank S (thread' (.inl q)).worker)
    (f := fun q => workerRank S (thread (.inl q)).worker) (by
      intro q hq
      rw [hother _ (by simpa using hq)])
  rwa [hw, hw'] at hone

/-- **A call of a reader that returns lowers the rank.** -/
theorem TeardownInv.reader_rank (h : TeardownInv S h₀ stored d)
    (hnext : NextNarrow S (view h₀ d).thread) {p : Int}
    (hs : Step teardownMonitor (teardown S) d (.inl p) d') (hreturn : d'.history ≠ d.history) :
    teardownRank S d'.data d'.thread < teardownRank S d.data d.thread := by
  obtain ⟨w, hw⟩ := h.readers p
  have hr : ReaderStep S h₀ p d d' := reader_step hw hs
  have hmain : d'.thread (.inr ()) = d.thread (.inr ()) := hr.others _ (by simp)
  have hhistory : (view h₀ d').history ≠ (view h₀ d).history := by
    rcases hr.history with hh | ⟨call, r, hh⟩
    · exact absurd hh hreturn
    · rw [view_history hh]
      simp
  have hitems : d.data.queue.itemsToRead = stored.length := h.base.inv.items
  rw [teardownRank, hmain, teardownRank]
  cases h.base.producer_step hnext hr.queue with
  | idle hd hth hh => exact absurd hh hhistory
  | push v hpm hact ht hv hpv hbatch hd hth hh hsmall =>
    have hlt : itemId v < (S.stream p).length := (List.getElem?_eq_some_iff.mp hv).1
    have hsum := workers_rank hpm ht (congrFun hth (.inl p)) hr.others
    rw [Function.update_self] at hsum
    have hqueue : d'.data.queue.itemsToRead = d.data.queue.itemsToRead + 1 :=
      congrArg ThreadSafeBatchQueue.itemsToRead hd
    simp only [workerRank_producer] at hsum
    rw [hqueue]
    omega
  | delete hpm hact ht hd hth hh =>
    have hsum := workers_rank hpm ht (congrFun hth (.inl p)) hr.others
    rw [Function.update_self] at hsum
    have hqueue : d'.data.queue.itemsToRead = d.data.queue.itemsToRead := by
      have hdata := congrArg ThreadSafeBatchQueue.itemsToRead hd
      rw [ThreadSafeBatchQueue.deleteProducer, resetIfFinished_itemsToRead] at hdata
      exact hdata
    simp only [workerRank_producer, workerRank_deleted] at hsum
    rw [hqueue]
    omega

/-- The threads that make the calls. -/
def teardownThreads (S : Producers T) : Finset (Int ⊕ Unit) :=
  insert (.inr ()) (S.ids.toFinset.image .inl)

theorem teardownThreads_card (S : Producers T) : (teardownThreads S).card = S.ids.length + 1 := by
  rw [teardownThreads, Finset.card_insert_of_notMem (by simp),
    Finset.card_image_of_injective _ Sum.inl_injective, List.toFinset_card_of_nodup S.nodup]

theorem teardown_ranked {B : Nat} (hnarrow : S.Narrow B)
    (h₀ : List (Event (Int ⊕ Unit) (Call T) (Result T))) :
    Ranked teardownMonitor (teardown S) (fun d => ∃ stored, TeardownInv S h₀ stored d)
      (teardownThreads S) fun data thread _ => teardownRank S data thread where
  step := fun _ _ _ ⟨_, hI⟩ hs => hI.step (hnarrow.next _) hs
  mem := by
    rintro d t i ⟨stored, hI⟩ hcall
    cases t with
    | inl p =>
      obtain ⟨w, hw⟩ := hI.readers p
      rw [hw] at hcall
      obtain ⟨call, hworker, rfl⟩ := teardown_call hcall
      have hp := (hI.base.producer_call (p := p) (i := call)
        (by simpa [view, hw, TeardownWorker.worker] using hworker)).1
      simp [teardownThreads, hp]
    | inr u => simp [teardownThreads]
  waits := by
    rintro d t i seg cv ⟨stored, hI⟩ hcall hseg hexit
    rcases hI.segment hcall hseg with ⟨p, call, seg', rfl, rfl, hcall', hseg', rfl⟩ |
      ⟨rfl, rfl, hdrained⟩
    · -- a wait in `Push` leaves everything alone
      right
      have hwait : seg'.exit = .wait cv := hexit
      obtain ⟨_, _, ⟨v, rfl⟩ | rfl⟩ := hI.base.producer_call hcall'
      · obtain rfl : seg' = ThreadSafeBatchQueue.push v d.data.queue := segment_push hseg'
        have hlater := (push_waits hwait).2.1
        rw [push_wait hlater]
        exact ⟨rfl, Nat.le_refl _⟩
      · rcases Monitor.segment_eq_some hseg' with rfl | rfl <;> cases hexit
    · have hitems : d.data.queue.itemsToRead = stored.length := hI.base.inv.items
      have hzero : seg.data.queue.itemsToRead = 0 := by simpa using hdrained.inv.items
      cases stored with
      | cons v rest =>
        left
        rw [teardownRank, hzero, teardownRank, hitems]
        simp
      | nil =>
        right
        have hslots : d.data.queue.totalProducers * d.data.queue.batchSize < 2 ^ 31 :=
          hI.base.slots_lt
        have hquiet := freeBatchData_quiet hI.base.inv hslots (List.length_eq_zero_iff.mp hI.length)
        refine ⟨?_, ?_⟩
        · rcases Monitor.segment_eq_some hseg with rfl | rfl
          · exact hquiet.1
          · exact hquiet.2
        · rw [teardownRank, hzero, teardownRank, hitems]
          simp
  returns := by
    rintro d t i seg r st ⟨stored, hI⟩ hcall hseg hdel hexit
    have hs := Step.ret hcall hseg hdel hexit
    cases t with
    | inl p =>
      have hlt := hI.reader_rank (hnarrow.next _) hs (by simp)
      exact hlt
    | inr u =>
      rcases hI.segment hcall hseg with ⟨p, _, _, hno, _⟩ | ⟨_, rfl, hdrained⟩
      · cases hno
      · have hzero : seg.data.queue.itemsToRead = 0 := by simpa using hdrained.inv.items
        rcases hI.main with hrun | ⟨hfreed, _⟩
        · have hne : ∀ p : Int, (.inl p : Int ⊕ Unit) ≠ .inr u := fun _ => Sum.inl_ne_inr
          rw [teardownRank, hzero, teardownRank, hrun]
          simp only [Function.update_of_ne (hne _), Function.update_self, teardown]
          omega
        · rw [hfreed] at hcall
          cases hcall

/-! ## The end -/

variable [DecidableEq ς] {B : Nat} {c : QueueConfig T ς}
  {tr : List (TeardownConfig T × (Int ⊕ Unit))}

/-- **Every teardown ends.** The steps are bounded but for spurious wake-ups, and
when none but those is left, `FreeBatchData` and all readers have returned. -/
theorem teardown_ends (hnarrow : S.Narrow B) (hstopped : TeardownPrefix S B c)
    (h : Run teardownMonitor (teardown S) (teardownStart c) tr d) :
    tr.length ≤ (S.ids.length + 2) * teardownRank S (teardownStart c).data (teardownStart c).thread +
        (S.ids.length + 1) + 2 * spurious tr ∧
      (Halted teardownMonitor (teardown S) d →
        d.thread (.inr ()) = .freed ∧ ∀ p, d.thread (.inl p) = .reader (.deleted p)) := by
  obtain ⟨⟨stored, hI⟩, hr, hh⟩ := teardown_reachable hnarrow hstopped ⟨tr, h⟩
  refine ⟨?_, ?_⟩
  · obtain ⟨⟨stored₀, hI₀⟩, _⟩ := teardown_reachable hnarrow hstopped .refl
    have hlength := (teardown_ranked hnarrow _).length_le ⟨stored₀, hI₀⟩ h
    have hweight := weight_le_card (teardownThreads S)
      (fun data thread _ => teardownRank S data thread) (teardownStart c)
    rw [teardownThreads_card, show S.ids.length + 1 + 1 = S.ids.length + 2 from rfl] at hweight
    omega
  · intro hhalted
    have hfin := hhalted.finished (hI.not_stuck (hnarrow.next _) hr hh)
    refine ⟨?_, ?_⟩
    · rcases hI.main with hrun | ⟨hfreed, _⟩
      · have hcall := hfin (.inr ())
        rw [hrun] at hcall
        cases hcall
      · exact hfreed
    · intro p
      obtain ⟨w, hw⟩ := hI.readers p
      have hview : (view (withoutConsumers c.history) d).thread (.inl p) = w := by
        simp [view, hw, TeardownWorker.worker]
      rcases hI.base.producers p with ⟨hth, _⟩ | ⟨_, _, next, _, hth⟩
      · rw [hview] at hth
        rw [hw, hth]
      · rw [hview] at hth
        have hcall := hfin (.inl p)
        rw [hw, hth] at hcall
        simp only [teardown, workers] at hcall
        split at hcall <;> cases hcall

/-- All of them have returned, so that nothing is left. -/
theorem teardown_ends_two : ∃ c tr d, TeardownPrefix (ς := Bool) twoProducers 1 c ∧
    c.status (.inl 0) = .asleep .busyCV ∧
    Run teardownMonitor (teardown twoProducers) (teardownStart c) tr d ∧
    tr.length ≤ 4 * teardownRank twoProducers (teardownStart c).data (teardownStart c).thread + 3 +
      2 * spurious tr ∧
    Halted teardownMonitor (teardown twoProducers) d ∧ d.thread (.inr ()) = .freed ∧
    ∀ p, d.thread (.inl p) = .reader (.deleted p) := by
  obtain ⟨c, tr, d, hstopped, hasleep, hrun, -, -, hfinished⟩ := teardownTwo_finished
  obtain ⟨hlength, hend⟩ := teardown_ends (twoProducers_narrow (by decide)) hstopped hrun
  exact ⟨c, tr, d, hstopped, hasleep, hrun, hlength, hfinished.halted, hend hfinished.halted⟩

end SasLibclient
