import SasLibclient.Queue.Workers
import SasLibclient.Queue.Notifications
import SasLibclient.Monitor.Sleepers

/-!
# The batch queue in `Get` mode

Producers and threads that call `Get` along arbitrary lists of requests. A
sleeper is lost when the condition it waits for is false and nobody has
notified it. `DeleteProducer` ends the wait of every reader of its partition
and notifies none of them, unless it also finishes the batch: a run loses no
wake-up exactly when no reader sleeps on the producer at such a step.
-/

namespace SasLibclient

open Monitors QueueItem ThreadSafeBatchQueue

variable {T ς : Type} [QueueItem T]

/-- Consumer `s` calls `Get` along `requests s`. -/
def getStart (S : Producers T) (B : Nat) (requests : ς → List (Int × Nat)) : QueueConfig T ς :=
  startConfig S B fun s => .getter (requests s) []

/-- Nobody is asleep and not notified while its wait condition is false. -/
structure NoLostWakeup (S : Producers T) (c : QueueConfig T ς) : Prop where
  get : ∀ t cv p v, c.status t = .asleep cv →
    (workers S).call (c.thread t) = some (.get p v) → c.data.getMustWait p v = true
  push : ∀ t cv v, c.status t = .asleep cv →
    (workers S).call (c.thread t) = some (.push v) → c.data.pushMustWait v = true

/-- A `DeleteProducer` that thread `t` is about to make finishes the batch, or
nobody sleeps on the condition variable of its producer. -/
def DeletesUnheard (S : Producers T) (c : QueueConfig T ς) (t : Int ⊕ ς) : Prop :=
  ∀ p, (workers S).call (c.thread t) = some (.deleteProducer p) →
    (c.data.deactivate p).isBatchFinished = true ∨
    ∀ t', c.status t' ≠ .asleep (.dataNotReadyCV (c.data.partitionIdToNumber p))

def getReason : Call T → CondVar → ThreadSafeBatchQueue T → Prop
  | .push v, cv, q => cv = .busyCV ∧ q.pushMustWait v = true
  | .get p v, cv, q =>
    cv = .dataNotReadyCV (q.partitionIdToNumber p) ∧ q.getMustWait p v = true
  | .pop, cv, _ => cv = .emptyCV
  | .deleteProducer _, _, _ => False

/-- The invariant behind `NoLostWakeup`. -/
structure GetInv (S : Producers T) (c : QueueConfig T ς) : Prop where
  pos : 0 < c.data.batchSize
  slots : c.data.totalProducers * c.data.batchSize < 2 ^ 31
  numbers : ∀ p ∈ S.ids, c.data.partitionIdToNumber p < c.data.totalProducers
  producers : ∀ t p next, c.thread t = .producer p next → p ∈ S.ids
  flags : ∀ i, c.data.producerActiveArray i = true → i < c.data.totalProducers
  reason : SleepReason (workers S) getReason c

variable {S : Producers T} {c c' : QueueConfig T ς}

theorem GetInv.start {B : Nat} (hB : 0 < B) (hslots : S.ids.length * B < 2 ^ 31)
    (requests : ς → List (Int × Nat)) : GetInv S (getStart S B requests) where
  pos := hB
  slots := hslots
  numbers := (numbered_create B S.ids S.nodup).lt
  producers := by
    intro t p next ht
    cases t with
    | inl q =>
      by_cases hq : q ∈ S.ids
      · simp only [getStart, startConfig, hq, ↓reduceIte, Worker.producer.injEq] at ht
        rw [← ht.1]
        exact hq
      · simp [getStart, startConfig, hq] at ht
    | inr s => simp [getStart, startConfig] at ht
  flags := fun i hi => by simpa [getStart, startConfig, create] using hi
  reason := SleepReason.start fun _ => rfl

theorem GetInv.noLostWakeup (h : GetInv S c) : NoLostWakeup S c where
  get := by
    intro t cv p v ht hcall
    obtain ⟨i, hi, hW⟩ := h.reason t cv ht
    rw [hcall] at hi
    obtain rfl := Option.some.inj hi
    exact hW.2
  push := by
    intro t cv v ht hcall
    obtain ⟨i, hi, hW⟩ := h.reason t cv ht
    rw [hcall] at hi
    obtain rfl := Option.some.inj hi
    exact hW.2

/-- Every wait is on the condition variable of the call and for its reason. -/
theorem waits_for_reason {s : Status CondVar} {i : Call T} {q : ThreadSafeBatchQueue T}
    {seg : Segment (ThreadSafeBatchQueue T) CondVar (Result T)} {cv : CondVar}
    (hseg : monitor.segment s i q = some seg) (hexit : seg.exit = .wait cv) :
    getReason i cv seg.data := by
  cases i with
  | push v =>
    have hrun : seg = ThreadSafeBatchQueue.push v q := segment_push hseg
    subst hrun
    cases hw : q.pushMustWait v with
    | true =>
      rw [push_wait hw] at hexit ⊢
      exact ⟨(Exit.wait.inj hexit).symm, hw⟩
    | false =>
      unfold ThreadSafeBatchQueue.push at hexit
      dsimp only at hexit
      rw [hw, if_neg Bool.false_ne_true] at hexit
      split at hexit <;> cases hexit
  | pop =>
    have hrun : seg = ThreadSafeBatchQueue.pop q := segment_pop hseg
    subst hrun
    unfold ThreadSafeBatchQueue.pop at hexit
    split at hexit
    · exact (Exit.wait.inj hexit).symm
    · split at hexit
      · cases hexit
      · split at hexit <;> cases hexit
  | get p v =>
    have hloop : seg = getLoop p v q := by
      rcases Monitor.segment_eq_some hseg with e | e
      · rw [e] at hexit ⊢
        show ThreadSafeBatchQueue.get p v q = getLoop p v q
        change (ThreadSafeBatchQueue.get p v q).exit = .wait cv at hexit
        unfold ThreadSafeBatchQueue.get at hexit ⊢
        split at hexit
        · cases hexit
        · rename_i hgo
          rw [if_neg hgo]
      · exact e
    subst hloop
    unfold getLoop at hexit ⊢
    dsimp only at hexit ⊢
    split at hexit
    · rename_i hw
      rw [if_pos hw]
      exact ⟨(Exit.wait.inj hexit).symm, hw⟩
    · split at hexit
      · cases hexit
      · split at hexit <;> cases hexit
  | deleteProducer p =>
    have hrun : seg = deleteProducer p q := segment_deleteProducer hseg
    rw [hrun] at hexit
    cases hexit

/-- The arguments of `Get` that a worker uses are chunk numbers. -/
theorem workers_get {w : Worker T} {p v : Int} (h : (workers S).call w = some (.get p v)) :
    ∃ n : Nat, v = n := by
  unfold workers at h
  dsimp only at h
  split at h
  · split at h <;> cases h
  · cases h
  · cases h
  · cases h
  · cases h
  · rename_i n _ _
    cases h
    exact ⟨n, rfl⟩

omit [QueueItem T] in
theorem deleteProducer_flags (p : Int) (q : ThreadSafeBatchQueue T) (i : Nat) :
    (deleteProducer p q).data.producerActiveArray i =
      if i = q.partitionIdToNumber p then false else q.producerActiveArray i := by
  show (q.deactivate p).resetIfFinished.1.producerActiveArray i = _
  rw [resetIfFinished_producerActiveArray]
  exact Function.update_apply ..

theorem segment_flag_le {s : Status CondVar} {i : Call T} {q : ThreadSafeBatchQueue T}
    {seg : Segment (ThreadSafeBatchQueue T) CondVar (Result T)}
    (h : monitor.segment s i q = some seg) {n : Nat}
    (hn : seg.data.producerActiveArray n = true) : q.producerActiveArray n = true := by
  rcases (segment_effect h).flags with he | ⟨p, rfl⟩
  · rw [← he]
    exact hn
  · rw [segment_deleteProducer h, deleteProducer_flags] at hn
    split at hn
    · cases hn
    · exact hn

omit [QueueItem T] in
/-- What `DeleteProducer` notifies when it does not finish the batch. -/
theorem deleteProducer_signals {p : Int} {q : ThreadSafeBatchQueue T}
    (h : (q.deactivate p).isBatchFinished = false) {s : Signal CondVar}
    (hs : s ∈ (deleteProducer p q).signals) : s.cv = .emptyCV := by
  have hr : (q.deactivate p).resetIfFinished = (q.deactivate p, []) := by
    simp [resetIfFinished, h]
  simp only [deleteProducer, hr, List.nil_append] at hs
  split at hs
  · rw [List.mem_singleton.mp hs]
    rfl
  · cases hs

omit [QueueItem T] in
/-- What `DeleteProducer` notifies when it finishes the batch. -/
theorem deleteProducer_finished {p : Int} {q : ThreadSafeBatchQueue T}
    (h : (q.deactivate p).isBatchFinished = true) {i : Nat} (hi : i < q.totalProducers) :
    Signal.all (.dataNotReadyCV i) ∈ (deleteProducer p q).signals := by
  have hr : (q.deactivate p).resetIfFinished =
      ((q.deactivate p).resetBatch, (q.deactivate p).resetSignals) := by
    simp [resetIfFinished, h]
  simp only [deleteProducer, hr]
  refine List.mem_append_left _ ?_
  simp [resetSignals, ThreadSafeBatchQueue.deactivate, hi]

variable [DecidableEq ς]

omit [DecidableEq ς] in
theorem workers_push {w : Worker T} {v : T} (h : (workers S).call w = some (.push v)) :
    ∃ p next, w = .producer p next ∧ (S.stream p)[next]? = some v := by
  unfold workers at h
  dsimp only at h
  split at h
  · split at h
    · rename_i hv
      cases h
      exact ⟨_, _, rfl, hv⟩
    · cases h
  all_goals cases h

omit [DecidableEq ς] in
/-- What is pushed is a chunk of a producer, and its id is in the range of `int`. -/
theorem GetInv.pushed (h : GetInv S c) (hids : ∀ p ∈ S.ids, (S.stream p).length < 2 ^ 31)
    {t : Int ⊕ ς} {v : T} (hcall : (workers S).call (c.thread t) = some (.push v)) :
    c.data.Fits v := by
  obtain ⟨p, next, ht, hv⟩ := workers_push hcall
  have hp := h.producers t p next ht
  obtain ⟨hpv, hiv⟩ := S.sequential p hp next v hv
  constructor
  · rw [hiv]
    exact Nat.lt_trans (List.getElem?_eq_some_iff.mp hv).1 (hids p hp)
  · rw [hpv]
    exact .of_slots h.pos (h.numbers p hp) h.slots _

omit [DecidableEq ς] in
theorem workers_after {w : Worker T} {r : Result T} {p : Int} {next : Nat}
    (h : (workers S).after w r = .producer p next) : ∃ next, w = .producer p next := by
  unfold workers at h
  dsimp only at h
  split at h
  · split at h
    · cases h
      exact ⟨_, rfl⟩
    · cases h
  all_goals cases h

/-- **A step that meets the condition keeps the invariant.** -/
theorem GetInv.step (h : GetInv S c) (hids : ∀ p ∈ S.ids, (S.stream p).length < 2 ^ 31)
    {t : Int ⊕ ς} (hok : DeletesUnheard S c t) (hs : Step monitor (workers S) c t c') :
    GetInv S c' := by
  have hdata := hs.data_cases
  have hfields : c'.data.batchSize = c.data.batchSize ∧
      c'.data.totalProducers = c.data.totalProducers ∧
      c'.data.partitionIdToNumber = c.data.partitionIdToNumber := by
    rcases hdata with he | ⟨i, seg, _, hseg, he⟩
    · rw [he]
      exact ⟨rfl, rfl, rfl⟩
    · have heff := segment_effect hseg
      rw [he]
      exact ⟨heff.batchSize, heff.total, heff.numbers⟩
  obtain ⟨hbatchSize, htotal, hnumbers⟩ := hfields
  refine ⟨by rw [hbatchSize]; exact h.pos, by rw [htotal, hbatchSize]; exact h.slots,
    by rw [hnumbers, htotal]; exact h.numbers, ?_, fun i hi => ?_, h.reason.step hs ?_ ?_⟩
  · intro t' p next ht'
    rcases hs.thread_cases with he | ⟨r, he⟩
    · rw [he] at ht'
      exact h.producers t' p next ht'
    · rw [he] at ht'
      by_cases e : t' = t
      · rw [e, Function.update_self] at ht'
        obtain ⟨next', ht⟩ := workers_after ht'
        exact h.producers t p next' ht
      · rw [Function.update_of_ne e] at ht'
        exact h.producers t' p next ht'
  · rcases hdata with he | ⟨_, seg, _, hseg, he⟩
    · rw [he] at hi ⊢
      exact h.flags i hi
    · rw [he] at hi ⊢
      rw [(segment_effect hseg).total]
      exact h.flags i (segment_flag_le hseg hi)
  · intro i seg cv _ hseg hexit
    exact waits_for_reason hseg hexit
  · intro i seg hi hseg t' i' cv _ ht' hi' hno hW
    have heff := segment_effect hseg
    cases i' with
    | push v =>
      obtain ⟨rfl, hw⟩ := hW
      exact ⟨rfl, heff.keeps_push v hno hw⟩
    | pop => exact hW
    | get p v =>
      obtain ⟨rfl, hw⟩ := hW
      obtain ⟨n, rfl⟩ := workers_get hi'
      have hflag : c.data.producerActiveArray (c.data.partitionIdToNumber p) = true := by
        unfold getMustWait at hw
        simp only [Bool.and_eq_true] at hw
        exact hw.2
      have hlt := h.flags _ hflag
      have hpush : ∀ w : T, i = .push w → c.data.Fits w := by
        rintro w rfl
        exact h.pushed hids hi
      refine ⟨by rw [heff.numbers], heff.keeps_get h.pos hlt (.of_slots h.pos hlt h.slots n) hpush hno
        hw ?_⟩
      rcases heff.flags with he | ⟨p', rfl⟩
      · rw [he]
        exact hflag
      · rw [segment_deleteProducer hseg] at hno ⊢
        rcases hok p' hi with hfin | hnobody
        · exact absurd (deleteProducer_finished hfin hlt) hno
        · have hne : c.data.partitionIdToNumber p ≠ c.data.partitionIdToNumber p' := by
            intro e
            rw [e] at ht'
            exact hnobody t' ht'
          rw [deleteProducer_flags, if_neg hne]
          exact hflag
    | deleteProducer p => exact hW.elim

/-- **A step that does not meet the condition loses a wake-up.** -/
theorem GetInv.lost (h : GetInv S c) {t : Int ⊕ ς} (hs : Step monitor (workers S) c t c')
    (hbad : ¬ DeletesUnheard S c t) : ¬ NoLostWakeup S c' := by
  intro hgood
  simp only [DeletesUnheard, not_forall, not_or, not_not, Bool.not_eq_true] at hbad
  obtain ⟨p, hp, hfin, t', ht'⟩ := hbad
  -- the sleeper is inside a `Get` of the same producer
  obtain ⟨i', hi', hW⟩ := h.reason t' _ ht'
  obtain ⟨p', v, rfl, hnum⟩ : ∃ p' v, i' = .get p' v ∧
      c.data.partitionIdToNumber p' = c.data.partitionIdToNumber p := by
    cases i' with
    | push v => cases hW.1
    | pop => cases hW
    | get p' v => exact ⟨p', v, rfl, (CondVar.dataNotReadyCV.inj hW.1).symm⟩
    | deleteProducer _ => exact hW.elim
  cases hs with
  | @wait i seg st cv hi hseg hdel hexit =>
    rw [hp] at hi
    obtain rfl := Option.some.inj hi
    rw [segment_deleteProducer hseg] at hexit
    cases hexit
  | @ret i seg st r hi hseg hdel hexit =>
    rw [hp] at hi
    obtain rfl := Option.some.inj hi
    have hrun := segment_deleteProducer hseg
    have hne : t' ≠ t := by
      rintro rfl
      exact Monitor.segment_not_asleep hseg _ ht'
    have hasleep : st t' = .asleep (.dataNotReadyCV (c.data.partitionIdToNumber p)) := by
      refine hdel.stays_asleep ht' fun s hs => ?_
      rw [hrun] at hs
      rw [deleteProducer_signals hfin hs]
      simp
    have hmust := hgood.get t' _ p' v (by simp only [Function.update_of_ne hne]; exact hasleep)
      (by simp only [Function.update_of_ne hne]; exact hi')
    -- but the flag of its producer is cleared now
    have hnumbers := (segment_effect hseg).numbers
    unfold getMustWait at hmust
    simp only [Bool.and_eq_true] at hmust
    have hflag := hmust.2
    rw [hnumbers, hnum, hrun, deleteProducer_flags, if_pos rfl] at hflag
    cases hflag
  | @spurious cv hasleep =>
    obtain ⟨i, hi, hWt⟩ := h.reason t cv hasleep
    rw [hp] at hi
    obtain rfl := Option.some.inj hi
    exact hWt

/-- **Exactly when no wake-up is lost.** In a run, every state is free of lost
sleepers if and only if every `DeleteProducer` finishes the batch or is not
waited for. -/
theorem no_lost_wakeup_iff {B : Nat} (hB : 0 < B) (hnarrow : S.Narrow B) (requests : ς → List (Int × Nat))
    {tr : List (QueueConfig T ς × (Int ⊕ ς))}
    (h : Run monitor (workers S) (getStart S B requests) tr c) :
    ((∀ s ∈ tr, NoLostWakeup S s.1) ∧ NoLostWakeup S c) ↔
      ∀ s ∈ tr, DeletesUnheard S s.1 s.2 := by
  have hinv : ∀ {tr c}, Run monitor (workers S) (getStart S B requests) tr c →
      (∀ s ∈ tr, DeletesUnheard S s.1 s.2) → GetInv S c := fun h hok =>
    h.invariant hok (GetInv.start hB hnarrow.slots requests)
      fun _ _ _ hI hok hs => hI.step hnarrow.ids hok hs
  induction h with
  | start =>
    constructor
    · intro _ s hs
      cases hs
    · intro hok
      exact ⟨fun s hs => (List.not_mem_nil hs).elim, (hinv .start hok).noLostWakeup⟩
  | @step tr c c' t hr hs ih =>
    simp only [List.mem_append, List.mem_singleton, or_imp, forall_and, forall_eq] at ih ⊢
    constructor
    · rintro ⟨⟨htr, hc⟩, hc'⟩
      have hok := ih.mp ⟨htr, hc⟩
      refine ⟨hok, ?_⟩
      by_contra hbad
      exact (hinv hr hok).lost hs hbad hc'
    · rintro ⟨hok, hlast⟩
      obtain ⟨htr, hc⟩ := ih.mpr hok
      exact ⟨⟨htr, hc⟩, ((hinv hr hok).step hnarrow.ids hlast hs).noLostWakeup⟩

/-- Producer 0 fails before its first chunk, producer 1 has one. -/
def failedProducer : Producers (Int × Nat) :=
  .ofLengths [0, 1] nodup_zero_one fun p => if p = 0 then 0 else 1

theorem failedProducer_narrow : failedProducer.Narrow 1 :=
  Producers.ofLengths_narrow (by decide) (by decide) (by decide)

/-- The reader of chunk 0 of partition 0 waits, then producer 0 is deleted
while producer 1 is active. -/
theorem failedProducer_run :
    ∃ tr c, Run monitor (workers failedProducer)
        (getStart failedProducer 1 fun _ : Unit => [(0, 0)]) tr c ∧
      c.status (.inr ()) = .asleep (.dataNotReadyCV 0) ∧
      c.thread (.inr ()) = .getter [(0, 0)] [] ∧ c.data.getMustWait 0 0 = false := by
  have hget := Run.start.step (Step.wait (M := monitor) (P := workers failedProducer)
    (c := getStart failedProducer 1 fun _ : Unit => [(0, 0)]) (t := .inr ())
    rfl rfl (.nil _) (show _ = Exit.wait (CondVar.dataNotReadyCV 0) from rfl))
  exact ⟨_, _, hget.step (Step.ret (t := .inl 0) (r := .unit) rfl rfl (.nil _) rfl), rfl, rfl, rfl⟩

/-- **A lost wake-up**: the reader sleeps although its producer is gone. -/
theorem get_sleeps_after_delete :
    ∃ c, Reachable monitor (workers failedProducer)
        (getStart failedProducer 1 fun _ : Unit => [(0, 0)]) c ∧
      ¬ NoLostWakeup failedProducer c := by
  obtain ⟨tr, c, hrun, hasleep, hth, hgo⟩ := failedProducer_run
  refine ⟨c, ⟨tr, hrun⟩, fun hgood => ?_⟩
  have hmust := hgood.get _ _ 0 0 hasleep (by rw [hth]; rfl)
  rw [hgo] at hmust
  cases hmust

theorem no_lost_wakeup_iff_failedProducer :
    ∃ tr c, Run monitor (workers failedProducer)
        (getStart failedProducer 1 fun _ : Unit => [(0, 0)]) tr c ∧
      ¬ ∀ s ∈ tr, DeletesUnheard failedProducer s.1 s.2 := by
  obtain ⟨tr, c, hrun, hasleep, hth, hgo⟩ := failedProducer_run
  refine ⟨tr, c, hrun, fun hok => ?_⟩
  have hgood := ((no_lost_wakeup_iff (by decide) failedProducer_narrow _ hrun).mpr hok).2
  have hmust := hgood.get _ _ 0 0 hasleep (by rw [hth]; rfl)
  rw [hgo] at hmust
  cases hmust

end SasLibclient
