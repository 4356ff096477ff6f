import SasLibclient.Queue.FreeBatchData

/-!
# Teardown

`FreeBatchData` against the producers that are still running, from any state
that a run of `Pop`s or of `Get`s has reached with no consumer inside a call.
A step of a producer is one of the queue alone (`view_step`), so that
`TeardownInv` carries the invariant of the earlier runs on: every chunk that
was pushed has been delivered or freed, once, or is stored.
-/

namespace SasLibclient

open Monitors QueueItem ThreadSafeBatchQueue

/-- The calls during the teardown. -/
inductive TeardownCall (T : Type) where
  | queue (call : Call T)
  | freeBatchData

/-- The local state of a reader, or of the thread that runs the destructor. -/
inductive TeardownWorker (T : Type) where
  | reader (worker : Worker T)
  | freeing
  | freed

variable {T ς τ : Type} [QueueItem T]

/-- A segment of the queue leaves the chunks passed to the callback alone. -/
def onFreeing (d : Freeing T) (seg : Segment (ThreadSafeBatchQueue T) CondVar (Result T)) :
    Segment (Freeing T) CondVar (Result T) :=
  ⟨⟨seg.data, d.freed⟩, seg.signals, seg.exit⟩

def teardownMonitor : Monitor (Freeing T) CondVar (TeardownCall T) (Result T) where
  enter
    | .queue call, d => onFreeing d (monitor.enter call d.queue)
    | .freeBatchData, d => freeBatchData d
  resume
    | .queue call, d => onFreeing d (monitor.resume call d.queue)
    | .freeBatchData, d => freeBatchDataWoken d

/-- The readers go on as before; the destructor calls `FreeBatchData` once. -/
def teardown (S : Producers T) : Program (TeardownWorker T) (TeardownCall T) (Result T) where
  call
    | .reader worker => ((workers S).call worker).map .queue
    | .freeing => some .freeBatchData
    | .freed => none
  after
    | .reader worker, r => .reader ((workers S).after worker r)
    | .freeing, _ => .freed
    | .freed, _ => .freed

abbrev TeardownConfig (T : Type) :=
  Config (Freeing T) CondVar (TeardownCall T) (Result T) (TeardownWorker T) (Int ⊕ Unit)

/-- The state in which the destructor enters `FreeBatchData`. -/
def teardownStart (c : QueueConfig T ς) : TeardownConfig T where
  data := ⟨c.data, []⟩
  thread
    | .inl p => .reader (c.thread (.inl p))
    | .inr () => .freeing
  status
    | .inl p => c.status (.inl p)
    | .inr () => .ready
  history := []

/-- The calls of the readers. -/
def readerEvents (h : List (Event τ (TeardownCall T) (Result T))) :
    List (Event τ (Call T) (Result T)) :=
  h.filterMap fun e =>
    match e.call with
    | .queue call => some ⟨e.thread, call, e.result⟩
    | .freeBatchData => none

/-- No consumer is active any more after a run of `Pop`s or of `Get`s. -/
structure TeardownPrefix [DecidableEq ς] (S : Producers T) (B : Nat) (c : QueueConfig T ς) :
    Prop where
  pos : 0 < B
  run : Reachable monitor (workers S) (popStart S B ς) c ∨
    ∃ requests, (∀ s, ∀ r ∈ requests s, r.1 ∈ S.ids) ∧
      Reachable monitor (workers S) (getStart S B requests) c
  idle : ∀ s, c.status (.inr s) = .ready

/-! ## The queue of a teardown -/

def TeardownWorker.worker : TeardownWorker T → Worker T
  | .reader worker => worker
  | _ => .drained []

/-- The queue and its producers, with the history `h` before the teardown. -/
def view (h : List (Event (Int ⊕ Unit) (Call T) (Result T))) (d : TeardownConfig T) :
    QueueConfig T Unit where
  data := d.data.queue
  thread := fun t => (d.thread t).worker
  status := d.status
  history := h ++ readerEvents d.history

variable {S : Producers T} {h₀ : List (Event (Int ⊕ Unit) (Call T) (Result T))}
  {d d' : TeardownConfig T}

theorem teardown_segment {s : Status CondVar} {i : Call T} {e : Freeing T}
    {seg : Segment (Freeing T) CondVar (Result T)}
    (h : teardownMonitor.segment s (.queue i) e = some seg) :
    ∃ seg', monitor.segment s i e.queue = some seg' ∧ seg = onFreeing e seg' := by
  cases s with
  | ready => exact ⟨_, rfl, (Option.some.inj h).symm⟩
  | woken => exact ⟨_, rfl, (Option.some.inj h).symm⟩
  | asleep cv => cases h

theorem teardown_call {w : Worker T} {i : TeardownCall T}
    (h : (teardown S).call (.reader w) = some i) :
    ∃ call, (workers S).call w = some call ∧ i = .queue call := by
  obtain ⟨call, hcall, rfl⟩ := Option.map_eq_some_iff.mp h
  exact ⟨call, hcall, rfl⟩

/-- What a step of reader `p` does: a step of the queue, which frees nothing. -/
structure ReaderStep (S : Producers T)
    (h₀ : List (Event (Int ⊕ Unit) (Call T) (Result T))) (p : Int) (d d' : TeardownConfig T) :
    Prop where
  queue : Step monitor (workers S) (view h₀ d) (.inl p) (view h₀ d')
  freed : d'.data.freed = d.data.freed
  reader : ∃ w, d'.thread (.inl p) = .reader w
  others : ∀ t, t ≠ .inl p → d'.thread t = d.thread t
  history : d'.history = d.history ∨
    ∃ call r, d'.history = d.history ++ [⟨.inl p, .queue call, r⟩]

/-- **A step of a reader is a step of the queue.** -/
theorem reader_step {p : Int} {w : Worker T} (hw : d.thread (.inl p) = .reader w)
    (hs : Step teardownMonitor (teardown S) d (.inl p) d') : ReaderStep S h₀ p d d' := by
  have hthread : (view h₀ d).thread (.inl p) = w := by simp [view, hw, TeardownWorker.worker]
  cases hs with
  | @wait i seg st cv hi hseg hdel hexit =>
    rw [hw] at hi
    obtain ⟨call, hcall, rfl⟩ := teardown_call hi
    obtain ⟨seg', hseg', rfl⟩ := teardown_segment hseg
    refine ⟨?_, rfl, ⟨w, hw⟩, fun _ _ => rfl, Or.inl rfl⟩
    exact .wait (by rw [hthread]; exact hcall) hseg' hdel hexit
  | @ret i seg st r hi hseg hdel hexit =>
    rw [hw] at hi
    obtain ⟨call, hcall, rfl⟩ := teardown_call hi
    obtain ⟨seg', hseg', rfl⟩ := teardown_segment hseg
    refine ⟨?_, rfl, ⟨(workers S).after w r, ?_⟩, fun t ht => Function.update_of_ne ht _ _,
      Or.inr ⟨call, r, rfl⟩⟩
    · have hstep := Step.ret (c := view h₀ d) (t := .inl p) (by rw [hthread]; exact hcall) hseg'
        hdel hexit
      rw [hthread] at hstep
      have hview : view h₀ (⟨(onFreeing d.data seg').data,
          Function.update d.thread (.inl p) ((teardown S).after (d.thread (.inl p)) r),
          Function.update st (.inl p) .ready,
          d.history ++ [⟨.inl p, .queue call, r⟩]⟩ : TeardownConfig T) =
          ⟨seg'.data, Function.update (view h₀ d).thread (.inl p) ((workers S).after w r),
            Function.update st (.inl p) .ready,
            (view h₀ d).history ++ [⟨.inl p, call, r⟩]⟩ := by
        simp only [view, onFreeing, Config.mk.injEq, true_and]
        constructor
        · funext t
          by_cases e : t = .inl p
          · rw [e, Function.update_self, Function.update_self, hw]
            rfl
          · rw [Function.update_of_ne e, Function.update_of_ne e]
        · simp [readerEvents]
      rw [hview]
      exact hstep
    · simp [hw, teardown]
  | @spurious cv hasleep =>
    exact ⟨.spurious hasleep, rfl, ⟨w, hw⟩, fun _ _ => rfl, Or.inl rfl⟩

omit [QueueItem T] in
theorem view_history {p : Int} {call : Call T} {r : Result T}
    (h : d'.history = d.history ++ [⟨.inl p, .queue call, r⟩]) :
    (view h₀ d').history = (view h₀ d).history ++ [⟨.inl p, call, r⟩] := by
  simp [view, readerEvents, h]

/-! ## Why a producer sleeps -/

/-- A producer sleeps in `Push`, with its batch still to come. -/
def producerReason : Call T → CondVar → ThreadSafeBatchQueue T → Prop
  | .push v, cv, q => cv = .busyCV ∧ q.pushMustWait v = true
  | .deleteProducer _, _, _ => False
  | _, _, _ => True

theorem producerReason_falls {s : Status CondVar} {i : Call T} {q : ThreadSafeBatchQueue T}
    {seg : Segment (ThreadSafeBatchQueue T) CondVar (Result T)} {cv : CondVar}
    (hseg : monitor.segment s i q = some seg) (hexit : seg.exit = .wait cv) :
    producerReason i cv seg.data := by
  cases i with
  | push v =>
    obtain rfl : seg = ThreadSafeBatchQueue.push v q := segment_push hseg
    obtain ⟨rfl, hw, hd⟩ := push_waits hexit
    rw [hd]
    exact ⟨rfl, hw⟩
  | pop => trivial
  | get p v => trivial
  | deleteProducer p =>
    obtain rfl : seg = deleteProducer p q := segment_deleteProducer hseg
    cases hexit

theorem producerReason_keeps {i i' : Call T} {q : ThreadSafeBatchQueue T}
    {seg : Segment (ThreadSafeBatchQueue T) CondVar (Result T)} {cv : CondVar}
    (heff : Effect i q seg) (hno : Signal.all cv ∉ seg.signals) (hW : producerReason i' cv q) :
    producerReason i' cv seg.data := by
  cases i' with
  | push v =>
    obtain ⟨rfl, hw⟩ := hW
    exact ⟨rfl, heff.keeps_push v hno hw⟩
  | pop => trivial
  | get p v => trivial
  | deleteProducer p => exact hW

/-- In every run of the threads, a producer that sleeps has its reason. -/
theorem producerReason_reachable [DecidableEq ς] {c₀ c : QueueConfig T ς}
    (hready : ∀ t, c₀.status t = .ready) (h : Reachable monitor (workers S) c₀ c) :
    SleepReason (workers S) producerReason c := by
  refine h.invariant (.start hready) fun c t c' hr hs => hr.step hs ?_ ?_
  · intro i seg cv _ hseg hexit
    exact producerReason_falls hseg hexit
  · intro i seg _ hseg t' i' cv _ _ _ hno hW
    exact producerReason_keeps (segment_effect hseg) hno hW

/-! ## The invariant -/

/-- The history before the teardown, whose consumers are gone. -/
def withoutConsumers (h : List (Event (Int ⊕ ς) (Call T) (Result T))) :
    List (Event (Int ⊕ Unit) (Call T) (Result T)) :=
  h.map fun e => ⟨e.thread.map id fun _ => (), e.call, e.result⟩

omit [QueueItem T] in
@[simp] theorem pushed_withoutConsumers (h : List (Event (Int ⊕ ς) (Call T) (Result T))) :
    pushed (withoutConsumers h) = pushed h := by
  simp only [pushed, withoutConsumers, List.filterMap_map]
  rfl

omit [QueueItem T] in
@[simp] theorem delivered_withoutConsumers
    (h : List (Event (Int ⊕ ς) (Call T) (Result T))) :
    delivered (withoutConsumers h) = delivered h := by
  simp only [delivered, popped, gotten, withoutConsumers, List.filterMap_map]
  rfl

/-- The invariant of the teardown, for the chunks `stored` that are pushed and
neither delivered nor freed. -/
structure TeardownInv (S : Producers T)
    (h₀ : List (Event (Int ⊕ Unit) (Call T) (Result T))) (stored : List T)
    (d : TeardownConfig T) : Prop where
  base : QueueInv S stored (view h₀ d)
  length : d.data.queue.queue.length = stored.length
  split : (pushed (view h₀ d).history).Perm (delivered h₀ ++ d.data.freed ++ stored)
  readers : ∀ p, ∃ w, d.thread (.inl p) = .reader w
  main : d.thread (.inr ()) = .freeing ∨
    d.thread (.inr ()) = .freed ∧ stored = [] ∧ d.data.queue.activeProducers = 0
  noAbort : ∀ e ∈ d.history, ∀ what, e.result ≠ .abort what

theorem StoredInv.teardownInv {c : QueueConfig T ς} {stored : List T}
    (h : StoredInv S stored c) :
    TeardownInv S (withoutConsumers c.history) stored (teardownStart c) where
  base := by
    have hpushed : pushed (view (withoutConsumers c.history) (teardownStart c)).history =
        pushed c.history := by simp [view, teardownStart, readerEvents]
    refine ⟨h.base.inv, h.base.slots_lt, h.base.producers, ?_, ?_, ?_, ?_, ?_⟩
    · rw [hpushed]
      exact h.base.pushed_lt
    · rw [hpushed]
      exact h.base.pushed_all
    · rw [hpushed]
      exact h.base.pushed_nodup
    · rw [hpushed]
      exact h.base.stored_pushed
    · intro p hp hno
      obtain ⟨e, he, hcall⟩ := h.base.deletes p hp hno
      refine ⟨⟨e.thread.map id fun _ => (), e.call, e.result⟩, ?_, hcall⟩
      exact List.mem_append_left _ (List.mem_map_of_mem he)
  length := h.length
  split := by
    simp only [view, teardownStart, readerEvents, List.filterMap_nil, List.append_nil,
      pushed_withoutConsumers, delivered_withoutConsumers]
    exact h.split
  readers := fun p => ⟨_, rfl⟩
  main := Or.inl rfl
  noAbort := by simp [teardownStart]

variable {stored : List T}

/-- A push or a deletion returns nothing. -/
theorem ProducerStep.history {c c' : QueueConfig T Unit} {p : Int}
    (h : ProducerStep S c p c') :
    c'.history = c.history ∨ ∃ e, c'.history = c.history ++ [e] ∧ e.result = .unit := by
  cases h with
  | idle _ _ hh => exact Or.inl hh
  | push v _ _ _ _ _ _ _ _ hh _ => exact Or.inr ⟨_, hh, rfl⟩
  | delete _ _ _ _ _ hh => exact Or.inr ⟨_, hh, rfl⟩

/-- A step of a reader keeps what does not depend on the chunks. -/
theorem ReaderStep.noAbort {p : Int} (h : ReaderStep S h₀ p d d')
    (hp : ProducerStep S (view h₀ d) p (view h₀ d'))
    (hno : ∀ e ∈ d.history, ∀ what, e.result ≠ .abort what) :
    ∀ e ∈ d'.history, ∀ what, e.result ≠ .abort what := by
  rcases h.history with hh | ⟨call, r, hh⟩
  · rw [hh]
    exact hno
  · have hunit : r = .unit := by
      have hview : (view h₀ d').history = (view h₀ d).history ++ [⟨.inl p, call, r⟩] :=
        view_history hh
      rcases hp.history with he | ⟨e, he, hr⟩
      · rw [hview] at he
        simp at he
      · rw [hview, List.append_cancel_left_eq, List.singleton_inj] at he
        rw [← he] at hr
        exact hr
    rw [hh, hunit]
    simpa [or_imp, forall_and] using hno

theorem TeardownInv.reader (h : TeardownInv S h₀ stored d)
    (hnext : NextNarrow S (view h₀ d).thread) {p : Int}
    (hs : Step teardownMonitor (teardown S) d (.inl p) d') :
    ∃ stored', TeardownInv S h₀ stored' d' := by
  obtain ⟨w, hw⟩ := h.readers p
  have hr : ReaderStep S h₀ p d d' := reader_step hw hs
  have hp := h.base.producer_step hnext hr.queue
  have hreaders : ∀ p', ∃ w, d'.thread (.inl p') = .reader w := by
    intro p'
    by_cases e : (.inl p' : Int ⊕ Unit) = .inl p
    · rw [e]
      exact hr.reader
    · rw [hr.others _ e]
      exact h.readers p'
  have hmain : d'.thread (.inr ()) = d.thread (.inr ()) := hr.others _ (by simp)
  -- while a producer is active, `FreeBatchData` has not returned
  have hfreeing : d.data.queue.activeProducers ≠ 0 → d'.thread (.inr ()) = .freeing := by
    intro hne
    rw [hmain]
    exact h.main.resolve_right fun hfreed => hne hfreed.2.2
  cases hp with
  | idle hd hth hh =>
    refine ⟨stored, h.base.congr hd (fun p => by rw [hth]) (by rw [hh]) ?_, ?_, ?_, hreaders, ?_,
      hr.noAbort (.idle hd hth hh) h.noAbort⟩
    · intro e he
      rw [hh]
      exact he
    · rw [show d'.data.queue = d.data.queue from hd]
      exact h.length
    · rw [hh, hr.freed]
      exact h.split
    · rw [hmain, show d'.data.queue = d.data.queue from hd]
      exact h.main
  | push v hpm hact ht hv hpv hbatch hd hth hh hsmall =>
    have hq : d'.data.queue.queue = d.data.queue.queue ++ [v] := by
      rw [show d'.data.queue = _ from hd]
      rfl
    refine ⟨stored ++ [v], h.base.push hpm hact ht hv hpv hbatch hd hth hh hsmall, ?_, ?_, hreaders,
      Or.inl (hfreeing (h.base.activeProducers_ne hpm hact)),
      hr.noAbort (.push v hpm hact ht hv hpv hbatch hd hth hh hsmall) h.noAbort⟩
    · rw [hq, List.length_append, List.length_append, h.length]
    · rw [hh, hr.freed, pushed_append, ← List.append_assoc]
      exact h.split.append_right [v]
  | delete hpm hact ht hd hth hh =>
    have hq : d'.data.queue.queue = d.data.queue.queue := by
      rw [show d'.data.queue = _ from hd]
      exact resetIfFinished_queue _
    refine ⟨stored, h.base.delete hpm hact ht hd hth hh, ?_, ?_, hreaders,
      Or.inl (hfreeing (h.base.activeProducers_ne hpm hact)),
      hr.noAbort (.delete hpm hact ht hd hth hh) h.noAbort⟩
    · rw [hq]
      exact h.length
    · rw [hh, hr.freed, pushed_append]
      simpa [pushed] using h.split

/-- `FreeBatchData` runs from the entry or after its wait. -/
theorem freeBatchData_segment {S : Producers T} {d : TeardownConfig T} {s : Status CondVar}
    {seg : Segment (Freeing T) CondVar (Result T)} {sent : Int → Nat}
    (h : BatchInv S.ids d.data.queue stored sent)
    (hslots : d.data.queue.totalProducers * d.data.queue.batchSize < 2 ^ 31)
    (hlen : d.data.queue.queue.length = stored.length)
    (hseg : teardownMonitor.segment s .freeBatchData d.data = some seg) :
    Drained S.ids sent d.data stored [] seg := by
  rcases Monitor.segment_eq_some hseg with rfl | rfl
  · exact freeBatchData_drained h hslots hlen
  · exact freeBatchDataWoken_drained h hslots hlen

/-- After a run of the loop nothing is stored. -/
theorem TeardownInv.drained (h : TeardownInv S h₀ stored d)
    {seg : Segment (Freeing T) CondVar (Result T)}
    (hseg : Drained S.ids (sentBy S (view h₀ d).thread) d.data stored [] seg)
    (hdata : d'.data = seg.data) (hth : ∀ p, d'.thread (.inl p) = d.thread (.inl p))
    (hh : readerEvents d'.history = readerEvents d.history)
    (hmain : d'.thread (.inr ()) = .freeing ∨
      d'.thread (.inr ()) = .freed ∧ seg.data.queue.activeProducers = 0)
    (hno : ∀ e ∈ d'.history, ∀ what, e.result ≠ .abort what) :
    TeardownInv S h₀ [] d' := by
  have hview : (view h₀ d').history = (view h₀ d).history := by simp [view, hh]
  have hqueue : (view h₀ d').data = seg.data.queue := by rw [← hdata]; rfl
  constructor
  · apply h.base.of_stored
    · rw [hqueue]
      exact hseg.inv
    · rw [hqueue, hseg.totalProducers, hseg.batchSize]
      rfl
    · simp
    · intro p
      rw [hqueue]
      exact hseg.active p
    · intro p
      simp [view, hth p]
    · rw [hview]
    · rw [hview]
      exact fun _ he => he
  · rw [hdata, hseg.queue]
  · obtain ⟨gone, hperm, hfreed⟩ := hseg.freed
    rw [hview, hdata, hfreed, List.append_nil, ← List.append_assoc]
    exact h.split.trans (hperm.symm.append_left _)
  · intro p
    rw [hth p]
    exact h.readers p
  · rw [hdata]
    rcases hmain with hrun | ⟨hfreed, hzero⟩
    · exact Or.inl hrun
    · exact Or.inr ⟨hfreed, rfl, hzero⟩
  · exact hno

theorem TeardownInv.freeing (h : TeardownInv S h₀ stored d)
    (hs : Step teardownMonitor (teardown S) d (.inr ()) d') :
    ∃ stored', TeardownInv S h₀ stored' d' := by
  have hcall : ∀ i, (teardown S).call (d.thread (.inr ())) = some i →
      i = .freeBatchData ∧ d.thread (.inr ()) = .freeing := by
    intro i hi
    rcases h.main with hrun | ⟨hfreed, _⟩
    · rw [hrun] at hi
      exact ⟨(Option.some.inj hi).symm, hrun⟩
    · rw [hfreed] at hi
      cases hi
  cases hs with
  | @wait i seg st cv hi hseg hdel hexit =>
    obtain ⟨rfl, hrun⟩ := hcall i hi
    have hdrained := freeBatchData_segment h.base.inv h.base.slots_lt h.length hseg
    exact ⟨[], h.drained hdrained rfl (fun _ => rfl) rfl (Or.inl hrun) h.noAbort⟩
  | @ret i seg st r hi hseg hdel hexit =>
    obtain ⟨rfl, hrun⟩ := hcall i hi
    have hdrained := freeBatchData_segment h.base.inv h.base.slots_lt h.length hseg
    rcases hdrained.exit with ⟨hwait, _⟩ | ⟨hunit, hzero⟩
    · rw [hwait] at hexit
      cases hexit
    · rw [hunit] at hexit
      cases hexit
      refine ⟨[], h.drained hdrained rfl ?_ ?_ (Or.inr ⟨?_, hzero⟩) ?_⟩
      · intro p
        simp only [Function.update_of_ne (Sum.inl_ne_inr : Sum.inl p ≠ Sum.inr ())]
      · simp [readerEvents]
      · simp [hrun, teardown]
      · simpa [or_imp, forall_and] using h.noAbort
  | spurious _ =>
    exact ⟨stored, h.base.congr rfl (fun _ => rfl) rfl fun _ he => he, h.length, h.split,
      h.readers, h.main, h.noAbort⟩

/-- **Every step of the teardown keeps the invariant.** -/
theorem TeardownInv.step (h : TeardownInv S h₀ stored d)
    (hnext : NextNarrow S (view h₀ d).thread) {t : Int ⊕ Unit}
    (hs : Step teardownMonitor (teardown S) d t d') : ∃ stored', TeardownInv S h₀ stored' d' := by
  cases t with
  | inl p => exact h.reader hnext hs
  | inr u => exact h.freeing hs

/-! ## The sleepers -/

/-- Why a thread sleeps during the teardown. -/
def teardownReason : TeardownCall T → CondVar → Freeing T → Prop
  | .queue call, cv, d => producerReason call cv d.queue
  | .freeBatchData, cv, d => cv = .emptyCV ∧ d.queue.activeProducers ≠ 0

/-- The call of a thread of the teardown, and the segment that it runs. -/
theorem TeardownInv.segment (h : TeardownInv S h₀ stored d) {t : Int ⊕ Unit}
    {i : TeardownCall T} {seg : Segment (Freeing T) CondVar (Result T)}
    (hi : (teardown S).call (d.thread t) = some i)
    (hseg : teardownMonitor.segment (d.status t) i d.data = some seg) :
    (∃ p call seg', t = .inl p ∧ i = .queue call ∧
      (workers S).call ((view h₀ d).thread (.inl p)) = some call ∧
      monitor.segment (d.status t) call d.data.queue = some seg' ∧ seg = onFreeing d.data seg') ∨
    t = .inr () ∧ i = .freeBatchData ∧
      Drained S.ids (sentBy S (view h₀ d).thread) d.data stored [] seg := by
  cases t with
  | inl p =>
    left
    obtain ⟨w, hw⟩ := h.readers p
    rw [hw] at hi
    obtain ⟨call, hcall, rfl⟩ := teardown_call hi
    obtain ⟨seg', hseg', rfl⟩ := teardown_segment hseg
    refine ⟨p, call, seg', rfl, rfl, ?_, hseg', rfl⟩
    simpa [view, hw, TeardownWorker.worker] using hcall
  | inr u =>
    right
    rcases h.main with hrun | ⟨hfreed, _⟩
    · rw [hrun] at hi
      obtain rfl := Option.some.inj hi
      exact ⟨rfl, rfl, freeBatchData_segment h.base.inv h.base.slots_lt h.length hseg⟩
    · rw [hfreed] at hi
      cases hi

theorem TeardownInv.reason_step (h : TeardownInv S h₀ stored d) {t : Int ⊕ Unit}
    (hr : SleepReason (teardown S) teardownReason d)
    (hs : Step teardownMonitor (teardown S) d t d') :
    SleepReason (teardown S) teardownReason d' := by
  refine hr.step hs ?_ ?_
  · intro i seg cv hi hseg hexit
    rcases h.segment hi hseg with ⟨p, call, seg', rfl, rfl, _, hseg', rfl⟩ | ⟨rfl, rfl, hdrained⟩
    · exact producerReason_falls hseg' hexit
    · rcases hdrained.exit with ⟨hwait, hne⟩ | ⟨hret, _⟩
      · rw [hwait] at hexit
        exact ⟨(Exit.wait.inj hexit).symm, hne⟩
      · rw [hret] at hexit
        cases hexit
  · intro i seg hi hseg t' i' cv hne ht' hi' hno hW
    rcases h.segment hi hseg with ⟨p, call, seg', rfl, rfl, _, hseg', rfl⟩ | ⟨rfl, rfl, hdrained⟩
    · have heff := segment_effect hseg'
      cases i' with
      | queue call' => exact producerReason_keeps heff hno hW
      | freeBatchData =>
        obtain ⟨rfl, hW⟩ := hW
        refine ⟨rfl, ?_⟩
        rcases heff.producers with he | hpos | hall
        · show seg'.data.activeProducers ≠ 0
          rw [he]
          exact hW
        · exact hpos
        · exact absurd hall hno
    · cases i' with
      | queue call' =>
        cases call' with
        | push v =>
          obtain ⟨rfl, hw⟩ := hW
          refine ⟨rfl, ?_⟩
          unfold pushMustWait at hw ⊢
          rw [hdrained.batchSize, hdrained.batch.resolve_right hno]
          exact hw
        | pop => trivial
        | get p v => trivial
        | deleteProducer p => exact hW
      | freeBatchData =>
        refine ⟨hW.1, ?_⟩
        rw [hdrained.activeProducers]
        exact hW.2

/-- The readers sleep on `m_busyCV`, and `FreeBatchData` on `m_emptyCV`. -/
theorem TeardownInv.sleeper (h : TeardownInv S h₀ stored d)
    (hr : SleepReason (teardown S) teardownReason d) {t : Int ⊕ Unit} {cv : CondVar}
    (ht : d.status t = .asleep cv) :
    (∃ p v, t = .inl p ∧ cv = .busyCV ∧
      (workers S).call ((view h₀ d).thread (.inl p)) = some (.push v) ∧
      d.data.queue.pushMustWait v = true) ∨
    (t = .inr () ∧ cv = .emptyCV ∧ d.data.queue.activeProducers ≠ 0) := by
  obtain ⟨i, hi, hW⟩ := hr t cv ht
  cases t with
  | inl p =>
    left
    obtain ⟨w, hw⟩ := h.readers p
    rw [hw] at hi
    obtain ⟨call, hcall, rfl⟩ := teardown_call hi
    have hview : (workers S).call ((view h₀ d).thread (.inl p)) = some call := by
      simpa [view, hw, TeardownWorker.worker] using hcall
    obtain ⟨_, _, ⟨v, rfl⟩ | rfl⟩ := h.base.producer_call hview
    · exact ⟨p, v, rfl, hW.1, hview, hW.2⟩
    · exact hW.elim
  | inr u =>
    right
    rcases h.main with hrun | ⟨hfreed, _⟩
    · rw [hrun] at hi
      obtain rfl := Option.some.inj hi
      exact ⟨rfl, hW⟩
    · rw [hfreed] at hi
      cases hi

/-- The stored chunks are covered by `FreeBatchData` once it is woken. -/
theorem TeardownInv.handed_step (h : TeardownInv S h₀ stored d) {t : Int ⊕ Unit}
    (hr : SleepReason (teardown S) teardownReason d)
    (hh : Handed {.inr ()} .emptyCV (·.queue.itemsToRead) d)
    (hs : Step teardownMonitor (teardown S) d t d') :
    Handed {.inr ()} .emptyCV (·.queue.itemsToRead) d' := by
  apply hh.step hs
  · intro u hu
    rcases h.sleeper hr hu with ⟨_, _, _, hcv, _⟩ | ⟨rfl, _⟩
    · cases hcv
    · exact Finset.mem_singleton_self _
  · intro i seg hi hseg
    rcases h.segment hi hseg with ⟨p, call, seg', rfl, rfl, hcall, hseg', rfl⟩ |
      ⟨rfl, rfl, hdrained⟩
    · right
      constructor
      · intro hexit
        have hW := producerReason_falls hseg' hexit
        obtain ⟨_, _, ⟨v, rfl⟩ | rfl⟩ := h.base.producer_call hcall
        · cases hW.1
        · exact hW
      · rw [if_neg (by simp), Int.add_zero]
        show seg'.data.itemsToRead ≤ d.data.queue.itemsToRead +
          if Signal.one .emptyCV ∈ seg'.signals then 1 else 0
        rcases (segment_effect hseg').items with hle | ⟨hle, hone⟩
        · split <;> omega
        · rw [if_pos hone]
          exact hle
    · left
      rw [hdrained.inv.items]
      rfl

/-- **The teardown never gets stuck.** -/
theorem TeardownInv.not_stuck (h : TeardownInv S h₀ stored d)
    (hnext : NextNarrow S (view h₀ d).thread)
    (hr : SleepReason (teardown S) teardownReason d)
    (hh : Handed {.inr ()} .emptyCV (·.queue.itemsToRead) d) : ¬ Stuck (teardown S) d := by
  rintro ⟨⟨t, ht⟩, hsleep⟩
  -- an active reader is asleep in `Push`
  have hreader : ∀ p ∈ S.ids, (view h₀ d).data.active p = true → ∃ v,
      (workers S).call ((view h₀ d).thread (.inl p)) = some (.push v) ∧
        (view h₀ d).data.pushMustWait v = true := by
    intro p hp hact
    obtain ⟨w, hw⟩ := h.readers p
    have hun := h.base.unfinished_of_active hp hact
    have hthread : (view h₀ d).thread (.inl p) = w := by
      simp [view, hw, TeardownWorker.worker]
    obtain ⟨cv, hcv⟩ := hsleep (.inl p) (by
      simp only [Unfinished, hthread] at hun
      simpa [Unfinished, hw, teardown] using hun)
    rcases h.sleeper hr hcv with ⟨p', v, hinl, _, hcall, hlater⟩ | ⟨hinr, _⟩
    · obtain rfl := Sum.inl.inj hinl
      exact ⟨v, hcall, hlater⟩
    · cases hinr
  obtain ⟨cv, hcv⟩ := hsleep t ht
  rcases h.main with hrun | ⟨_, rfl, hzero⟩
  · -- `FreeBatchData` sleeps, so nothing is stored
    obtain ⟨cv', hcv'⟩ := hsleep (.inr ()) (by simp [Unfinished, hrun, teardown])
    rcases h.sleeper hr hcv' with ⟨_, _, hinl, _⟩ | ⟨_, rfl, hne⟩
    · cases hinl
    · have hitems : d.data.queue.itemsToRead ≤ 0 := by
        rcases hh with hno | hle
        · exact absurd hcv' (hno _)
        · simpa [Monitors.woken, hcv', Finset.filter_singleton] using hle
      obtain rfl : stored = [] := by
        have hcount := h.base.inv.items
        change d.data.queue.itemsToRead = _ at hcount
        exact List.length_eq_zero_iff.mp (by omega)
      exact h.base.not_all_waiting hnext hne hreader
  · -- no reader is left
    rcases h.sleeper hr hcv with ⟨p, v, rfl, _, hcall, _⟩ | ⟨_, _, hne⟩
    · obtain ⟨hp, hact, _⟩ := h.base.producer_call hcall
      exact h.base.activeProducers_ne hp hact hzero
    · exact hne hzero

/-! ## Every chunk is freed once -/

/-- What holds all through the teardown of the state `c`. -/
structure TearsDown (S : Producers T) (c : QueueConfig T ς) (d : TeardownConfig T) : Prop where
  noAbort : ∀ e ∈ d.history, ∀ what, e.result ≠ .abort what
  distinct : (pushed c.history ++ pushed (readerEvents d.history)).Nodup
  once : (delivered c.history ++ d.data.freed).Nodup
  undelivered : ∀ v ∈ d.data.freed,
    v ∈ pushed c.history ++ pushed (readerEvents d.history) ∧ v ∉ delivered c.history
  kept : ∀ v ∈ pushed c.history ++ pushed (readerEvents d.history),
    v ∉ delivered c.history → v ∉ d.data.freed →
      d.data.queue.dataArray (d.data.queue.targetIndex (partitionId v) (itemId v)) = ⟨some v, true⟩
  notStuck : ¬ Stuck (teardown S) d
  returned : d.thread (.inr ()) = .freed →
    (pushed c.history ++ pushed (readerEvents d.history)).Perm
      (delivered c.history ++ d.data.freed) ∧
    d.data.queue.setSlots = 0 ∧ d.data.queue.itemsToRead = 0 ∧ d.data.queue.queue = [] ∧
    d.data.queue.activeProducers = 0 ∧ ∀ p ∈ S.ids, d.data.queue.active p = false

variable {B : Nat} {c : QueueConfig T ς} [DecidableEq ς]

theorem TeardownPrefix.storedInv (h : TeardownPrefix S B c) (hnarrow : S.Narrow B) :
    (∃ stored, StoredInv S stored c) ∧ SleepReason (workers S) producerReason c := by
  rcases h.run with hpop | ⟨requests, hrequests, hget⟩
  · exact ⟨⟨_, PopInv.storedInv h.pos hnarrow hpop⟩, producerReason_reachable (fun _ => rfl) hpop⟩
  · obtain ⟨stored, hI⟩ := GetRunInv.reachable h.pos hnarrow hrequests hget
    exact ⟨⟨stored, hI.storedInv⟩, producerReason_reachable (fun _ => rfl) hget⟩

theorem TeardownPrefix.reason (h : TeardownPrefix S B c) (hnarrow : S.Narrow B) :
    SleepReason (teardown S) teardownReason (teardownStart c) := by
  intro t cv ht
  cases t with
  | inl p =>
    obtain ⟨i, hi, hW⟩ := (h.storedInv hnarrow).2 (.inl p) cv ht
    exact ⟨.queue i, by simp [teardownStart, teardown, hi], hW⟩
  | inr u => cases ht

/-- Nobody sleeps on `m_emptyCV` when the destructor starts. -/
theorem TeardownPrefix.handed (h : TeardownPrefix S B c) (hnarrow : S.Narrow B) :
    Handed {.inr ()} .emptyCV (·.queue.itemsToRead) (teardownStart c) := by
  obtain ⟨⟨stored, hI⟩, _⟩ := h.storedInv hnarrow
  left
  intro t ht
  rcases hI.teardownInv.sleeper (h.reason hnarrow) ht with ⟨_, _, _, hcv, _⟩ | ⟨rfl, _⟩
  · cases hcv
  · cases ht

theorem teardown_reachable (hnarrow : S.Narrow B) (hstopped : TeardownPrefix S B c)
    (h : Reachable teardownMonitor (teardown S) (teardownStart c) d) :
    (∃ stored, TeardownInv S (withoutConsumers c.history) stored d) ∧
      SleepReason (teardown S) teardownReason d ∧
      Handed {.inr ()} .emptyCV (·.queue.itemsToRead) d := by
  refine h.invariant (I := fun d =>
    (∃ stored, TeardownInv S (withoutConsumers c.history) stored d) ∧
      SleepReason (teardown S) teardownReason d ∧
      Handed {.inr ()} .emptyCV (·.queue.itemsToRead) d) ?_ ?_
  · obtain ⟨⟨stored, hI⟩, _⟩ := hstopped.storedInv hnarrow
    exact ⟨⟨stored, hI.teardownInv⟩, hstopped.reason hnarrow, hstopped.handed hnarrow⟩
  · rintro d t d' ⟨⟨stored, hI⟩, hr, hh⟩ hs
    exact ⟨hI.step (hnarrow.next _) hs, hI.reason_step hr hs, hI.handed_step hr hh hs⟩

/-- **The teardown frees every undelivered chunk exactly once.** From every
state that a run of `Pop`s or of `Get`s has reached, in every interleaving of
`FreeBatchData` with the remaining producers. -/
theorem teardown_frees (hnarrow : S.Narrow B) (hstopped : TeardownPrefix S B c)
    (h : Reachable teardownMonitor (teardown S) (teardownStart c) d) : TearsDown S c d := by
  obtain ⟨⟨stored, hI⟩, hr, hh⟩ := teardown_reachable hnarrow hstopped h
  have hpushed : pushed (view (withoutConsumers c.history) d).history =
      pushed c.history ++ pushed (readerEvents d.history) := by simp [view]
  have hsplit := hI.split
  have hnodup := hI.base.pushed_nodup
  rw [hpushed, delivered_withoutConsumers] at hsplit
  rw [hpushed] at hnodup
  have hparts := (List.nodup_append.mp (hsplit.nodup_iff.mp hnodup)).1
  constructor
  · exact hI.noAbort
  · exact hnodup
  · exact hparts
  · intro v hv
    constructor
    · exact hsplit.mem_iff.mpr (List.mem_append_left _ (List.mem_append_right _ hv))
    · exact fun hd => (List.nodup_append.mp hparts).2.2 v hd v hv rfl
  · intro v hv hdelivered hfreed
    have hmem := hsplit.mem_iff.mp hv
    simp only [List.mem_append, hdelivered, hfreed, false_or] at hmem
    exact (hI.base.inv.stored_spec v hmem).2.2.2
  · exact hI.not_stuck (hnarrow.next _) hr hh
  · intro hfreed
    rcases hI.main with hrun | ⟨_, rfl, hzero⟩
    · rw [hfreed] at hrun
      cases hrun
    · rw [List.append_nil] at hsplit
      exact ⟨hsplit, hI.base.inv.setSlots_eq hI.base.slots_lt, hI.base.inv.items,
        List.length_eq_zero_iff.mp hI.length, hzero, hI.base.inv.activeProducers_eq_zero.mp hzero⟩

/-! ## Two producers -/

/-- The state of two producers after a schedule, and that of its teardown after
another one. -/
def teardownTwo (popping : List (Int ⊕ Bool)) (closing : List (Int ⊕ Unit)) :
    Option (QueueConfig (Int × Nat) Bool × TeardownConfig (Int × Nat)) :=
  (popTwo popping).bind fun c =>
    (Config.schedule teardownMonitor (teardown twoProducers) [.inl 0, .inl 1, .inr ()] closing
      (teardownStart c)).map fun d => (c, d)

theorem run_teardownTwo {popping : List (Int ⊕ Bool)} {closing : List (Int ⊕ Unit)}
    (hpopping : ∀ t ∈ popping, t ∈ [.inl 0, .inl 1, .inr false, .inr true])
    (hclosing : ∀ t ∈ closing, t ∈ [.inl 0, .inl 1, .inr ()])
    {c : QueueConfig (Int × Nat) Bool} {d : TeardownConfig (Int × Nat)}
    (h : teardownTwo popping closing = some (c, d)) (hidle : ∀ s, c.status (.inr s) = .ready) :
    TeardownPrefix twoProducers 1 c ∧
      ∃ tr, Run teardownMonitor (teardown twoProducers) (teardownStart c) tr d := by
  obtain ⟨c', hc, hmap⟩ := Option.bind_eq_some_iff.mp h
  obtain ⟨d', hd, hpair⟩ := Option.map_eq_some_iff.mp hmap
  obtain ⟨rfl, rfl⟩ := Prod.mk.inj hpair
  obtain ⟨tr₁, hrun₁, _, hsleep⟩ := Run.of_schedule hpopping nofun hc
  have hstart : SleepersIn [.inl 0, .inl 1, .inr ()] (teardownStart c').status := by
    rintro (p | u) cv ht
    · have hp := hsleep (.inl p) cv ht
      simpa using hp
    · cases ht
  obtain ⟨tr₂, hrun₂, _⟩ := Run.of_schedule hclosing hstart hd
  exact ⟨⟨by decide, Or.inl ⟨tr₁, hrun₁⟩, hidle⟩, tr₂, hrun₂⟩

/-- The producer 0 sleeps in `Push` when the destructor starts, and
`FreeBatchData` sleeps twice before both producers have returned. -/
theorem teardownTwo_finished :
    ∃ c tr d, TeardownPrefix (ς := Bool) twoProducers 1 c ∧ c.status (.inl 0) = .asleep .busyCV ∧
      Run teardownMonitor (teardown twoProducers) (teardownStart c) tr d ∧
      d.data.freed = [(1, 0), (0, 1), (1, 1)] ∧ d.thread (.inr ()) = .freed ∧
      Finished (teardown twoProducers) d := by
  let facts : QueueConfig (Int × Nat) Bool × TeardownConfig (Int × Nat) → _ := fun x =>
    ([x.1.status (.inl 0), x.1.status (.inr false), x.1.status (.inr true)], x.2.data.freed,
      [Sum.inl 0, .inl 1, .inr ()].map fun t => ((teardown twoProducers).call (x.2.thread t)).isNone)
  have hschedule : (teardownTwo [.inl 0, .inl 1, .inr false, .inl 0]
      [.inr (), .inl 1, .inl 0, .inr (), .inl 1, .inl 0, .inr ()]).map facts =
      some ([.asleep .busyCV, .ready, .ready], [(1, 0), (0, 1), (1, 1)], [true, true, true]) := by
    decide +kernel
  obtain ⟨⟨c, d⟩, hcd, hfacts⟩ := Option.map_eq_some_iff.mp hschedule
  simp only [facts, Prod.mk.injEq, List.cons.injEq, List.map_cons, List.map_nil, and_true,
    Option.isNone_iff_eq_none] at hfacts
  obtain ⟨⟨hasleep, hfalse, htrue⟩, hfreed, hzero, hone, hmain⟩ := hfacts
  obtain ⟨hstopped, tr, hrun⟩ := run_teardownTwo (by simp) (by simp) hcd (by simp [hfalse, htrue])
  obtain ⟨⟨stored, hI⟩, -⟩ := teardown_reachable (twoProducers_narrow (by decide)) hstopped ⟨tr, hrun⟩
  have hreturned : d.thread (.inr ()) = .freed := by
    rcases hI.main with hfreeing | ⟨h, _⟩
    · rw [hfreeing] at hmain
      cases hmain
    · exact h
  refine ⟨c, tr, d, hstopped, hasleep, hrun, hfreed, hreturned, ?_⟩
  rintro (p | u)
  · by_cases hp : p ∈ twoProducers.ids
    · rcases List.mem_cons.mp hp with rfl | hp
      · exact hzero
      · obtain rfl := List.mem_singleton.mp hp
        exact hone
    · obtain ⟨w, hw⟩ := hI.readers p
      rcases hI.base.producers p with ⟨hth, _⟩ | ⟨hmem, _⟩
      · have hdeleted : w = .deleted p := by simpa [view, hw, TeardownWorker.worker] using hth
        rw [hw, hdeleted]
        rfl
      · exact absurd hmem hp
  · exact hmain

theorem teardown_frees_two :
    ∃ c d, TeardownPrefix (ς := Bool) twoProducers 1 c ∧ c.status (.inl 0) = .asleep .busyCV ∧
      d.thread (.inr ()) = .freed ∧ d.data.freed = [(1, 0), (0, 1), (1, 1)] ∧
      TearsDown twoProducers c d := by
  obtain ⟨c, tr, d, hstopped, hasleep, hrun, hfreed, hreturned, -⟩ := teardownTwo_finished
  exact ⟨c, d, hstopped, hasleep, hreturned, hfreed,
    teardown_frees (twoProducers_narrow (by decide)) hstopped ⟨tr, hrun⟩⟩

end SasLibclient
