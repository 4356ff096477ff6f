import Mathlib.Data.Fintype.Basic
import SasLibclient.Queue.Workers
import SasLibclient.Monitor.Progress
import SasLibclient.Queue.Notifications

/-!
# The batch queue in `Pop` mode

Producers and any number of threads that loop on `Pop`. `PopInv` is the
invariant of every interleaving: `m_queue` lists exactly the stored chunks, in
the order in which they were pushed. `PopInv.step` says once what a step can
do; `pop_exactly_once` and `pop_not_stuck` are read off it.
-/

namespace SasLibclient

open Monitors QueueItem ThreadSafeBatchQueue

variable {T ς : Type} [QueueItem T] [DecidableEq ς]

def popStart (S : Producers T) (B : Nat) (ς : Type) : QueueConfig T ς :=
  startConfig S B fun _ => .popper []

def Worker.received : Worker T → List T
  | .popper received => received
  | .drained received => received
  | .getter _ received => received
  | _ => []

/-- What a step does in `Pop` mode. -/
inductive PopStep (S : Producers T) (c : QueueConfig T ς) : Int ⊕ ς → QueueConfig T ς → Prop
  | producer {p : Int} {c' : QueueConfig T ς} : ProducerStep S c p c' → PopStep S c (.inl p) c'
  | idle {s : ς} {c' : QueueConfig T ς} : c'.data = c.data → c'.thread = c.thread →
      c'.history = c.history → PopStep S c (.inr s) c'
  | pop {s : ς} {c' : QueueConfig T ς} (received : List T) (v : T) (rest : List T) :
      c.thread (.inr s) = .popper received → c.data.queue = v :: rest →
      c'.data = (afterRead v rest c.data).resetIfFinished.1 →
      c'.thread = Function.update c.thread (.inr s) (.popper (received ++ [v])) →
      c'.history = c.history ++ [⟨.inr s, .pop, .value v⟩] → PopStep S c (.inr s) c'
  | drain {s : ς} {c' : QueueConfig T ς} (received : List T) :
      c.thread (.inr s) = .popper received → c.data.queue = [] → c.data.activeProducers = 0 →
      c'.data = c.data →
      c'.thread = Function.update c.thread (.inr s) (.drained received) →
      c'.history = c.history ++ [⟨.inr s, .pop, .outOfRange "Queue is empty"⟩] →
      PopStep S c (.inr s) c'

/-- When a `Pop` throws, every chunk of the whole history has been popped
before and every producer has been deleted before. -/
def ThrowsLast (S : Producers T) (h : List (Event (Int ⊕ ς) (Call T) (Result T)))
    (q : ThreadSafeBatchQueue T) : Prop :=
  ∀ h₁ e h₂, h = h₁ ++ e :: h₂ → e.call = .pop → (∃ what, e.result = .outOfRange what) →
    popped h₁ = pushed h ∧ (∀ p ∈ S.ids, ∃ e' ∈ h₁, e'.call = .deleteProducer p) ∧
      q.activeProducers = 0

/-- The invariant of every interleaving in `Pop` mode. -/
structure PopInv (S : Producers T) (c : QueueConfig T ς) : Prop where
  base : QueueInv S c.data.queue c
  consumers : ∀ s, (∃ received, c.thread (.inr s) = .popper received) ∨
    (∃ received, c.thread (.inr s) = .drained received) ∧ c.data.queue = [] ∧
      c.data.activeProducers = 0
  order : pushed c.history = popped c.history ++ c.data.queue
  noAbort : ∀ e ∈ c.history, ∀ what, e.result ≠ .abort what
  throws : ThrowsLast S c.history c.data

variable {S : Producers T} {c c' : QueueConfig T ς}

omit [DecidableEq ς] in
theorem PopInv.start (B : Nat) (hB : 0 < B) (hslots : S.ids.length * B < 2 ^ 31) :
    PopInv S (popStart S B ς) where
  base := QueueInv.start B hB hslots _
  consumers := fun _ => Or.inl ⟨[], rfl⟩
  order := rfl
  noAbort := by simp [popStart, startConfig]
  throws := by simp [ThrowsLast, popStart, startConfig]

/-- What a step of a consumer can do: wait for a chunk, pop one, or end. -/
theorem PopInv.consumer_cases (h : PopInv S c) {s : ς}
    (hs : Step monitor (workers S) c (.inr s) c') : PopStep S c (.inr s) c' := by
  have hcore := h.base.inv.toBatchCore
  -- the only call of a consumer is `Pop`, by a thread still in its loop
  have hcall : ∀ i, (workers S).call (c.thread (.inr s)) = some i →
      i = .pop ∧ ∃ received, c.thread (.inr s) = .popper received := by
    intro i hi
    rcases h.consumers s with ⟨rs, ht⟩ | ⟨⟨rs, ht⟩, _⟩
    · rw [ht] at hi
      exact ⟨(Option.some.inj hi).symm, rs, ht⟩
    · rw [ht] at hi
      cases hi
  cases hs with
  | @wait i seg st cv hi hseg hdel hexit =>
    obtain ⟨rfl, rs, ht⟩ := hcall i hi
    have hrun : seg = ThreadSafeBatchQueue.pop c.data := segment_pop hseg
    rcases hcore.pop_cases with ⟨_, _, hp⟩ | ⟨_, _, hp⟩ | ⟨v, rest, _, hp⟩
    · rw [hrun, hp]
      exact .idle rfl rfl rfl
    · rw [hrun, hp] at hexit
      cases hexit
    · rw [hrun, hp] at hexit
      cases hexit
  | @ret i seg st r hi hseg hdel hexit =>
    obtain ⟨rfl, rs, ht⟩ := hcall i hi
    have hrun : seg = ThreadSafeBatchQueue.pop c.data := segment_pop hseg
    rcases hcore.pop_cases with ⟨_, _, hp⟩ | ⟨hq, ha, hp⟩ | ⟨v, rest, hq, hp⟩
    · rw [hrun, hp] at hexit
      cases hexit
    · rw [hrun, hp] at hexit
      cases hexit
      refine .drain rs ht hq ha (by rw [hrun, hp]) ?_ rfl
      simp [ht, workers]
    · rw [hrun, hp] at hexit
      cases hexit
      refine .pop rs v rest ht hq (by rw [hrun, hp]) ?_ rfl
      simp [ht, workers]
  | spurious _ => exact .idle rfl rfl rfl

/-- **What a step can do in `Pop` mode.** -/
theorem PopInv.step_cases (h : PopInv S c) (hnext : NextNarrow S c.thread) {t : Int ⊕ ς}
    (hs : Step monitor (workers S) c t c') : PopStep S c t c' := by
  match t, hs with
  | .inl p, hs => exact .producer (h.base.producer_step hnext hs)
  | .inr s, hs => exact h.consumer_cases hs

omit [DecidableEq ς] in
/-- The `throws` clause for a history that grows by an event that is not a
throw of `Pop`. -/
theorem ThrowsLast.append {h : List (Event (Int ⊕ ς) (Call T) (Result T))}
    {q q' : ThreadSafeBatchQueue T} (ht : ThrowsLast S h q)
    {e₀ : Event (Int ⊕ ς) (Call T) (Result T)}
    (hpush : pushed [e₀] = [] ∨ q.activeProducers ≠ 0)
    (hactive : q.activeProducers = 0 → q'.activeProducers = 0)
    (hnot : ∀ what, e₀.call = .pop → e₀.result ≠ .outOfRange what) :
    ThrowsLast S (h ++ [e₀]) q' := by
  rintro h₁ e h₂ hsplit hc ⟨what, hr⟩
  rcases split_concat hsplit with ⟨rfl, _⟩ | ⟨h₂', hl⟩
  · exact absurd hr (hnot what hc)
  · obtain ⟨hpop, hdel, hno⟩ := ht h₁ e h₂' hl hc ⟨what, hr⟩
    rcases hpush with hp | ha
    · exact ⟨by rw [pushed_append, hp, List.append_nil]; exact hpop, hdel, hactive hno⟩
    · exact absurd hno ha

omit [DecidableEq ς] in
/-- The `throws` clause for a history that grows by a throw of `Pop`. -/
theorem ThrowsLast.append_throw {h : List (Event (Int ⊕ ς) (Call T) (Result T))}
    {q : ThreadSafeBatchQueue T} (ht : ThrowsLast S h q)
    {e₀ : Event (Int ⊕ ς) (Call T) (Result T)} (hall : pushed h = popped h)
    (hdel : ∀ p ∈ S.ids, ∃ e' ∈ h, e'.call = Call.deleteProducer p)
    (hactive : q.activeProducers = 0) (hpush : pushed [e₀] = []) :
    ThrowsLast S (h ++ [e₀]) q := by
  rintro h₁ e h₂ hsplit hc hr
  rw [pushed_append, hpush, List.append_nil]
  rcases split_concat hsplit with ⟨rfl, rfl⟩ | ⟨h₂', hl⟩
  · exact ⟨hall.symm, hdel, hactive⟩
  · exact ht h₁ e h₂' hl hc hr

omit [DecidableEq ς] in
/-- A producer in its loop keeps `m_activeProducers` from being zero. -/
theorem QueueInv.activeProducers_ne {stored : List T} (h : QueueInv S stored c) {p : Int}
    (hp : p ∈ S.ids) (hact : c.data.active p = true) : c.data.activeProducers ≠ 0 := by
  intro h0
  have := h.inv.activeProducers_eq_zero.mp h0 p hp
  rw [hact] at this
  cases this

omit [DecidableEq ς] in
/-- While a producer is in its loop no consumer has drained the queue. -/
theorem PopInv.popping (h : PopInv S c) (hne : c.data.activeProducers ≠ 0) (s : ς) :
    ∃ received, c.thread (.inr s) = .popper received :=
  (h.consumers s).resolve_right fun hdrained => hne hdrained.2.2

theorem PopInv.consumers_update (h : PopInv S c) (w : Worker T) (s₀ : ς)
    (hth : c'.thread = Function.update c.thread (.inr s₀) w)
    (hw : (∃ received, w = .popper received) ∨
      (∃ received, w = .drained received) ∧ c'.data.queue = [] ∧ c'.data.activeProducers = 0)
    (hdrained : c.data.queue = [] ∧ c.data.activeProducers = 0 →
      c'.data.queue = [] ∧ c'.data.activeProducers = 0) (s : ς) :
    (∃ received, c'.thread (.inr s) = .popper received) ∨
      (∃ received, c'.thread (.inr s) = .drained received) ∧ c'.data.queue = [] ∧
        c'.data.activeProducers = 0 := by
  rw [hth]
  by_cases e : s = s₀
  · subst e
    rw [Function.update_self]
    exact hw
  · rw [Function.update_of_ne (by simpa using e)]
    rcases h.consumers s with hs | ⟨hs, hq⟩
    · exact Or.inl hs
    · exact Or.inr ⟨hs, hdrained hq⟩

omit [DecidableEq ς] in
theorem PopInv.congr (h : PopInv S c) (hd : c'.data = c.data) (ht : c'.thread = c.thread)
    (hh : c'.history = c.history) : PopInv S c' where
  base := by
    rw [hd]
    refine h.base.congr hd (fun p => by rw [ht]) (by rw [hh]) ?_
    rw [hh]
    exact fun _ he => he
  consumers := by
    rw [ht, hd]
    exact h.consumers
  order := by
    rw [hh, hd]
    exact h.order
  noAbort := by
    rw [hh]
    exact h.noAbort
  throws := by
    rw [hh, hd]
    exact h.throws

/-- A call of a producer that is still active keeps what concerns the consumers. -/
theorem PopInv.produced (h : PopInv S c) (hne : c.data.activeProducers ≠ 0)
    (hbase : QueueInv S c'.data.queue c') {p : Int} {w : Worker T}
    (hth : c'.thread = Function.update c.thread (.inl p) w)
    {e : Event (Int ⊕ ς) (Call T) (Result T)} (hh : c'.history = c.history ++ [e])
    (hpopped : popped [e] = []) (hq : c'.data.queue = c.data.queue ++ pushed [e])
    (hresult : e.result = .unit) : PopInv S c' where
  base := hbase
  consumers := by
    intro s
    rw [hth, Function.update_of_ne (by simp)]
    exact Or.inl (h.popping hne s)
  order := by
    rw [hh, hq, pushed_append, popped_append, h.order, hpopped, List.append_nil, List.append_assoc]
  noAbort := by
    intro e' he' what
    rw [hh] at he'
    rcases List.mem_append.mp he' with hold | hnew
    · exact h.noAbort e' hold what
    · rw [List.mem_singleton.mp hnew, hresult]
      nofun
  throws := by
    rw [hh]
    exact h.throws.append (Or.inr hne) (fun h0 => absurd h0 hne) (by simp [hresult])

theorem PopInv.of_popStep (h : PopInv S c) {t : Int ⊕ ς} (hs : PopStep S c t c') : PopInv S c' := by
  cases hs with
  | producer hp =>
    cases hp with
    | idle hd ht hh =>
      exact h.congr hd ht hh
    | push v hpm hact ht hv hpv hbatch hd hth hh hsmall =>
      have hq : c'.data.queue = c.data.queue ++ [v] := by rw [hd]; rfl
      refine h.produced (h.base.activeProducers_ne hpm hact) ?_ hth hh rfl hq rfl
      rw [hq]
      exact h.base.push hpm hact ht hv hpv hbatch hd hth hh hsmall
    | delete hpm hact ht hd hth hh =>
      have hq : c'.data.queue = c.data.queue := by
        rw [hd]
        exact resetIfFinished_queue _
      refine h.produced (h.base.activeProducers_ne hpm hact) ?_ hth hh rfl ?_ rfl
      · rw [hq]
        exact h.base.delete hpm hact ht hd hth hh
      · rw [hq]
        exact (List.append_nil _).symm
  | idle hd ht hh =>
    exact h.congr hd ht hh
  | @pop s _ received v rest ht hq hd hth hh =>
    have hq' : c'.data.queue = rest := by
      rw [hd]
      exact resetIfFinished_queue _
    have ha' : c'.data.activeProducers = c.data.activeProducers := by
      rw [hd]
      exact resetIfFinished_activeProducers _
    have hbase : QueueInv S ([] ++ v :: rest) c := by
      rw [List.nil_append, ← hq]
      exact h.base
    refine ⟨?_, ?_, ?_, ?_, ?_⟩
    · rw [hq']
      exact hbase.read rest hd (fun p => by rw [hth, Function.update_of_ne (by simp)]) _ rfl hh
    · refine h.consumers_update _ s hth (Or.inl ⟨_, rfl⟩) fun hdrained => ?_
      have hnil := hdrained.1
      rw [hq] at hnil
      cases hnil
    · rw [hh, hq', pushed_append, popped_append, h.order, hq]
      simp [pushed, popped]
    · rw [hh]
      simpa [or_imp, forall_and] using h.noAbort
    · rw [hh]
      exact h.throws.append (Or.inl rfl) (fun h0 => by rw [ha', h0]) (by simp)
  | @drain s _ received ht hq ha hd hth hh =>
    refine ⟨?_, ?_, ?_, ?_, ?_⟩
    · rw [hd]
      refine h.base.congr hd (fun p => by rw [hth, Function.update_of_ne (by simp)]) ?_ ?_
      · rw [hh, pushed_append]
        simp [pushed]
      · rw [hh]
        exact fun _ he => List.mem_append_left _ he
    · refine h.consumers_update _ s hth (Or.inr ⟨⟨_, rfl⟩, by rw [hd]; exact hq,
        by rw [hd]; exact ha⟩) fun h0 => by rw [hd]; exact h0
    · rw [hh, hd, pushed_append, popped_append, h.order]
      simp [pushed, popped]
    · rw [hh]
      simpa [or_imp, forall_and] using h.noAbort
    · rw [hh, hd]
      exact h.throws.append_throw (by rw [h.order, hq, List.append_nil])
        (fun p hp => h.base.deletes p hp (h.base.inv.activeProducers_eq_zero.mp ha p hp)) ha rfl

theorem PopInv.step (h : PopInv S c) (hnext : NextNarrow S c.thread) {t : Int ⊕ ς}
    (hs : Step monitor (workers S) c t c') : PopInv S c' :=
  h.of_popStep (h.step_cases hnext hs)

theorem PopInv.reachable {B : Nat} (hB : 0 < B) (hnarrow : S.Narrow B)
    (h : Reachable monitor (workers S) (popStart S B ς) c) : PopInv S c :=
  h.invariant (PopInv.start B hB hnarrow.slots) fun _ _ _ hI hs => hI.step (hnarrow.next _) hs

/-- **Exactly-once delivery.** The chunks are popped in the order in which they
were pushed, each at most once; the ones not popped are still stored; no
assertion fails; and a `Pop` that throws comes after the last chunk was popped
and after every producer was deleted. -/
theorem pop_exactly_once {B : Nat} (hB : 0 < B) (hnarrow : S.Narrow B)
    (h : Reachable monitor (workers S) (popStart S B ς) c) :
    pushed c.history = popped c.history ++ c.data.queue ∧
    (pushed c.history).Nodup ∧
    (∀ v ∈ c.data.queue,
      c.data.dataArray (c.data.targetIndex (partitionId v) (itemId v)) = ⟨some v, true⟩) ∧
    (∀ e ∈ c.history, ∀ what, e.result ≠ .abort what) ∧
    (∀ h₁ e h₂, c.history = h₁ ++ e :: h₂ → e.call = .pop →
      (∃ what, e.result = .outOfRange what) →
      popped h₁ = pushed c.history ∧ ∀ p ∈ S.ids, ∃ e' ∈ h₁, e'.call = .deleteProducer p) := by
  have hI := PopInv.reachable hB hnarrow h
  refine ⟨hI.order, hI.base.pushed_nodup, fun v hv => ?_, hI.noAbort, ?_⟩
  · exact (hI.base.inv.stored_spec v hv).2.2.2
  · intro h₁ e h₂ hsplit hc hr
    obtain ⟨hpop, hdel, _⟩ := hI.throws h₁ e h₂ hsplit hc hr
    exact ⟨hpop, hdel⟩

/-- The state of two producers and the consumers `false` and `true` after a
schedule, with batches of one chunk. -/
def popTwo (schedule : List (Int ⊕ Bool)) : Option (QueueConfig (Int × Nat) Bool) :=
  Config.schedule monitor (workers twoProducers) [.inl 0, .inl 1, .inr false, .inr true] schedule
    (popStart twoProducers 1 Bool)

theorem reachable_popTwo {schedule : List (Int ⊕ Bool)}
    (hthreads : ∀ t ∈ schedule, t ∈ [.inl 0, .inl 1, .inr false, .inr true])
    {c : QueueConfig (Int × Nat) Bool} (h : popTwo schedule = some c) :
    Reachable monitor (workers twoProducers) (popStart twoProducers 1 Bool) c := by
  obtain ⟨tr, hrun, _⟩ := Run.of_schedule hthreads nofun h
  exact ⟨tr, hrun⟩

/-- Both consumers fall asleep before the first push, and the producer 0 before
its second one, which waits for the next batch. -/
theorem pop_exactly_once_two :
    ∃ c, Reachable monitor (workers twoProducers) (popStart twoProducers 1 Bool) c ∧
      popped c.history = [(0, 0), (1, 0), (0, 1)] ∧ c.data.queue = [(1, 1)] ∧
      pushed c.history = popped c.history ++ c.data.queue := by
  let facts : QueueConfig (Int × Nat) Bool → _ := fun c => (popped c.history, c.data.queue)
  have hschedule : (popTwo [.inr false, .inr true, .inl 0, .inl 0, .inl 1, .inr true, .inr false,
      .inl 0, .inr true, .inl 0, .inl 1]).map facts = some ([(0, 0), (1, 0), (0, 1)], [(1, 1)]) := by
    decide +kernel
  obtain ⟨c, hc, hfacts⟩ := Option.map_eq_some_iff.mp hschedule
  obtain ⟨hpopped, hqueue⟩ : popped c.history = _ ∧ c.data.queue = _ := by
    simpa only [facts, Prod.mk.injEq] using hfacts
  have hreach := reachable_popTwo (by simp) hc
  exact ⟨c, hreach, hpopped, hqueue,
    (pop_exactly_once (by decide) (twoProducers_narrow (by decide)) hreach).1⟩

/-! ## No deadlock -/

/-- Why a thread sleeps in `Pop` mode. -/
def popReason : Call T → CondVar → ThreadSafeBatchQueue T → Prop
  | .push v, .busyCV, q => q.pushMustWait v = true
  | .pop, .emptyCV, q => q.activeProducers ≠ 0
  | _, _, _ => False

omit [DecidableEq ς] in
/-- The segments that run in `Pop` mode. -/
theorem PopInv.segment (h : PopInv S c) {t : Int ⊕ ς} {i : Call T}
    {seg : Segment (ThreadSafeBatchQueue T) CondVar (Result T)}
    (hi : (workers S).call (c.thread t) = some i)
    (hseg : monitor.segment (c.status t) i c.data = some seg) :
    (∃ p v, t = .inl p ∧ i = .push v ∧ seg = ThreadSafeBatchQueue.push v c.data) ∨
    (∃ p, t = .inl p ∧ i = .deleteProducer p ∧ seg = deleteProducer p c.data) ∨
    (∃ s, t = .inr s ∧ i = .pop ∧ seg = ThreadSafeBatchQueue.pop c.data) := by
  match t, hi, hseg with
  | .inl p, hi, hseg =>
    rcases h.base.producers p with ⟨ht, _⟩ | ⟨_, _, next, _, ht⟩
    · rw [ht] at hi
      cases hi
    · rw [ht] at hi
      simp only [workers] at hi
      split at hi
      · rename_i v hv
        obtain rfl := Option.some.inj hi
        exact Or.inl ⟨p, v, rfl, rfl, segment_push hseg⟩
      · obtain rfl := Option.some.inj hi
        exact Or.inr (Or.inl ⟨p, rfl, rfl, segment_deleteProducer hseg⟩)
  | .inr s, hi, hseg =>
    rcases h.consumers s with ⟨rs, ht⟩ | ⟨⟨rs, ht⟩, _⟩
    · rw [ht] at hi
      obtain rfl := Option.some.inj hi
      exact Or.inr (Or.inr ⟨s, rfl, rfl, segment_pop hseg⟩)
    · rw [ht] at hi
      cases hi

/-- A wait of `Push` is on `m_busyCV`, with the batch still busy. -/
theorem push_waits {v : T} {q : ThreadSafeBatchQueue T} {cv : CondVar}
    (h : (ThreadSafeBatchQueue.push v q).exit = .wait cv) :
    cv = .busyCV ∧ q.pushMustWait v = true ∧ (ThreadSafeBatchQueue.push v q).data = q := by
  by_cases hw : q.pushMustWait v = true
  · rw [push_wait hw] at h ⊢
    exact ⟨(Exit.wait.inj h).symm, hw, rfl⟩
  · unfold ThreadSafeBatchQueue.push at h
    dsimp only at h
    rw [if_neg hw] at h
    split at h <;> cases h

omit [DecidableEq ς] in
/-- A wait of `Pop` is on `m_emptyCV`, with nothing to pop and an active
producer. -/
theorem PopInv.pop_waits (h : PopInv S c) {cv : CondVar}
    (hexit : (ThreadSafeBatchQueue.pop c.data).exit = .wait cv) :
    cv = .emptyCV ∧ c.data.itemsToRead = 0 ∧ c.data.activeProducers ≠ 0 ∧
      (ThreadSafeBatchQueue.pop c.data).data = c.data := by
  rcases h.base.inv.toBatchCore.pop_cases with ⟨hq, ha, hp⟩ | ⟨_, _, hp⟩ | ⟨v, rest, _, hp⟩
  · rw [hp] at hexit ⊢
    refine ⟨(Exit.wait.inj hexit).symm, ?_, ha, rfl⟩
    rw [h.base.inv.items, hq]
    rfl
  · rw [hp] at hexit
    cases hexit
  · rw [hp] at hexit
    cases hexit

theorem PopInv.reason_step (h : PopInv S c) {t : Int ⊕ ς}
    (hr : SleepReason (workers S) popReason c) (hs : Step monitor (workers S) c t c') :
    SleepReason (workers S) popReason c' := by
  refine hr.step hs ?_ ?_
  · intro i seg cv hi hseg hexit
    rcases h.segment hi hseg with ⟨p, v, rfl, rfl, rfl⟩ | ⟨p, rfl, rfl, rfl⟩ | ⟨s, rfl, rfl, rfl⟩
    · obtain ⟨rfl, hw, hd⟩ := push_waits hexit
      rw [hd]
      exact hw
    · cases hexit
    · obtain ⟨rfl, _, ha, hd⟩ := h.pop_waits hexit
      rw [hd]
      exact ha
  · intro i seg hi hseg t' i' cv _ _ _ hno hW
    have heff := segment_effect hseg
    match i', cv, hW with
    | .push v, .busyCV, hW => exact heff.keeps_push v hno hW
    | .pop, .emptyCV, hW =>
      rcases heff.producers with he | hne | hall
      · show seg.data.activeProducers ≠ 0
        rw [he]
        exact hW
      · exact hne
      · exact absurd hall hno

omit [DecidableEq ς] in
theorem PopInv.sleeper (h : PopInv S c) (hr : SleepReason (workers S) popReason c)
    {t : Int ⊕ ς} {cv : CondVar} (ht : c.status t = .asleep cv) :
    (∃ p v, t = .inl p ∧ cv = .busyCV ∧ (workers S).call (c.thread t) = some (.push v) ∧
      c.data.pushMustWait v = true) ∨
    (∃ s, t = .inr s ∧ cv = .emptyCV ∧ c.data.activeProducers ≠ 0) := by
  obtain ⟨i, hi, hW⟩ := hr t cv ht
  obtain ⟨seg, hseg⟩ : ∃ seg, monitor.segment .ready i c.data = some seg := ⟨_, rfl⟩
  match i, cv, hW with
  | .push v, .busyCV, hW =>
    match t, hi with
    | .inl p, hi => exact Or.inl ⟨p, v, rfl, rfl, hi, hW⟩
    | .inr s, hi =>
      rcases h.consumers s with ⟨rs, hth⟩ | ⟨⟨rs, hth⟩, _⟩ <;> rw [hth] at hi <;> cases hi
  | .pop, .emptyCV, hW =>
    match t, hi with
    | .inl p, hi =>
      rcases h.base.producers p with ⟨hth, _⟩ | ⟨_, _, next, _, hth⟩
      · rw [hth] at hi
        cases hi
      · rw [hth] at hi
        simp only [workers] at hi
        split at hi <;> cases hi
    | .inr s, _ => exact Or.inr ⟨s, rfl, rfl, hW⟩

variable [Fintype ς]

def consumerThreads (ς : Type) [Fintype ς] [DecidableEq ς] : Finset (Int ⊕ ς) :=
  Finset.univ.image Sum.inr

theorem mem_consumerThreads (s : ς) : Sum.inr s ∈ consumerThreads ς :=
  Finset.mem_image_of_mem _ (Finset.mem_univ s)

theorem not_mem_consumerThreads (p : Int) : Sum.inl p ∉ consumerThreads ς := by
  simp [consumerThreads]

theorem PopInv.covered_step (h : PopInv S c) {t : Int ⊕ ς}
    (hr : SleepReason (workers S) popReason c)
    (hc : Covered (consumerThreads ς) .emptyCV (·.itemsToRead) c)
    (hs : Step monitor (workers S) c t c') :
    Covered (consumerThreads ς) .emptyCV (·.itemsToRead) c' := by
  refine hc.step hs (fun u hu => ?_) (fun i seg _ hseg => (segment_effect hseg).items) ?_
  · rcases h.sleeper hr hu with ⟨_, _, _, hcv, _⟩ | ⟨s, rfl, _⟩
    · cases hcv
    · exact mem_consumerThreads s
  · intro i seg cv hi hseg hexit
    rcases h.segment hi hseg with ⟨p, v, rfl, rfl, rfl⟩ | ⟨p, rfl, rfl, rfl⟩ | ⟨s, rfl, rfl, rfl⟩
    · obtain ⟨rfl, _⟩ := push_waits hexit
      exact Or.inr ⟨by simp, not_mem_consumerThreads p⟩
    · cases hexit
    · obtain ⟨rfl, h0, _, hd⟩ := h.pop_waits hexit
      exact Or.inl ⟨rfl, by rw [hd, h0]⟩

/-- **No deadlock in `Pop` mode.** -/
theorem pop_not_stuck [Nonempty ς] {B : Nat} (hB : 0 < B) (hnarrow : S.Narrow B)
    (h : Reachable monitor (workers S) (popStart S B ς) c) : ¬ Stuck (workers S) c := by
  have hall : PopInv S c ∧ SleepReason (workers S) popReason c ∧
      Covered (consumerThreads ς) .emptyCV (·.itemsToRead) c := by
    refine h.invariant (I := fun c => PopInv S c ∧ SleepReason (workers S) popReason c ∧
      Covered (consumerThreads ς) .emptyCV (·.itemsToRead) c) ?_ ?_
    · exact ⟨PopInv.start B hB hnarrow.slots, SleepReason.start fun _ => rfl,
        Or.inl fun t ht => by cases ht⟩
    · intro c t c' ⟨hI, hr, hc⟩ hs
      exact ⟨hI.step (hnarrow.next _) hs, hI.reason_step hr hs, hI.covered_step hr hc hs⟩
  obtain ⟨hI, hr, hc⟩ := hall
  rintro ⟨⟨t, ht⟩, hsleep⟩
  obtain ⟨s⟩ := ‹Nonempty ς›
  by_cases hactive : c.data.activeProducers = 0
  · -- every producer is deleted, and a sleeping consumer needs an active one
    obtain ⟨cv, hcv⟩ := hsleep t ht
    rcases hI.sleeper hr hcv with ⟨p, v, rfl, _, hcall, _⟩ | ⟨s', _, _, hne⟩
    · have hno := hI.base.inv.activeProducers_eq_zero.mp hactive p
      rcases hI.base.producers p with ⟨hth, _⟩ | ⟨hp, hact, _⟩
      · rw [hth] at hcall
        cases hcall
      · rw [hno hp] at hact
        cases hact
    · exact hne hactive
  · -- no consumer is drained, so all of them sleep and nothing is left to pop
    have hpopper : ∀ s, c.status (.inr s) = .asleep .emptyCV := by
      intro s
      have hun : Unfinished (workers S) c (.inr s) := by
        rcases hI.consumers s with ⟨rs, hth⟩ | ⟨_, _, h0⟩
        · simp [Unfinished, hth, workers]
        · exact absurd h0 hactive
      obtain ⟨cv, hcv⟩ := hsleep _ hun
      rcases hI.sleeper hr hcv with ⟨_, _, hinl, _⟩ | ⟨_, _, rfl, _⟩
      · cases hinl
      · exact hcv
    have hitems : c.data.itemsToRead ≤ 0 := by
      rcases hc with hno | hle
      · exact absurd (hpopper s) (hno _)
      · have h0 : awake (consumerThreads ς) c.status = 0 := by
          refine Finset.card_eq_zero.mpr (Finset.filter_eq_empty_iff.mpr fun u hu => ?_)
          obtain ⟨s', _, rfl⟩ := Finset.mem_image.mp hu
          simp [hpopper s', Status.isAsleep]
        rw [h0] at hle
        exact hle
    have hq : c.data.queue = [] := by
      have := hI.base.inv.items
      exact List.length_eq_zero_iff.mp (by omega)
    -- then every active producer waits for the next batch
    refine (hq ▸ hI.base).not_all_waiting (hnarrow.next _) hactive fun p hp hact => ?_
    obtain ⟨cv, hcv⟩ := hsleep _ (hI.base.unfinished_of_active hp hact)
    rcases hI.sleeper hr hcv with ⟨p', v, hinl, _, hcall, hw⟩ | ⟨_, hinr, _⟩
    · exact ⟨v, hcall, hw⟩
    · cases hinr

/-- The producer 0 sleeps on `m_busyCV` and the consumer `true` on `m_emptyCV`. -/
theorem pop_not_stuck_two :
    ∃ c, Reachable monitor (workers twoProducers) (popStart twoProducers 1 Bool) c ∧
      c.status (.inl 0) = .asleep .busyCV ∧ c.status (.inr true) = .asleep .emptyCV ∧
      ¬ Stuck (workers twoProducers) c := by
  let facts : QueueConfig (Int × Nat) Bool → _ := fun c =>
    (decide (c.status (.inl 0) = .asleep .busyCV), decide (c.status (.inr true) = .asleep .emptyCV))
  have hschedule : (popTwo [.inr false, .inr true, .inl 0, .inl 0]).map facts =
      some (true, true) := by
    decide +kernel
  obtain ⟨c, hc, hfacts⟩ := Option.map_eq_some_iff.mp hschedule
  obtain ⟨hproducer, hconsumer⟩ := Prod.mk.inj hfacts
  have hreach := reachable_popTwo (by simp) hc
  exact ⟨c, hreach, of_decide_eq_true hproducer, of_decide_eq_true hconsumer,
    pop_not_stuck (by decide) (twoProducers_narrow (by decide)) hreach⟩

end SasLibclient
