import Mathlib.Data.Fintype.Card
import Mathlib.Data.Fintype.Sum
import SasLibclient.Monitor.Progress
import SasLibclient.Queue.ThreadSafeSimpleQueue

/-!
# The simple queue under producers and consumers

`P` producers, each with a finite list of values, and threads that loop on
`Pop` until it throws. `SimpleInv` is the invariant of every interleaving and
`SimpleInv.step_cases` says once what a step can do. The queue is a bounded
FIFO (`bounded_fifo`), and the threads never all sleep (`simple_not_stuck`):
the free places are covered by woken producers and the values by woken
consumers, so a wake-up that a thread steals is one that is not needed.
-/

namespace SasLibclient

open Monitors

/-- The local state of a thread: the values a producer still has to push, the
values a consumer has received. -/
inductive SimpleWorker (T : Type) where
  | producer (producerId : Int) (todo : List T)
  | deleted
  | popper (received : List T)
  | drained (received : List T)

def SimpleWorker.isLive {T : Type} : SimpleWorker T → Bool
  | .producer _ _ => true
  | _ => false

variable {T ς : Type} {P : Nat}

/-- The code of the threads. -/
def simpleWorkers : Program (SimpleWorker T) (Call T) (Result T) where
  call
    | .producer _ (v :: _) => some (.push v)
    | .producer producerId [] => some (.deleteProducer producerId)
    | .deleted => none
    | .popper _ => some .pop
    | .drained _ => none
  after
    | .producer producerId (_ :: todo), _ => .producer producerId todo
    | .producer _ [], _ => .deleted
    | .deleted, _ => .deleted
    | .popper received, .value v => .popper (received ++ [v])
    | .popper received, _ => .drained received
    | .drained received, _ => .drained received

abbrev SimpleConfig (T ς : Type) (P : Nat) :=
  Config (ThreadSafeSimpleQueue T) CondVar (Call T) (Result T) (SimpleWorker T) (Fin P ⊕ ς)

/-- A fresh queue; no thread has made a call. -/
def simpleStart (stream : Fin P → List T) (C : Nat) (ς : Type) : SimpleConfig T ς P where
  data := ThreadSafeSimpleQueue.create C P
  thread
    | .inl p => .producer (p : Nat) (stream p)
    | .inr _ => .popper []
  status := fun _ => .ready
  history := []

/-- The producer has called `DeleteProducer`. -/
def HasLeft (h : List (Event (Fin P ⊕ ς) (Call T) (Result T))) (p : Fin P) : Prop :=
  ∃ e ∈ h, e.thread = .inl p ∧ ∃ producerId, e.call = .deleteProducer producerId

/-- The producers that are still in their loop. -/
def live (thread : Fin P ⊕ ς → SimpleWorker T) : Finset (Fin P) :=
  Finset.univ.filter fun p => (thread (.inl p)).isLive

/-- When a `Pop` throws, every producer has left and everything has been popped.
`finished` says of the present state that nobody pushes again. -/
def ThrowsAtEnd (h : List (Event (Fin P ⊕ ς) (Call T) (Result T))) (finished : Prop) : Prop :=
  ∀ h₁ e h₂, h = h₁ ++ e :: h₂ → e.call = .pop → (∃ what, e.result = .outOfRange what) →
    popped h₁ = pushed h ∧ (∀ p, HasLeft h₁ p) ∧ finished

theorem ThrowsAtEnd.append {h : List (Event (Fin P ⊕ ς) (Call T) (Result T))}
    {finished finished' : Prop} (ht : ThrowsAtEnd h finished)
    (e₀ : Event (Fin P ⊕ ς) (Call T) (Result T)) (hpush : pushed [e₀] = [] ∨ ¬ finished)
    (hkeep : finished → finished')
    (hnew : e₀.call = .pop → (∃ what, e₀.result = .outOfRange what) →
      popped h = pushed (h ++ [e₀]) ∧ (∀ p, HasLeft h p) ∧ finished') :
    ThrowsAtEnd (h ++ [e₀]) finished' := by
  intro h₁ e h₂ hsplit hcall hresult
  rcases split_concat hsplit with ⟨rfl, rfl⟩ | ⟨h₂', hl⟩
  · exact hnew hcall hresult
  · obtain ⟨hpopped, hleft, hfinished⟩ := ht h₁ e h₂' hl hcall hresult
    refine ⟨?_, hleft, hkeep hfinished⟩
    rcases hpush with hnone | hnot
    · rw [pushed_append, hnone, List.append_nil]
      exact hpopped
    · exact absurd hfinished hnot

/-- The invariant of every interleaving. -/
structure SimpleInv (C : Nat) (c : SimpleConfig T ς P) : Prop where
  capacity : c.data.capacity = C
  bounded : c.data.queue.length ≤ C
  producers : ∀ p,
    (∃ todo, c.thread (.inl p) = .producer (p : Nat) todo) ∧ ¬ HasLeft c.history p ∨
    c.thread (.inl p) = .deleted ∧ HasLeft c.history p
  count : c.data.producers = (live c.thread).card
  consumers : ∀ s, (∃ received, c.thread (.inr s) = .popper received) ∨
    (∃ received, c.thread (.inr s) = .drained received) ∧ c.data.queue = [] ∧
      c.data.producers = 0
  order : pushed c.history = popped c.history ++ c.data.queue
  throws : ThrowsAtEnd c.history (c.data.producers = 0)

variable {C : Nat} {stream : Fin P → List T} {c c' : SimpleConfig T ς P}

theorem SimpleInv.start : SimpleInv C (simpleStart stream C ς) where
  capacity := rfl
  bounded := Nat.zero_le C
  producers := by
    intro p
    left
    exact ⟨⟨stream p, rfl⟩, by simp [HasLeft, simpleStart]⟩
  count := by simp [simpleStart, live, ThreadSafeSimpleQueue.create, SimpleWorker.isLive]
  consumers := fun s => Or.inl ⟨[], rfl⟩
  order := rfl
  throws := by simp [ThrowsAtEnd, simpleStart]

theorem SimpleInv.live_iff (h : SimpleInv C c) (p : Fin P) :
    p ∈ live c.thread ↔ ¬ HasLeft c.history p := by
  simp only [live, Finset.mem_filter, Finset.mem_univ, true_and]
  rcases h.producers p with ⟨⟨todo, hth⟩, hnot⟩ | ⟨hth, hleft⟩
  · simp [hth, SimpleWorker.isLive, hnot]
  · simp [hth, SimpleWorker.isLive, hleft]

theorem SimpleInv.producers_ne (h : SimpleInv C c) {p : Fin P} {producerId : Int} {todo : List T}
    (hth : c.thread (.inl p) = .producer producerId todo) : c.data.producers ≠ 0 := by
  have hmem : p ∈ live c.thread := by
    rw [live, Finset.mem_filter, hth]
    exact ⟨Finset.mem_univ p, rfl⟩
  have hpos := Finset.card_pos.mpr ⟨p, hmem⟩
  rw [h.count]
  omega

theorem SimpleInv.all_left (h : SimpleInv C c) (hzero : c.data.producers = 0) (p : Fin P) :
    HasLeft c.history p := by
  by_contra hnot
  have hpos := Finset.card_pos.mpr ⟨p, (h.live_iff p).mpr hnot⟩
  rw [h.count] at hzero
  omega

/-! ## Steps -/

variable [DecidableEq ς]

/-- What a step does to the data, the threads and the history. -/
inductive SimpleStep (c : SimpleConfig T ς P) : Fin P ⊕ ς → SimpleConfig T ς P → Prop
  | idle {t : Fin P ⊕ ς} {c' : SimpleConfig T ς P} : c'.data = c.data → c'.thread = c.thread →
      c'.history = c.history → SimpleStep c t c'
  | push {p : Fin P} {c' : SimpleConfig T ς P} (v : T) (todo : List T) :
      c.thread (.inl p) = .producer (p : Nat) (v :: todo) →
      c.data.queue.length < c.data.capacity →
      c'.data = { c.data with queue := c.data.queue ++ [v] } →
      c'.thread = Function.update c.thread (.inl p) (.producer (p : Nat) todo) →
      c'.history = c.history ++ [⟨.inl p, .push v, .unit⟩] → SimpleStep c (.inl p) c'
  | delete {p : Fin P} {c' : SimpleConfig T ς P} :
      c.thread (.inl p) = .producer (p : Nat) [] →
      c'.data = { c.data with producers := c.data.producers - 1 } →
      c'.thread = Function.update c.thread (.inl p) .deleted →
      c'.history = c.history ++ [⟨.inl p, .deleteProducer (p : Nat), .unit⟩] →
      SimpleStep c (.inl p) c'
  | pop {s : ς} {c' : SimpleConfig T ς P} (received : List T) (v : T) (rest : List T) :
      c.thread (.inr s) = .popper received → c.data.queue = v :: rest →
      c'.data = { c.data with queue := rest } →
      c'.thread = Function.update c.thread (.inr s) (.popper (received ++ [v])) →
      c'.history = c.history ++ [⟨.inr s, .pop, .value v⟩] → SimpleStep c (.inr s) c'
  | drain {s : ς} {c' : SimpleConfig T ς P} (received : List T) :
      c.thread (.inr s) = .popper received → c.data.queue = [] → c.data.producers = 0 →
      c'.data = c.data →
      c'.thread = Function.update c.thread (.inr s) (.drained received) →
      c'.history = c.history ++ [⟨.inr s, .pop, .outOfRange "Queue is empty"⟩] →
      SimpleStep c (.inr s) c'

omit [DecidableEq ς] in
theorem SimpleInv.call_cases (h : SimpleInv C c) {t : Fin P ⊕ ς} {i : Call T}
    (hi : simpleWorkers.call (c.thread t) = some i) :
    (∃ p v todo, t = .inl p ∧ i = .push v ∧
      c.thread (.inl p) = .producer (p : Nat) (v :: todo)) ∨
    (∃ p, t = .inl p ∧ i = .deleteProducer ((p : Nat) : Int) ∧
      c.thread (.inl p) = .producer (p : Nat) []) ∨
    (∃ s received, t = .inr s ∧ i = .pop ∧ c.thread (.inr s) = .popper received) := by
  cases t with
  | inl p =>
    rcases h.producers p with ⟨⟨todo, hth⟩, _⟩ | ⟨hth, _⟩
    · rw [hth] at hi
      cases todo with
      | nil => exact Or.inr (Or.inl ⟨p, rfl, (Option.some.inj hi).symm, hth⟩)
      | cons v todo => exact Or.inl ⟨p, v, todo, rfl, (Option.some.inj hi).symm, hth⟩
    · rw [hth] at hi
      cases hi
  | inr s =>
    rcases h.consumers s with ⟨received, hth⟩ | ⟨⟨received, hth⟩, _⟩
    · rw [hth] at hi
      exact Or.inr (Or.inr ⟨s, received, rfl, (Option.some.inj hi).symm, hth⟩)
    · rw [hth] at hi
      cases hi

theorem SimpleInv.step_cases (h : SimpleInv C c) {t : Fin P ⊕ ς}
    (hs : Step ThreadSafeSimpleQueue.monitor simpleWorkers c t c') : SimpleStep c t c' := by
  cases hs with
  | @wait i seg st cv hi hseg hdel hexit =>
    obtain rfl := ThreadSafeSimpleQueue.monitor_segment hseg
    rcases h.call_cases hi with ⟨p, v, todo, rfl, rfl, hth⟩ | ⟨p, rfl, rfl, hth⟩ |
      ⟨s, received, rfl, rfl, hth⟩
    · refine .idle ?_ rfl rfl
      simp only [ThreadSafeSimpleQueue.segment, ThreadSafeSimpleQueue.push] at hexit ⊢
      split at hexit
      · rename_i hfull
        rw [if_pos hfull]
      · cases hexit
    · cases hexit
    · refine .idle ?_ rfl rfl
      simp only [ThreadSafeSimpleQueue.segment, ThreadSafeSimpleQueue.pop] at hexit ⊢
      split at hexit
      · split at hexit
        · rename_i hactive
          rw [if_pos hactive]
        · cases hexit
      · cases hexit
  | @ret i seg st r hi hseg hdel hexit =>
    obtain rfl := ThreadSafeSimpleQueue.monitor_segment hseg
    rcases h.call_cases hi with ⟨p, v, todo, rfl, rfl, hth⟩ | ⟨p, rfl, rfl, hth⟩ |
      ⟨s, received, rfl, rfl, hth⟩
    · by_cases hfull : c.data.queue.length ≥ c.data.capacity
      · simp only [ThreadSafeSimpleQueue.segment, ThreadSafeSimpleQueue.push, if_pos hfull] at hexit
        cases hexit
      · have hpush : ThreadSafeSimpleQueue.segment (.push v) c.data =
            ⟨{ c.data with queue := c.data.queue ++ [v] }, [.one .emptyCV], .ret .unit⟩ :=
          if_neg hfull
        rw [hpush] at hexit ⊢
        cases hexit
        refine .push v todo hth (by omega) rfl ?_ rfl
        simp [hth, simpleWorkers]
    · cases hexit
      refine .delete hth rfl ?_ rfl
      simp [hth, simpleWorkers]
    · cases hq : c.data.queue with
      | nil =>
        by_cases hactive : c.data.producers ≠ 0
        · simp only [ThreadSafeSimpleQueue.segment, ThreadSafeSimpleQueue.pop, hq,
            if_pos hactive] at hexit
          cases hexit
        · have hpop : ThreadSafeSimpleQueue.segment .pop c.data =
              ⟨c.data, [], .ret (.outOfRange "Queue is empty")⟩ := by
            simp only [ThreadSafeSimpleQueue.segment, ThreadSafeSimpleQueue.pop, hq,
              if_neg hactive]
          rw [hpop] at hexit ⊢
          cases hexit
          refine .drain received hth hq (by simpa using hactive) rfl ?_ rfl
          simp [hth, simpleWorkers]
      | cons v rest =>
        have hpop : ThreadSafeSimpleQueue.segment .pop c.data =
            ⟨{ c.data with queue := rest }, [.one .fullCV], .ret (.value v)⟩ := by
          simp only [ThreadSafeSimpleQueue.segment, ThreadSafeSimpleQueue.pop, hq]
        rw [hpop] at hexit ⊢
        cases hexit
        refine .pop received v rest hth hq rfl ?_ rfl
        simp [hth, simpleWorkers]
  | spurious _ => exact .idle rfl rfl rfl

omit [DecidableEq ς] in
theorem hasLeft_concat (h : List (Event (Fin P ⊕ ς) (Call T) (Result T)))
    (e : Event (Fin P ⊕ ς) (Call T) (Result T)) (p : Fin P) :
    HasLeft (h ++ [e]) p ↔ HasLeft h p ∨
      e.thread = .inl p ∧ ∃ producerId, e.call = .deleteProducer producerId := by
  simp only [HasLeft, List.mem_append, List.mem_singleton, or_and_right, exists_or,
    exists_eq_left]

theorem SimpleInv.producers_of_consumer (h : SimpleInv C c) {s : ς} {w : SimpleWorker T}
    {result : Result T} (hth : c'.thread = Function.update c.thread (.inr s) w)
    (hh : c'.history = c.history ++ [⟨.inr s, .pop, result⟩]) (p : Fin P) :
    (∃ todo, c'.thread (.inl p) = .producer (p : Nat) todo) ∧ ¬ HasLeft c'.history p ∨
      c'.thread (.inl p) = .deleted ∧ HasLeft c'.history p := by
  rw [hth, hh, Function.update_of_ne (by simp), hasLeft_concat]
  simpa using h.producers p

omit [DecidableEq ς] in
theorem live_congr {thread thread' : Fin P ⊕ ς → SimpleWorker T}
    (h : ∀ p, (thread' (.inl p)).isLive = (thread (.inl p)).isLive) :
    live thread' = live thread := by
  unfold live
  apply Finset.filter_congr
  intro p _
  rw [h p]

theorem live_update_consumer (thread : Fin P ⊕ ς → SimpleWorker T) (s : ς) (w : SimpleWorker T) :
    live (Function.update thread (.inr s) w) = live thread := by
  apply live_congr
  intro p
  rw [Function.update_of_ne (by simp)]

theorem live_update_producer {thread : Fin P ⊕ ς → SimpleWorker T} {p : Fin P}
    {w : SimpleWorker T} (hw : w.isLive = (thread (.inl p)).isLive) :
    live (Function.update thread (.inl p) w) = live thread := by
  apply live_congr
  intro p'
  by_cases e : p' = p
  · rw [e, Function.update_self, hw]
  · rw [Function.update_of_ne (by simpa using e)]

theorem live_update_deleted (thread : Fin P ⊕ ς → SimpleWorker T) (p : Fin P) :
    live (Function.update thread (.inl p) .deleted) = (live thread).erase p := by
  ext p'
  rw [Finset.mem_erase, live, live, Finset.mem_filter, Finset.mem_filter]
  by_cases e : p' = p
  · rw [e, Function.update_self]
    simp [SimpleWorker.isLive]
  · rw [Function.update_of_ne (by simpa using e)]
    simp [e]

omit [DecidableEq ς] in
/-- While a producer is in its loop no consumer has drained the queue. -/
theorem SimpleInv.popping (h : SimpleInv C c) (hne : c.data.producers ≠ 0) (s : ς) :
    ∃ received, c.thread (.inr s) = .popper received :=
  (h.consumers s).resolve_right fun hdrained => hne hdrained.2.2

theorem SimpleInv.push (h : SimpleInv C c) {p : Fin P} {v : T} {todo : List T}
    (hrun : c.thread (.inl p) = .producer (p : Nat) (v :: todo))
    (hroom : c.data.queue.length < c.data.capacity)
    (hd : c'.data = { c.data with queue := c.data.queue ++ [v] })
    (hth : c'.thread = Function.update c.thread (.inl p) (.producer (p : Nat) todo))
    (hh : c'.history = c.history ++ [⟨.inl p, .push v, .unit⟩]) : SimpleInv C c' := by
  have hne := h.producers_ne hrun
  constructor
  · rw [hd]; exact h.capacity
  · have hcap := h.capacity
    rw [hd]
    simp only [List.length_append, List.length_singleton]
    omega
  · intro p'
    rw [hth, hh, hasLeft_concat]
    by_cases e : p' = p
    · subst e
      rcases h.producers p' with ⟨_, hnot⟩ | ⟨hdeleted, _⟩
      · left
        rw [Function.update_self]
        exact ⟨⟨todo, rfl⟩, by simp [hnot]⟩
      · rw [hrun] at hdeleted
        cases hdeleted
    · rw [Function.update_of_ne (by simpa using e)]
      simpa using h.producers p'
  · rw [hd, hth, live_update_producer (by rw [hrun]; rfl)]
    exact h.count
  · intro s
    rw [hth, Function.update_of_ne (by simp)]
    exact Or.inl (h.popping hne s)
  · rw [hd, hh, pushed_append, popped_append, h.order]
    simp [pushed, popped]
  · rw [hh]
    refine h.throws.append _ (Or.inr hne) (fun hzero => absurd hzero hne) ?_
    intro hcall
    cases hcall

theorem SimpleInv.delete (h : SimpleInv C c) {p : Fin P}
    (hrun : c.thread (.inl p) = .producer (p : Nat) [])
    (hd : c'.data = { c.data with producers := c.data.producers - 1 })
    (hth : c'.thread = Function.update c.thread (.inl p) .deleted)
    (hh : c'.history = c.history ++ [⟨.inl p, .deleteProducer (p : Nat), .unit⟩]) :
    SimpleInv C c' := by
  have hne := h.producers_ne hrun
  constructor
  · rw [hd]; exact h.capacity
  · rw [hd]; exact h.bounded
  · intro p'
    rw [hth, hh, hasLeft_concat]
    by_cases e : p' = p
    · subst e
      rw [Function.update_self]
      exact Or.inr ⟨rfl, Or.inr ⟨rfl, _, rfl⟩⟩
    · rw [Function.update_of_ne (by simpa using e)]
      simpa [Ne.symm e] using h.producers p'
  · have hmem : p ∈ live c.thread := by
      rw [live, Finset.mem_filter, hrun]
      exact ⟨Finset.mem_univ p, rfl⟩
    have hcard := Finset.card_erase_add_one hmem
    rw [hd, hth, live_update_deleted]
    simp only [h.count]
    omega
  · intro s
    rw [hth, Function.update_of_ne (by simp)]
    exact Or.inl (h.popping hne s)
  · rw [hd, hh, pushed_append, popped_append, h.order]
    simp [pushed, popped]
  · rw [hh]
    refine h.throws.append _ (Or.inl rfl) (fun hzero => absurd hzero hne) ?_
    intro hcall
    cases hcall

theorem SimpleInv.pop (h : SimpleInv C c) {s : ς} {received rest : List T} {v : T}
    (hq : c.data.queue = v :: rest) (hd : c'.data = { c.data with queue := rest })
    (hth : c'.thread = Function.update c.thread (.inr s) (.popper (received ++ [v])))
    (hh : c'.history = c.history ++ [⟨.inr s, .pop, .value v⟩]) : SimpleInv C c' := by
  constructor
  · rw [hd]; exact h.capacity
  · have hbounded := h.bounded
    rw [hq, List.length_cons] at hbounded
    rw [hd]
    exact Nat.le_of_succ_le hbounded
  · exact h.producers_of_consumer hth hh
  · rw [hd, hth, live_update_consumer]
    exact h.count
  · intro s'
    rw [hth]
    by_cases e : s' = s
    · rw [e, Function.update_self]
      exact Or.inl ⟨_, rfl⟩
    · rw [Function.update_of_ne (by simpa using e)]
      refine Or.inl ((h.consumers s').resolve_right ?_)
      rintro ⟨_, hnil, _⟩
      rw [hq] at hnil
      cases hnil
  · rw [hd, hh, pushed_append, popped_append, h.order, hq]
    simp [pushed, popped]
  · rw [hd, hh]
    refine h.throws.append _ (Or.inl rfl) id ?_
    rintro _ ⟨what, hresult⟩
    cases hresult

theorem SimpleInv.drain (h : SimpleInv C c) {s : ς} {received : List T} {what : String}
    (hq : c.data.queue = []) (hzero : c.data.producers = 0) (hd : c'.data = c.data)
    (hth : c'.thread = Function.update c.thread (.inr s) (.drained received))
    (hh : c'.history = c.history ++ [⟨.inr s, .pop, .outOfRange what⟩]) : SimpleInv C c' := by
  constructor
  · rw [hd]; exact h.capacity
  · rw [hd]; exact h.bounded
  · exact h.producers_of_consumer hth hh
  · rw [hd, hth, live_update_consumer]
    exact h.count
  · intro s'
    rw [hth, hd]
    by_cases e : s' = s
    · rw [e, Function.update_self]
      exact Or.inr ⟨⟨_, rfl⟩, hq, hzero⟩
    · rw [Function.update_of_ne (by simpa using e)]
      exact h.consumers s'
  · rw [hd, hh, pushed_append, popped_append, h.order]
    simp [pushed, popped]
  · rw [hd, hh]
    refine h.throws.append _ (Or.inl rfl) id ?_
    intro _ _
    refine ⟨?_, h.all_left hzero, hzero⟩
    rw [pushed_append, h.order, hq]
    simp [pushed]

theorem SimpleInv.step (h : SimpleInv C c) {t : Fin P ⊕ ς}
    (hs : Step ThreadSafeSimpleQueue.monitor simpleWorkers c t c') : SimpleInv C c' := by
  cases h.step_cases hs with
  | idle hd hth hh =>
    constructor
    · rw [hd]; exact h.capacity
    · rw [hd]; exact h.bounded
    · rw [hth, hh]; exact h.producers
    · rw [hd, hth]; exact h.count
    · rw [hd, hth]; exact h.consumers
    · rw [hd, hh]; exact h.order
    · rw [hd, hh]; exact h.throws
  | push v todo hrun hroom hd hth hh => exact h.push hrun hroom hd hth hh
  | delete hrun hd hth hh => exact h.delete hrun hd hth hh
  | pop received v rest hrun hq hd hth hh => exact h.pop hq hd hth hh
  | drain received hrun hq hzero hd hth hh => exact h.drain hq hzero hd hth hh

theorem SimpleInv.reachable
    (h : Reachable ThreadSafeSimpleQueue.monitor simpleWorkers (simpleStart stream C ς) c) :
    SimpleInv C c :=
  h.invariant SimpleInv.start fun _ _ _ hI hs => hI.step hs

/-- **A bounded FIFO.** At most `C` values are stored; what was popped and what
is stored is what was pushed, in order; `m_producers` counts the producers that
have not left; and a `Pop` that throws comes after the last value was popped
and after every producer has left. -/
theorem bounded_fifo
    (h : Reachable ThreadSafeSimpleQueue.monitor simpleWorkers (simpleStart stream C ς) c) :
    c.data.queue.length ≤ C ∧
    popped c.history ++ c.data.queue = pushed c.history ∧
    (∃ remaining : Finset (Fin P), (∀ p, p ∈ remaining ↔ ¬ HasLeft c.history p) ∧
      c.data.producers = remaining.card) ∧
    (∀ h₁ e h₂, c.history = h₁ ++ e :: h₂ → e.call = .pop →
      (∃ what, e.result = .outOfRange what) →
      popped h₁ = pushed c.history ∧ ∀ p, HasLeft h₁ p) := by
  have hI := SimpleInv.reachable h
  refine ⟨hI.bounded, hI.order.symm, ⟨live c.thread, hI.live_iff, hI.count⟩, ?_⟩
  intro h₁ e h₂ hsplit hcall hresult
  obtain ⟨hpopped, hleft, _⟩ := hI.throws h₁ e h₂ hsplit hcall hresult
  exact ⟨hpopped, hleft⟩

/-- Two producers, with two values and one. -/
def twoStreams : Fin 2 → List Nat
  | 0 => [7, 9]
  | 1 => [8]

/-- The state of the producers and the consumers `false` and `true` after a
schedule, with a queue of one place. -/
def streamTwo (schedule : List (Fin 2 ⊕ Bool)) : Option (SimpleConfig Nat Bool 2) :=
  Config.schedule ThreadSafeSimpleQueue.monitor simpleWorkers
    [.inl 0, .inl 1, .inr false, .inr true] schedule (simpleStart twoStreams 1 Bool)

theorem reachable_streamTwo {schedule : List (Fin 2 ⊕ Bool)}
    (hthreads : ∀ t ∈ schedule, t ∈ [.inl 0, .inl 1, .inr false, .inr true])
    {c : SimpleConfig Nat Bool 2} (h : streamTwo schedule = some c) :
    Reachable ThreadSafeSimpleQueue.monitor simpleWorkers (simpleStart twoStreams 1 Bool) c := by
  obtain ⟨tr, hrun, _⟩ := Run.of_schedule hthreads nofun h
  exact ⟨tr, hrun⟩

/-- Both consumers fall asleep before the first push, and both producers when
the place is taken. -/
theorem bounded_fifo_two :
    ∃ c, Reachable ThreadSafeSimpleQueue.monitor simpleWorkers (simpleStart twoStreams 1 Bool) c ∧
      popped c.history = [7, 9] ∧ c.data.queue = [8] ∧
      popped c.history ++ c.data.queue = pushed c.history := by
  let facts : SimpleConfig Nat Bool 2 → _ := fun c => (popped c.history, c.data.queue)
  have hschedule : (streamTwo [.inr false, .inr true, .inl 0, .inl 1, .inl 0, .inr false, .inl 0,
      .inr true, .inl 1]).map facts = some ([7, 9], [8]) := by
    decide +kernel
  obtain ⟨c, hc, hfacts⟩ := Option.map_eq_some_iff.mp hschedule
  obtain ⟨hpopped, hqueue⟩ : popped c.history = _ ∧ c.data.queue = _ := by
    simpa only [facts, Prod.mk.injEq] using hfacts
  have hreach := reachable_streamTwo (by simp) hc
  exact ⟨c, hreach, hpopped, hqueue, (bounded_fifo hreach).2.1⟩

/-! ## No deadlock -/

def simpleReason : Call T → CondVar → ThreadSafeSimpleQueue T → Prop
  | .push _, .fullCV, _ => True
  | .pop, .emptyCV, q => q.producers ≠ 0
  | _, _, _ => False

/-- The calls that may wait. -/
def mayWait : Call T → Prop
  | .push _ => True
  | .pop => True
  | _ => False

namespace ThreadSafeSimpleQueue

/-- A wait of `Push` is on `m_fullCV`, with no free place. -/
theorem push_waits {v : T} {q : ThreadSafeSimpleQueue T} {cv : CondVar}
    (h : (push v q).exit = .wait cv) :
    cv = .fullCV ∧ q.capacity ≤ q.queue.length ∧ (push v q).data = q := by
  unfold push at h ⊢
  split at h
  · rename_i hfull
    rw [if_pos hfull]
    exact ⟨(Exit.wait.inj h).symm, hfull, rfl⟩
  · cases h

/-- A wait of `Pop` is on `m_emptyCV`, with nothing to pop and a producer left. -/
theorem pop_waits {q : ThreadSafeSimpleQueue T} {cv : CondVar} (h : (pop q).exit = .wait cv) :
    cv = .emptyCV ∧ q.queue = [] ∧ (pop q).data.producers ≠ 0 := by
  unfold pop at h ⊢
  cases hq : q.queue with
  | nil =>
    simp only [hq] at h ⊢
    split at h
    · rename_i hactive
      rw [if_pos hactive]
      exact ⟨(Exit.wait.inj h).symm, trivial, hactive⟩
    · cases h
  | cons v rest =>
    simp only [hq] at h
    cases h

/-- When `m_producers` becomes zero, everybody on `m_emptyCV` is notified. -/
theorem segment_producers (i : Call T) (q : ThreadSafeSimpleQueue T) :
    (segment i q).data.producers = q.producers ∨ (segment i q).data.producers ≠ 0 ∨
      Signal.all .emptyCV ∈ (segment i q).signals := by
  cases i with
  | push v =>
    left
    simp only [segment, push]
    split <;> rfl
  | pop =>
    left
    simp only [segment, pop]
    split
    · split <;> rfl
    · rfl
  | get p v => exact Or.inl rfl
  | deleteProducer p =>
    right
    by_cases hzero : q.producers - 1 = 0
    · right
      simp [segment, deleteProducer, hzero]
    · exact Or.inl hzero

/-- The values in the queue: one more with a `notify_one` on `m_emptyCV`. -/
theorem push_items (v : T) (q : ThreadSafeSimpleQueue T) :
    (push v q).data = q ∧ (push v q).signals = [] ∧ (push v q).exit = .wait .fullCV ∧
      q.capacity ≤ q.queue.length ∨
    (push v q).data = { q with queue := q.queue ++ [v] } ∧ (push v q).signals = [.one .emptyCV] ∧
      (push v q).exit = .ret .unit := by
  unfold push
  split
  · rename_i hfull
    exact Or.inl ⟨rfl, rfl, rfl, hfull⟩
  · exact Or.inr ⟨rfl, rfl, rfl⟩

theorem pop_items (q : ThreadSafeSimpleQueue T) :
    q.queue = [] ∧ (pop q).data = q ∧ (pop q).signals = [] ∨
    ∃ v rest, q.queue = v :: rest ∧ (pop q).data = { q with queue := rest } ∧
      (pop q).signals = [.one .fullCV] ∧ (pop q).exit = .ret (.value v) := by
  unfold pop
  cases hq : q.queue with
  | nil =>
    left
    refine ⟨rfl, ?_⟩
    dsimp only
    split <;> exact ⟨rfl, rfl⟩
  | cons v rest => exact Or.inr ⟨v, rest, rfl, rfl, rfl, rfl⟩

end ThreadSafeSimpleQueue

theorem SimpleInv.reason_step (h : SimpleInv C c) {t : Fin P ⊕ ς}
    (hr : SleepReason simpleWorkers simpleReason c)
    (hs : Step ThreadSafeSimpleQueue.monitor simpleWorkers c t c') :
    SleepReason simpleWorkers simpleReason c' := by
  refine hr.step hs ?_ ?_
  · intro i seg cv hi hseg hexit
    obtain rfl := ThreadSafeSimpleQueue.monitor_segment hseg
    rcases h.call_cases hi with ⟨p, v, todo, rfl, rfl, _⟩ | ⟨p, rfl, rfl, _⟩ | ⟨s, rs, rfl, rfl, _⟩
    · obtain ⟨rfl, _⟩ := ThreadSafeSimpleQueue.push_waits hexit
      trivial
    · cases hexit
    · obtain ⟨rfl, _, hne⟩ := ThreadSafeSimpleQueue.pop_waits hexit
      exact hne
  · intro i seg hi hseg t' i' cv _ _ _ hno hW
    obtain rfl := ThreadSafeSimpleQueue.monitor_segment hseg
    match i', cv, hW with
    | .push _, .fullCV, _ => trivial
    | .pop, .emptyCV, hW =>
      rcases ThreadSafeSimpleQueue.segment_producers i c.data with hsame | hne | hall
      · show (ThreadSafeSimpleQueue.segment i c.data).data.producers ≠ 0
        rw [hsame]
        exact hW
      · exact hne
      · exact absurd hall hno

/-- Only `Push` and `Pop` wait. -/
theorem SimpleInv.inCall_step (h : SimpleInv C c) {t : Fin P ⊕ ς}
    (hin : OnlyInCall simpleWorkers mayWait c)
    (hs : Step ThreadSafeSimpleQueue.monitor simpleWorkers c t c') :
    OnlyInCall simpleWorkers mayWait c' := by
  refine hin.step hs ?_
  intro i seg cv hi hseg hexit
  obtain rfl := ThreadSafeSimpleQueue.monitor_segment hseg
  rcases h.call_cases hi with ⟨p, v, todo, rfl, rfl, _⟩ | ⟨p, rfl, rfl, _⟩ | ⟨s, rs, rfl, rfl, _⟩
  · trivial
  · cases hexit
  · trivial

omit [DecidableEq ς] in
theorem SimpleInv.sleeper (h : SimpleInv C c) (hr : SleepReason simpleWorkers simpleReason c)
    {t : Fin P ⊕ ς} {cv : CondVar} (ht : c.status t = .asleep cv) :
    (∃ p, t = .inl p ∧ cv = .fullCV) ∨
    (∃ s, t = .inr s ∧ cv = .emptyCV ∧ c.data.producers ≠ 0) := by
  obtain ⟨i, hi, hW⟩ := hr t cv ht
  rcases h.call_cases hi with ⟨p, v, todo, rfl, rfl, _⟩ | ⟨p, rfl, rfl, _⟩ | ⟨s, rs, rfl, rfl, _⟩
  · cases cv with
    | fullCV => exact Or.inl ⟨p, rfl, rfl⟩
    | emptyCV | busyCV | dataNotReadyCV _ => exact hW.elim
  · cases hW
  · cases cv with
    | emptyCV => exact Or.inr ⟨s, rfl, rfl, hW⟩
    | fullCV | busyCV | dataNotReadyCV _ => exact hW.elim

variable [Fintype ς]

theorem SimpleInv.values_step (h : SimpleInv C c) {t : Fin P ⊕ ς}
    (hr : SleepReason simpleWorkers simpleReason c)
    (hv : Handed (Finset.univ.filter fun t => t.isRight) .emptyCV (·.queue.length) c)
    (hs : Step ThreadSafeSimpleQueue.monitor simpleWorkers c t c') :
    Handed (Finset.univ.filter fun t => t.isRight) .emptyCV (·.queue.length) c' := by
  refine hv.step hs (fun u hu => ?_) ?_
  · rcases h.sleeper hr hu with ⟨_, _, hcv⟩ | ⟨s, rfl, _⟩
    · cases hcv
    · simp
  · intro i seg hi hseg
    have hrun := ThreadSafeSimpleQueue.monitor_segment hseg
    rcases h.call_cases hi with ⟨p, v, todo, rfl, rfl, _⟩ | ⟨p, rfl, rfl, _⟩ | ⟨s, rs, rfl, rfl, _⟩
    · right
      obtain rfl : seg = ThreadSafeSimpleQueue.push v c.data := hrun
      rcases ThreadSafeSimpleQueue.push_items v c.data with ⟨hd, hsig, hexit, _⟩ | ⟨hd, hsig, hexit⟩
      · simp [hd, hsig, hexit]
      · simp [hd, hsig, hexit]
    · right
      obtain rfl : seg = ThreadSafeSimpleQueue.deleteProducer c.data := hrun
      simp [ThreadSafeSimpleQueue.deleteProducer]
    · obtain rfl : seg = ThreadSafeSimpleQueue.pop c.data := hrun
      rcases ThreadSafeSimpleQueue.pop_items c.data with ⟨hq, hd, _⟩ | ⟨v, rest, hq, hd, hsig, hexit⟩
      · left
        simp [hd, hq]
      · right
        have htakes : (if Sum.inr s ∈ Finset.univ.filter (fun t : Fin P ⊕ ς => t.isRight) ∧
            c.status (.inr s) = .woken then (1 : Int) else 0) ≤ 1 := by
          split <;> decide
        refine ⟨by simp [hexit], ?_⟩
        simp only [hd, hq, hsig, List.length_cons, List.mem_singleton, Signal.one.injEq,
          reduceCtorEq, if_false]
        push_cast
        omega

theorem SimpleInv.places_step (h : SimpleInv C c) {t : Fin P ⊕ ς}
    (hr : SleepReason simpleWorkers simpleReason c) (hin : OnlyInCall simpleWorkers mayWait c)
    (hv : Handed (Finset.univ.filter fun t => t.isLeft) .fullCV
      (fun q => q.capacity - q.queue.length) c)
    (hs : Step ThreadSafeSimpleQueue.monitor simpleWorkers c t c') :
    Handed (Finset.univ.filter fun t => t.isLeft) .fullCV
      (fun q => q.capacity - q.queue.length) c' := by
  refine hv.step hs (fun u hu => ?_) ?_
  · rcases h.sleeper hr hu with ⟨p, rfl, _⟩ | ⟨_, _, hcv, _⟩
    · simp
    · cases hcv
  · intro i seg hi hseg
    have hrun := ThreadSafeSimpleQueue.monitor_segment hseg
    rcases h.call_cases hi with ⟨p, v, todo, rfl, rfl, _⟩ | ⟨p, rfl, rfl, _⟩ | ⟨s, rs, rfl, rfl, _⟩
    · obtain rfl : seg = ThreadSafeSimpleQueue.push v c.data := hrun
      rcases ThreadSafeSimpleQueue.push_items v c.data with ⟨hd, _, _, hfull⟩ | ⟨hd, hsig, hexit⟩
      · left
        rw [hd]
        omega
      · right
        have htakes : (if Sum.inl p ∈ Finset.univ.filter (fun t : Fin P ⊕ ς => t.isLeft) ∧
            c.status (.inl p) = .woken then (1 : Int) else 0) ≤ 1 := by
          split <;> decide
        refine ⟨by simp [hexit], ?_⟩
        simp only [hd, hsig, List.length_append, List.length_singleton, List.mem_singleton,
          Signal.one.injEq, reduceCtorEq, if_false]
        push_cast
        omega
    · -- a producer that leaves has not been inside a call
      right
      obtain rfl : seg = ThreadSafeSimpleQueue.deleteProducer c.data := hrun
      have hready : c.status (.inl p) ≠ .woken := by
        intro hwoken
        obtain ⟨i, hcall, hwait⟩ := hin (.inl p) (by rw [hwoken]; simp)
        rw [hi] at hcall
        obtain rfl := Option.some.inj hcall
        exact hwait
      simp [ThreadSafeSimpleQueue.deleteProducer, hready]
    · right
      obtain rfl : seg = ThreadSafeSimpleQueue.pop c.data := hrun
      rcases ThreadSafeSimpleQueue.pop_items c.data with ⟨hq, hd, hsig⟩ | ⟨v, rest, hq, hd, hsig, hexit⟩
      · have hexit : (ThreadSafeSimpleQueue.pop c.data).exit ≠ .wait .fullCV := by
          intro hexit
          cases (ThreadSafeSimpleQueue.pop_waits hexit).1
        simp [hd, hsig, hexit]
      · refine ⟨by simp [hexit], ?_⟩
        simp [hd, hq, hsig]
        omega

/-- **The streaming queue never gets stuck.** -/
theorem simple_not_stuck [Nonempty ς] (hC : 0 < C)
    (h : Reachable ThreadSafeSimpleQueue.monitor simpleWorkers (simpleStart stream C ς) c) :
    ¬ Stuck simpleWorkers c := by
  let consumers : Finset (Fin P ⊕ ς) := Finset.univ.filter fun t => t.isRight
  let producers : Finset (Fin P ⊕ ς) := Finset.univ.filter fun t => t.isLeft
  let I : SimpleConfig T ς P → Prop := fun c => SimpleInv C c ∧
    SleepReason simpleWorkers simpleReason c ∧ OnlyInCall simpleWorkers mayWait c ∧
    Handed consumers .emptyCV (·.queue.length) c ∧
    Handed producers .fullCV (fun q => q.capacity - q.queue.length) c
  have hall : I c := by
    refine h.invariant (I := I) ?_ ?_
    · have hready : ∀ t, (simpleStart stream C ς).status t = .ready := fun _ => rfl
      exact ⟨.start, .start hready, .start hready, .start hready, .start hready⟩
    · intro c t c' ⟨hI, hr, hin, hvalues, hplaces⟩ hs
      exact ⟨hI.step hs, hI.reason_step hr hs, hI.inCall_step hin hs,
        hI.values_step hr hvalues hs, hI.places_step hr hin hplaces hs⟩
  obtain ⟨hI, hr, hin, hvalues, hplaces⟩ := hall
  rintro ⟨⟨t, ht⟩, hsleep⟩
  obtain ⟨s⟩ := ‹Nonempty ς›
  -- an unfinished thread is asleep, so none is woken
  have hwoken : ∀ K : Finset (Fin P ⊕ ς), woken K c.status = 0 := by
    intro K
    refine Finset.card_eq_zero.mpr (Finset.filter_eq_empty_iff.mpr fun u _ hu => ?_)
    obtain ⟨i, hcall, _⟩ := hin u (by rw [hu]; simp)
    obtain ⟨cv, hcv⟩ := hsleep u (by rw [Unfinished, hcall]; simp)
    rw [hu] at hcv
    cases hcv
  by_cases hzero : c.data.producers = 0
  · -- every producer has left, and a sleeping consumer needs one that has not
    obtain ⟨cv, hcv⟩ := hsleep t ht
    rcases hI.sleeper hr hcv with ⟨p, rfl, _⟩ | ⟨_, _, _, hne⟩
    · rcases hI.producers p with ⟨⟨todo, hth⟩, _⟩ | ⟨hth, _⟩
      · exact hI.producers_ne hth hzero
      · rw [Unfinished, hth] at ht
        exact ht rfl
    · exact hne hzero
  · -- no consumer is drained, so all sleep and the queue is empty
    have hempty : c.status (.inr s) = .asleep .emptyCV := by
      have hun : Unfinished simpleWorkers c (.inr s) := by
        rcases hI.consumers s with ⟨rs, hth⟩ | ⟨_, _, h0⟩
        · simp [Unfinished, hth, simpleWorkers]
        · exact absurd h0 hzero
      obtain ⟨cv, hcv⟩ := hsleep _ hun
      rcases hI.sleeper hr hcv with ⟨_, hinl, _⟩ | ⟨_, _, rfl, _⟩
      · cases hinl
      · exact hcv
    have hlength : c.data.queue = [] := by
      have hle := hvalues.resolve_left fun hno => hno _ hempty
      simpa [hwoken] using hle
    -- a producer that has not left sleeps although there is room
    obtain ⟨p, hp⟩ : ∃ p, p ∈ live c.thread := by
      by_contra hno
      apply hzero
      rw [hI.count, Finset.card_eq_zero.mpr (Finset.eq_empty_of_forall_notMem fun p hp => hno ⟨p, hp⟩)]
      rfl
    have hfull : c.status (.inl p) = .asleep .fullCV := by
      rcases hI.producers p with ⟨⟨todo, hth⟩, _⟩ | ⟨hth, _⟩
      · have hun : Unfinished simpleWorkers c (.inl p) := by
          cases todo <;> simp [Unfinished, hth, simpleWorkers]
        obtain ⟨cv, hcv⟩ := hsleep _ hun
        rcases hI.sleeper hr hcv with ⟨_, _, rfl⟩ | ⟨_, hinr, _⟩
        · exact hcv
        · cases hinr
      · rw [live, Finset.mem_filter, hth] at hp
        cases hp.2
    have hle := hplaces.resolve_left fun hno => hno _ hfull
    simp only [hwoken, hI.capacity, hlength, List.length_nil] at hle
    push_cast at hle
    omega

/-- Both producers sleep on `m_fullCV` and the consumer `true` on `m_emptyCV`. -/
theorem simple_not_stuck_two :
    ∃ c, Reachable ThreadSafeSimpleQueue.monitor simpleWorkers (simpleStart twoStreams 1 Bool) c ∧
      c.status (.inl 0) = .asleep .fullCV ∧ c.status (.inl 1) = .asleep .fullCV ∧
      c.status (.inr true) = .asleep .emptyCV ∧ ¬ Stuck simpleWorkers c := by
  let facts : SimpleConfig Nat Bool 2 → _ := fun c =>
    (decide (c.status (.inl 0) = .asleep .fullCV), decide (c.status (.inl 1) = .asleep .fullCV),
      decide (c.status (.inr true) = .asleep .emptyCV))
  have hschedule : (streamTwo [.inr false, .inr true, .inl 0, .inl 1, .inl 0]).map facts =
      some (true, true, true) := by
    decide +kernel
  obtain ⟨c, hc, hfacts⟩ := Option.map_eq_some_iff.mp hschedule
  obtain ⟨hfirst, hfacts⟩ := Prod.mk.inj hfacts
  obtain ⟨hsecond, hconsumer⟩ := Prod.mk.inj hfacts
  have hreach := reachable_streamTwo (by simp) hc
  exact ⟨c, hreach, of_decide_eq_true hfirst, of_decide_eq_true hsecond,
    of_decide_eq_true hconsumer, simple_not_stuck (by decide) hreach⟩

end SasLibclient
