import Mathlib.Logic.Function.Basic

/-!
# Monitors with condition variables

Shared data behind one lock, calls that run under it, and threads that make
those calls. A call is cut into *segments*: a segment runs from the moment the
lock is taken (`enter`) or taken again after a wait (`resume`) to the moment
it is released, which is either a wait on a condition variable or the return.
A condition variable is the set of threads asleep on it: `notify_all` empties
it, `notify_one` removes one thread of its choice, and a thread may also wake
up on its own.

* `Step`: one segment of one thread, or one spurious wake-up;
* `Run`, `Reachable`: every interleaving of steps from a start configuration;
* `Reachable.invariant`: what holds at the start and is kept by every step;
* `Run.invariant`: the same along the runs whose steps all meet a condition;
* `LocalInvariant`: one property of the data and one of every thread's local
  state, each relied on to keep the other;
* `Stuck`: some thread has a call to make and all such threads are asleep.
-/

namespace Monitors

/-- A notification sent while the lock is held. -/
inductive Signal (κ : Type) where
  | one (cv : κ)
  | all (cv : κ)
  deriving DecidableEq, Repr

def Signal.cv {κ : Type} : Signal κ → κ
  | .one cv => cv
  | .all cv => cv

/-- How a segment releases the lock. -/
inductive Exit (κ ρ : Type) where
  | wait (cv : κ)
  | ret (r : ρ)
  deriving DecidableEq, Repr

/-- What a segment does: the data it leaves, the notifications it sends in
order, and how it ends. -/
structure Segment (σ κ ρ : Type) where
  data : σ
  signals : List (Signal κ)
  exit : Exit κ ρ

/-- The calls of a monitor: the segment from the entry, and the segment from
the place where the call waits. -/
structure Monitor (σ κ ι ρ : Type) where
  enter : ι → σ → Segment σ κ ρ
  resume : ι → σ → Segment σ κ ρ

/-- The code of the threads: the next call of a local state (`none` when the
thread has finished) and the local state after the call returns. -/
structure Program (ℓ ι ρ : Type) where
  call : ℓ → Option ι
  after : ℓ → ρ → ℓ

/-- `asleep cv`: on the condition variable and not notified; `woken`: taken
off it, waiting for the lock; `ready`: not inside a call. -/
inductive Status (κ : Type) where
  | ready
  | asleep (cv : κ)
  | woken
  deriving DecidableEq, Repr

structure Event (τ ι ρ : Type) where
  thread : τ
  call : ι
  result : ρ
  deriving DecidableEq, Repr

/-- A state of the whole system; `history` lists the completed calls, oldest
first. -/
structure Config (σ κ ι ρ ℓ τ : Type) where
  data : σ
  thread : τ → ℓ
  status : τ → Status κ
  history : List (Event τ ι ρ)

variable {σ κ ι ρ ℓ τ : Type}

/-- The configuration with other local states. -/
def Config.map {ℓ' : Type} (f : ℓ → ℓ') (c : Config σ κ ι ρ ℓ τ) : Config σ κ ι ρ ℓ' τ where
  data := c.data
  thread := fun t => f (c.thread t)
  status := c.status
  history := c.history

/-- The segment a thread of status `s` runs when it gets the lock. -/
def Monitor.segment (M : Monitor σ κ ι ρ) (s : Status κ) (i : ι) (d : σ) :
    Option (Segment σ κ ρ) :=
  match s with
  | .ready => some (M.enter i d)
  | .woken => some (M.resume i d)
  | .asleep _ => none

theorem Monitor.segment_eq_some {M : Monitor σ κ ι ρ} {s : Status κ} {i : ι} {d : σ}
    {seg : Segment σ κ ρ} (h : M.segment s i d = some seg) :
    seg = M.enter i d ∨ seg = M.resume i d := by
  cases s with
  | ready => exact Or.inl (Option.some.inj h).symm
  | woken => exact Or.inr (Option.some.inj h).symm
  | asleep cv => simp [Monitor.segment] at h

theorem Monitor.segment_not_asleep {M : Monitor σ κ ι ρ} {s : Status κ} {i : ι} {d : σ}
    {seg : Segment σ κ ρ} (h : M.segment s i d = some seg) (cv : κ) : s ≠ .asleep cv := by
  rintro rfl
  simp [Monitor.segment] at h

theorem Monitor.segment_of_ready {M : Monitor σ κ ι ρ} {s : Status κ} (hready : s = .ready) (i : ι)
    (d : σ) : M.segment s i d = some (M.enter i d) := by
  rw [hready]
  rfl

section Delivery

variable [DecidableEq κ] [DecidableEq τ]

/-- `notify_all` on `cv`. -/
def wakeAll (cv : κ) (st : τ → Status κ) : τ → Status κ :=
  fun t => if st t = .asleep cv then .woken else st t

/-- The statuses after a list of notifications; `notify_one` picks any
sleeper. -/
inductive Deliver : List (Signal κ) → (τ → Status κ) → (τ → Status κ) → Prop
  | nil (st : τ → Status κ) : Deliver [] st st
  | all {cv : κ} {S : List (Signal κ)} {st st' : τ → Status κ} :
      Deliver S (wakeAll cv st) st' → Deliver (.all cv :: S) st st'
  | one {cv : κ} {S : List (Signal κ)} {st st' : τ → Status κ} (t : τ) :
      st t = .asleep cv → Deliver S (Function.update st t .woken) st' →
      Deliver (.one cv :: S) st st'
  | lost {cv : κ} {S : List (Signal κ)} {st st' : τ → Status κ} :
      (∀ t, st t ≠ .asleep cv) → Deliver S st st' → Deliver (.one cv :: S) st st'

omit [DecidableEq τ] in
theorem wakeAll_of_unheard {cv : κ} {st : τ → Status κ} (h : ∀ t, st t ≠ .asleep cv) :
    wakeAll cv st = st := by
  funext t
  exact if_neg (h t)

/-- Notifications that nobody waits for change nothing. -/
theorem Deliver.of_unheard {S : List (Signal κ)} {st : τ → Status κ}
    (h : ∀ s ∈ S, ∀ t, st t ≠ .asleep s.cv) : Deliver S st st := by
  induction S with
  | nil => exact .nil st
  | cons s S ih =>
    have hS := ih fun s' hs' => h s' (List.mem_cons_of_mem _ hs')
    have hs := h s List.mem_cons_self
    cases s with
    | one cv => exact .lost hs hS
    | all cv =>
      refine .all ?_
      rw [show wakeAll cv st = st from wakeAll_of_unheard hs]
      exact hS

theorem Deliver.of_all_ready {S : List (Signal κ)} {st : τ → Status κ} (hready : ∀ t, st t = .ready) :
    Deliver S st st := by
  refine .of_unheard ?_
  intro s _ t ht
  rw [hready t] at ht
  cases ht

/-- One step of thread `t`. -/
inductive Step (M : Monitor σ κ ι ρ) (P : Program ℓ ι ρ) :
    Config σ κ ι ρ ℓ τ → τ → Config σ κ ι ρ ℓ τ → Prop
  | wait {c : Config σ κ ι ρ ℓ τ} {t : τ} {i : ι} {seg : Segment σ κ ρ}
      {st : τ → Status κ} {cv : κ} :
      P.call (c.thread t) = some i → M.segment (c.status t) i c.data = some seg →
      Deliver seg.signals c.status st → seg.exit = .wait cv →
      Step M P c t
        { c with data := seg.data, status := Function.update st t (.asleep cv) }
  | ret {c : Config σ κ ι ρ ℓ τ} {t : τ} {i : ι} {seg : Segment σ κ ρ}
      {st : τ → Status κ} {r : ρ} :
      P.call (c.thread t) = some i → M.segment (c.status t) i c.data = some seg →
      Deliver seg.signals c.status st → seg.exit = .ret r →
      Step M P c t
        { data := seg.data
          thread := Function.update c.thread t (P.after (c.thread t) r)
          status := Function.update st t .ready
          history := c.history ++ [⟨t, i, r⟩] }
  | spurious {c : Config σ κ ι ρ ℓ τ} {t : τ} {cv : κ} :
      c.status t = .asleep cv →
      Step M P c t { c with status := Function.update c.status t .woken }

/-- A run from `c₀`, with the list of its steps: the state before the step
and the thread that takes it. -/
inductive Run (M : Monitor σ κ ι ρ) (P : Program ℓ ι ρ) (c₀ : Config σ κ ι ρ ℓ τ) :
    List (Config σ κ ι ρ ℓ τ × τ) → Config σ κ ι ρ ℓ τ → Prop
  | start : Run M P c₀ [] c₀
  | step {tr : List (Config σ κ ι ρ ℓ τ × τ)} {c c' : Config σ κ ι ρ ℓ τ} {t : τ} :
      Run M P c₀ tr c → Step M P c t c' → Run M P c₀ (tr ++ [(c, t)]) c'

/-- Some interleaving leads from `c₀` to `c`. -/
def Reachable (M : Monitor σ κ ι ρ) (P : Program ℓ ι ρ) (c₀ c : Config σ κ ι ρ ℓ τ) : Prop :=
  ∃ tr, Run M P c₀ tr c

variable {M : Monitor σ κ ι ρ} {P : Program ℓ ι ρ} {c₀ c c' : Config σ κ ι ρ ℓ τ}

/-- A step leaves the data alone or runs a segment of the thread's call. -/
theorem Step.data_cases {t : τ} (h : Step M P c t c') :
    c'.data = c.data ∨ ∃ i seg, P.call (c.thread t) = some i ∧
      M.segment (c.status t) i c.data = some seg ∧ c'.data = seg.data := by
  cases h with
  | @wait i seg st cv hi hseg hdel hexit => exact Or.inr ⟨i, seg, hi, hseg, rfl⟩
  | @ret i seg st r hi hseg hdel hexit => exact Or.inr ⟨i, seg, hi, hseg, rfl⟩
  | spurious _ => exact Or.inl rfl

/-- A step leaves the local states alone or completes the thread's call. -/
theorem Step.thread_cases {t : τ} (h : Step M P c t c') :
    c'.thread = c.thread ∨
      ∃ r, c'.thread = Function.update c.thread t (P.after (c.thread t) r) := by
  cases h with
  | wait hi hseg hdel hexit => exact Or.inl rfl
  | @ret i seg st r hi hseg hdel hexit => exact Or.inr ⟨r, rfl⟩
  | spurious _ => exact Or.inl rfl

theorem Reachable.refl : Reachable M P c₀ c₀ := ⟨[], .start⟩

theorem Reachable.next {t : τ} (h : Reachable M P c₀ c) (hs : Step M P c t c') :
    Reachable M P c₀ c' := by
  obtain ⟨tr, hr⟩ := h
  exact ⟨tr ++ [(c, t)], hr.step hs⟩

/-- **Another program for the same calls**: the thread that takes the step makes
the same call, and its next local state is the image of its next one. -/
theorem Step.map {ℓ' : Type} {P' : Program ℓ' ι ρ} {t : τ} (f : ℓ → ℓ') (h : Step M P c t c')
    (hcall : P'.call (f (c.thread t)) = P.call (c.thread t))
    (hafter : ∀ r, P'.after (f (c.thread t)) r = f (P.after (c.thread t) r)) :
    Step M P' (c.map f) t (c'.map f) := by
  cases h with
  | wait hi hseg hdel hexit => exact .wait (hcall.trans hi) hseg hdel hexit
  | @ret i seg st r hi hseg hdel hexit =>
    have hthread : (fun t' => f (Function.update c.thread t (P.after (c.thread t) r) t')) =
        Function.update (c.map f).thread t (P'.after ((c.map f).thread t) r) := by
      rw [show (c.map f).thread t = f (c.thread t) from rfl, hafter]
      exact Function.comp_update f c.thread t _
    have hstep := Step.ret (M := M) (P := P') (c := c.map f) (hcall.trans hi) hseg hdel hexit
    rw [← hthread] at hstep
    exact hstep
  | spurious hasleep => exact .spurious hasleep

/-- A call that returns, while no thread is inside a call. -/
theorem Step.of_ready {t : τ} {i : ι} {r : ρ} (hready : ∀ t, c.status t = .ready)
    (hcall : P.call (c.thread t) = some i) (hexit : (M.enter i c.data).exit = .ret r) :
    ∃ c', Step M P c t c' ∧ c'.data = (M.enter i c.data).data ∧
      c'.thread = Function.update c.thread t (P.after (c.thread t) r) ∧
      ∀ t, c'.status t = .ready := by
  have hsegment := Monitor.segment_of_ready (M := M) (hready t) i c.data
  refine ⟨_, .ret hcall hsegment (.of_all_ready hready) hexit, rfl, rfl, ?_⟩
  intro t'
  by_cases e : t' = t
  · rw [e]
    exact Function.update_self _ _ _
  · rw [← hready t']
    exact Function.update_of_ne e _ _

/-- A call that returns, while no thread sleeps. -/
theorem Step.of_awake {t : τ} {i : ι} {r : ρ} {seg : Segment σ κ ρ}
    (hawake : ∀ u cv, c.status u ≠ .asleep cv) (hcall : P.call (c.thread t) = some i)
    (hseg : M.segment (c.status t) i c.data = some seg) (hexit : seg.exit = .ret r) :
    Step M P c t
      { data := seg.data
        thread := Function.update c.thread t (P.after (c.thread t) r)
        status := Function.update c.status t .ready
        history := c.history ++ [⟨t, i, r⟩] } :=
  .ret hcall hseg (.of_unheard fun s _ u => hawake u s.cv) hexit

/-- The configuration in which `t` has fallen asleep on `cv`. -/
def Config.sleep (c : Config σ κ ι ρ ℓ τ) (t : τ) (cv : κ) : Config σ κ ι ρ ℓ τ :=
  { c with status := Function.update c.status t (.asleep cv) }

omit [DecidableEq κ] in
theorem Config.status_sleep {t : τ} {cv : κ} : (c.sleep t cv).status t = .asleep cv :=
  Function.update_self _ _ _

omit [DecidableEq κ] in
theorem Config.status_sleep_ne {t u : τ} {cv : κ} (hu : u ≠ t) :
    (c.sleep t cv).status u = c.status u :=
  Function.update_of_ne hu _ _

theorem Step.sleep {t : τ} {i : ι} {cv : κ} (hready : c.status t = .ready)
    (hcall : P.call (c.thread t) = some i) (henter : M.enter i c.data = ⟨c.data, [], .wait cv⟩) :
    Step M P c t (c.sleep t cv) := by
  have hdeliver : Deliver (M.enter i c.data).signals c.status c.status := by
    rw [henter]
    exact .nil _
  have hexit : (M.enter i c.data).exit = .wait cv := by
    rw [henter]
  have hstep := Step.wait hcall (Monitor.segment_of_ready hready i c.data) hdeliver hexit
  rw [henter] at hstep
  exact hstep

/-- While no thread is inside a call, a thread that has a call can make it. -/
theorem Step.exists_of_ready {t : τ} {i : ι} (hready : ∀ t, c.status t = .ready)
    (hcall : P.call (c.thread t) = some i) : ∃ c', Step M P c t c' := by
  have hsegment := Monitor.segment_of_ready (M := M) (hready t) i c.data
  cases hexit : (M.enter i c.data).exit with
  | wait cv => exact ⟨_, .wait hcall hsegment (.of_all_ready hready) hexit⟩
  | ret r => exact ⟨_, .ret hcall hsegment (.of_all_ready hready) hexit⟩

/-- **Invariants of all runs.** -/
theorem Reachable.invariant {I : Config σ κ ι ρ ℓ τ → Prop} (h : Reachable M P c₀ c)
    (start : I c₀) (step : ∀ c t c', I c → Step M P c t c' → I c') : I c := by
  obtain ⟨tr, hr⟩ := h
  induction hr with
  | start => exact start
  | step _ hs ih => exact step _ _ _ ih hs

/-- **Invariants of the runs whose steps all meet `ok`.** -/
theorem Run.invariant {I : Config σ κ ι ρ ℓ τ → Prop} {ok : Config σ κ ι ρ ℓ τ → τ → Prop}
    {tr : List (Config σ κ ι ρ ℓ τ × τ)} (h : Run M P c₀ tr c)
    (hok : ∀ s ∈ tr, ok s.1 s.2) (start : I c₀)
    (step : ∀ c t c', I c → ok c t → Step M P c t c' → I c') : I c := by
  induction h with
  | start => exact start
  | step _ hs ih =>
    have hlast := hok _ (List.mem_append_right _ (List.mem_singleton.mpr rfl))
    exact step _ _ _ (ih fun s hm => hok s (List.mem_append_left _ hm)) hlast hs

theorem Run.invariant_before {I : Config σ κ ι ρ ℓ τ → Prop}
    {ok : Config σ κ ι ρ ℓ τ → τ → Prop} {tr : List (Config σ κ ι ρ ℓ τ × τ)} (h : Run M P c₀ tr c)
    (hok : ∀ s ∈ tr, ok s.1 s.2) (start : I c₀)
    (step : ∀ c t c', I c → ok c t → Step M P c t c' → I c') : ∀ s ∈ tr, I s.1 := by
  induction h with
  | start => simp
  | @step tr c c' t hrun hs ih =>
    have hbefore : ∀ s ∈ tr, ok s.1 s.2 := fun s hm => hok s (List.mem_append_left _ hm)
    intro s hm
    rcases List.mem_append.mp hm with hold | hlast
    · exact ih hbefore s hold
    · rw [List.mem_singleton.mp hlast]
      exact hrun.invariant hbefore start step

/-- A segment that starts with data in `D`, of a thread in `J`, leaves both. -/
structure LocalInvariant (M : Monitor σ κ ι ρ) (P : Program ℓ ι ρ) (D : σ → Prop) (J : ℓ → Prop) :
    Prop where
  data : ∀ l i s d seg, J l → D d → P.call l = some i → M.segment s i d = some seg → D seg.data
  after : ∀ l i s d seg r, J l → D d → P.call l = some i → M.segment s i d = some seg →
    seg.exit = .ret r → J (P.after l r)

/-- **Invariants of the data and of every thread.** -/
theorem LocalInvariant.reachable {D : σ → Prop} {J : ℓ → Prop} (h : LocalInvariant M P D J)
    (hreach : Reachable M P c₀ c) (hdata : D c₀.data) (hthreads : ∀ t, J (c₀.thread t)) :
    D c.data ∧ ∀ t, J (c.thread t) := by
  refine hreach.invariant (I := fun c => D c.data ∧ ∀ t, J (c.thread t)) ⟨hdata, hthreads⟩ ?_
  rintro c t c' ⟨hd, hJ⟩ hs
  cases hs with
  | @wait i seg st cv hi hseg hdel hexit => exact ⟨h.data _ i _ _ seg (hJ t) hd hi hseg, hJ⟩
  | @ret i seg st r hi hseg hdel hexit =>
    refine ⟨h.data _ i _ _ seg (hJ t) hd hi hseg, ?_⟩
    intro t'
    by_cases e : t' = t
    · rw [e]
      simpa only [Function.update_self] using h.after _ i _ _ seg r (hJ t) hd hi hseg hexit
    · simpa only [Function.update_of_ne e] using hJ t'
  | spurious _ => exact ⟨hd, hJ⟩

/-- The thread has a call to make. -/
def Unfinished (P : Program ℓ ι ρ) (c : Config σ κ ι ρ ℓ τ) (t : τ) : Prop :=
  P.call (c.thread t) ≠ none

/-- Some thread has not finished, and every such thread is asleep and not
notified. -/
def Stuck (P : Program ℓ ι ρ) (c : Config σ κ ι ρ ℓ τ) : Prop :=
  (∃ t, Unfinished P c t) ∧ ∀ t, Unfinished P c t → ∃ cv, c.status t = .asleep cv

end Delivery

end Monitors
