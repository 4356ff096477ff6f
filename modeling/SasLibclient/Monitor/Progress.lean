import Mathlib.Algebra.BigOperators.Group.List.Basic
import Mathlib.Algebra.Order.BigOperators.Group.Finset
import Mathlib.Algebra.Order.Ring.Nat
import SasLibclient.Monitor.Sleepers

/-!
# Rules for runs that end

A rank that every return lowers and no wait raises bounds the returns of a run.
The waits are bounded with them: a wait puts one thread to sleep, and only a
return or a spurious wake-up takes threads off a condition variable.

* `Ranked`: such a rank, relied on in the states of an invariant;
* `Ranked.length_le`: the steps of a run, in the number of spurious wake-ups;
* `Step.exists_of_awake`: a thread that is awake and has a call can take a step;
* `Halted.finished`: where no state is stuck, a run ends only when all threads
  have finished;
* `Config.schedule`: the state after segments of given threads.
-/

namespace Monitors

variable {σ κ ι ρ ℓ τ : Type} [DecidableEq κ] [DecidableEq τ]
  {M : Monitor σ κ ι ρ} {P : Program ℓ ι ρ} {c₀ c c' : Config σ κ ι ρ ℓ τ}

/-- No thread has a call to make. -/
def Finished (P : Program ℓ ι ρ) (c : Config σ κ ι ρ ℓ τ) : Prop :=
  ∀ t, P.call (c.thread t) = none

/-- The steps of a run that are spurious wake-ups: those of sleeping threads. -/
def spurious (tr : List (Config σ κ ι ρ ℓ τ × τ)) : Nat :=
  tr.countP fun s => (s.1.status s.2).isAsleep

/-- Only spurious wake-ups are left. -/
def Halted (M : Monitor σ κ ι ρ) (P : Program ℓ ι ρ) (c : Config σ κ ι ρ ℓ τ) : Prop :=
  ∀ t c', Step M P c t c' → (c.status t).isAsleep = true

/-! ## Threads that can run -/

theorem Deliver.exists (S : List (Signal κ)) (st : τ → Status κ) : ∃ st', Deliver S st st' := by
  induction S generalizing st with
  | nil => exact ⟨st, .nil st⟩
  | cons s S ih =>
    cases s with
    | all cv =>
      obtain ⟨st', h⟩ := ih (wakeAll cv st)
      exact ⟨st', .all h⟩
    | one cv =>
      by_cases hsleep : ∃ t, st t = .asleep cv
      · obtain ⟨t, ht⟩ := hsleep
        obtain ⟨st', h⟩ := ih (Function.update st t .woken)
        exact ⟨st', .one t ht h⟩
      · obtain ⟨st', h⟩ := ih st
        exact ⟨st', .lost (fun t ht => hsleep ⟨t, ht⟩) h⟩

theorem Step.exists_of_awake {t : τ} {i : ι} (hcall : P.call (c.thread t) = some i)
    (hawake : (c.status t).isAsleep = false) : ∃ c', Step M P c t c' := by
  have hsegment : ∃ seg, M.segment (c.status t) i c.data = some seg := by
    cases hst : c.status t with
    | ready => exact ⟨_, rfl⟩
    | woken => exact ⟨_, rfl⟩
    | asleep cv => simp [hst, Status.isAsleep] at hawake
  obtain ⟨seg, hseg⟩ := hsegment
  obtain ⟨st, hdel⟩ := Deliver.exists seg.signals c.status
  cases hexit : seg.exit with
  | wait cv => exact ⟨_, .wait hcall hseg hdel hexit⟩
  | ret r => exact ⟨_, .ret hcall hseg hdel hexit⟩

/-- Where nobody is stuck, a run ends only when all threads have finished. -/
theorem Halted.finished (h : Halted M P c) (hstuck : ¬ Stuck P c) : Finished P c := by
  intro t
  by_contra hcall
  apply hstuck
  refine ⟨⟨t, hcall⟩, ?_⟩
  intro u hu
  obtain ⟨i, hi⟩ := Option.ne_none_iff_exists'.mp hu
  cases hst : c.status u with
  | asleep cv => exact ⟨cv, rfl⟩
  | ready | woken =>
    obtain ⟨c', hs⟩ := Step.exists_of_awake (M := M) hi (by rw [hst]; rfl)
    have hasleep := h u c' hs
    rw [hst] at hasleep
    cases hasleep

/-- When all threads have finished, nothing is left but spurious wake-ups. -/
theorem Finished.halted (h : Finished P c) : Halted M P c := by
  intro t c' hs
  cases hs with
  | wait hcall _ _ _ =>
    rw [h t] at hcall
    cases hcall
  | ret hcall _ _ _ =>
    rw [h t] at hcall
    cases hcall
  | spurious hasleep =>
    rw [hasleep]
    rfl

/-! ## Ranks -/

/-- In the states of `I`, the threads of `K` make all calls, a return lowers the
rank `Φ` of the data, the local states and the history, and a wait lowers it or
notifies nobody and does not raise it. -/
structure Ranked (M : Monitor σ κ ι ρ) (P : Program ℓ ι ρ) (I : Config σ κ ι ρ ℓ τ → Prop)
    (K : Finset τ) (Φ : σ → (τ → ℓ) → List (Event τ ι ρ) → Nat) : Prop where
  step : ∀ c t c', I c → Step M P c t c' → I c'
  mem : ∀ c t i, I c → P.call (c.thread t) = some i → t ∈ K
  waits : ∀ c t i seg cv, I c → P.call (c.thread t) = some i →
    M.segment (c.status t) i c.data = some seg → seg.exit = .wait cv →
    Φ seg.data c.thread c.history < Φ c.data c.thread c.history ∨
      seg.signals = [] ∧ Φ seg.data c.thread c.history ≤ Φ c.data c.thread c.history
  returns : ∀ c t i seg r st, I c → P.call (c.thread t) = some i →
    M.segment (c.status t) i c.data = some seg → Deliver seg.signals c.status st →
    seg.exit = .ret r →
    Φ seg.data (Function.update c.thread t (P.after (c.thread t) r)) (c.history ++ [⟨t, i, r⟩]) <
      Φ c.data c.thread c.history

/-- A return is worth more than all the waits it makes possible. -/
def weight (K : Finset τ) (Φ : σ → (τ → ℓ) → List (Event τ ι ρ) → Nat)
    (c : Config σ κ ι ρ ℓ τ) : Nat :=
  (K.card + 1) * Φ c.data c.thread c.history + awake K c.status

variable {I : Config σ κ ι ρ ℓ τ → Prop} {K : Finset τ}
  {Φ : σ → (τ → ℓ) → List (Event τ ι ρ) → Nat}

omit [DecidableEq κ] [DecidableEq τ] in
theorem awake_le_card (st : τ → Status κ) : awake K st ≤ K.card :=
  Finset.card_le_card (Finset.filter_subset _ _)

omit [DecidableEq κ] in
theorem awake_sleep {st : τ → Status κ} {t : τ} (hK : t ∈ K) (hawake : (st t).isAsleep = false)
    (cv : κ) : awake K (Function.update st t (.asleep cv)) + 1 = awake K st := by
  unfold awake
  have hrest : (K.filter fun u => (Function.update st t (.asleep cv) u).isAsleep = false) =
      (K.filter fun u => (st u).isAsleep = false).erase t := by
    ext u
    simp only [Finset.mem_filter, Finset.mem_erase]
    by_cases e : u = t
    · rw [e, Function.update_self]
      simp [Status.isAsleep]
    · rw [Function.update_of_ne e]
      simp [e]
  rw [hrest]
  exact Finset.card_erase_add_one (Finset.mem_filter.mpr ⟨hK, hawake⟩)

omit [DecidableEq κ] in
/-- A thread that wakes up raises the count by at most one. -/
theorem awake_wake (st : τ → Status κ) (t : τ) :
    awake K (Function.update st t .woken) ≤ awake K st + 1 := by
  unfold awake
  have hsub : (K.filter fun u => (Function.update st t .woken u).isAsleep = false) ⊆
      insert t (K.filter fun u => (st u).isAsleep = false) := by
    intro u hu
    simp only [Finset.mem_insert, Finset.mem_filter] at hu ⊢
    by_cases e : u = t
    · exact Or.inl e
    · rw [Function.update_of_ne e] at hu
      exact Or.inr hu
  exact le_trans (Finset.card_le_card hsub) (Finset.card_insert_le _ _)

/-- **One step**: the weight drops, unless the step is a spurious wake-up, which
raises it by at most one. -/
theorem Ranked.weight_step (h : Ranked M P I K Φ) {t : τ} (hI : I c) (hs : Step M P c t c') :
    ((c.status t).isAsleep = false → weight K Φ c' < weight K Φ c) ∧
      weight K Φ c' ≤ weight K Φ c + 1 := by
  cases hs with
  | @wait i seg st cv hcall hseg hdel hexit =>
    rcases h.waits c t i seg cv hI hcall hseg hexit with hrank | ⟨hquiet, hrank⟩
    · have hmul := Nat.mul_le_mul_left (K.card + 1) (Nat.succ_le_of_lt hrank)
      have hcount := awake_le_card (K := K) (Function.update st t (.asleep cv))
      simp only [weight, Nat.mul_succ] at hmul ⊢
      omega
    · rw [hquiet] at hdel
      cases hdel
      have hawake : (c.status t).isAsleep = false := by
        cases hst : c.status t with
        | ready | woken => rfl
        | asleep cv' => exact absurd hst (Monitor.segment_not_asleep hseg cv')
      have hcount := awake_sleep (h.mem c t i hI hcall) hawake cv
      have hmul := Nat.mul_le_mul_left (K.card + 1) hrank
      simp only [weight]
      omega
  | @ret i seg st r hcall hseg hdel hexit =>
    have hrank := h.returns c t i seg r st hI hcall hseg hdel hexit
    have hmul := Nat.mul_le_mul_left (K.card + 1) (Nat.succ_le_of_lt hrank)
    have hcount := awake_le_card (K := K) (Function.update st t .ready)
    simp only [weight, Nat.mul_succ] at hmul ⊢
    omega
  | @spurious cv hasleep =>
    have hcount := awake_wake (K := K) c.status t
    simp only [weight, hasleep, Status.isAsleep]
    simp only [Bool.true_eq_false, false_implies, true_and]
    omega

/-- **The steps of a run are bounded** in the number of spurious wake-ups. -/
theorem Ranked.length_le (h : Ranked M P I K Φ) (start : I c₀)
    {tr : List (Config σ κ ι ρ ℓ τ × τ)} (hrun : Run M P c₀ tr c) :
    tr.length + weight K Φ c ≤ weight K Φ c₀ + 2 * spurious tr := by
  induction hrun with
  | start => simp [spurious]
  | @step tr c c' t hrun hs ih =>
    have hkept : ∀ c t c', I c → True → Step M P c t c' → I c' :=
      fun c t c' hI _ hs => h.step c t c' hI hs
    have hI := hrun.invariant (by intros; trivial) start hkept
    obtain ⟨hdrop, hraise⟩ := h.weight_step hI hs
    simp only [List.length_append, List.length_singleton, spurious, List.countP_append,
      List.countP_singleton] at ih ⊢
    cases hasleep : (c.status t).isAsleep with
    | false =>
      have hlt := hdrop hasleep
      simp only [Bool.false_eq_true, if_false]
      omega
    | true =>
      simp only [if_true]
      omega

omit [DecidableEq κ] [DecidableEq τ] in
theorem weight_le_card (K : Finset τ) (Φ : σ → (τ → ℓ) → List (Event τ ι ρ) → Nat)
    (c : Config σ κ ι ρ ℓ τ) :
    weight K Φ c ≤ (K.card + 1) * Φ c.data c.thread c.history + K.card :=
  Nat.add_le_add_left (awake_le_card _) _

theorem sum_map_of_one {α : Type} [DecidableEq α] {l : List α} (hl : l.Nodup) {a : α} (ha : a ∈ l)
    {f g : α → Nat} (hother : ∀ b, b ≠ a → g b = f b) :
    (l.map g).sum + f a = (l.map f).sum + g a := by
  have hrest : (l.erase a).map g = (l.erase a).map f := by
    refine List.map_congr_left fun b hb => hother b ?_
    exact (hl.mem_erase_iff.mp hb).1
  rw [← List.sum_map_erase f ha, ← List.sum_map_erase g ha, hrest]
  omega

/-! ## Schedules -/

/-- The statuses after a list of notifications, when only threads of `L` sleep;
`notify_one` takes the first of them. -/
def deliver (L : List τ) : List (Signal κ) → (τ → Status κ) → (τ → Status κ)
  | [], st => st
  | .all cv :: S, st => deliver L S (wakeAll cv st)
  | .one cv :: S, st =>
    match L.find? fun t => decide (st t = .asleep cv) with
    | some t => deliver L S (Function.update st t .woken)
    | none => deliver L S st

/-- The state after a segment of the thread; `none` when it cannot run. -/
def Config.advance (M : Monitor σ κ ι ρ) (P : Program ℓ ι ρ) (L : List τ)
    (c : Config σ κ ι ρ ℓ τ) (t : τ) : Option (Config σ κ ι ρ ℓ τ) :=
  match P.call (c.thread t) with
  | none => none
  | some i =>
    match M.segment (c.status t) i c.data with
    | none => none
    | some seg =>
      let st := deliver L seg.signals c.status
      match seg.exit with
      | .ret r =>
        some
          { data := seg.data
            thread := Function.update c.thread t (P.after (c.thread t) r)
            status := Function.update st t .ready
            history := c.history ++ [⟨t, i, r⟩] }
      | .wait cv => some { c with data := seg.data, status := Function.update st t (.asleep cv) }

/-- The state after segments of the threads, one after the other. -/
def Config.schedule (M : Monitor σ κ ι ρ) (P : Program ℓ ι ρ) (L : List τ) :
    List τ → Config σ κ ι ρ ℓ τ → Option (Config σ κ ι ρ ℓ τ)
  | [], c => some c
  | t :: ts, c => (c.advance M P L t).bind (schedule M P L ts)

/-- Only threads of `L` sleep. -/
def SleepersIn (L : List τ) (st : τ → Status κ) : Prop := ∀ t cv, st t = .asleep cv → t ∈ L

omit [DecidableEq κ] in
theorem SleepersIn.update {L : List τ} {st : τ → Status κ} (h : SleepersIn L st) {t : τ}
    {s : Status κ} (hs : ∀ cv, s = .asleep cv → t ∈ L) : SleepersIn L (Function.update st t s) := by
  intro u cv hu
  by_cases e : u = t
  · rw [e, Function.update_self] at hu
    rw [e]
    exact hs cv hu
  · rw [Function.update_of_ne e] at hu
    exact h u cv hu

theorem SleepersIn.deliver {L : List τ} {st : τ → Status κ} (h : SleepersIn L st)
    (S : List (Signal κ)) : Deliver S st (deliver L S st) ∧ SleepersIn L (deliver L S st) := by
  induction S generalizing st with
  | nil => exact ⟨.nil st, h⟩
  | cons s S ih =>
    cases s with
    | all cv =>
      have hwoken : SleepersIn L (wakeAll cv st) := by
        intro t cv' ht
        unfold wakeAll at ht
        split at ht
        · cases ht
        · exact h t cv' ht
      exact ⟨.all (ih hwoken).1, (ih hwoken).2⟩
    | one cv =>
      unfold Monitors.deliver
      cases hfind : L.find? fun t => decide (st t = .asleep cv) with
      | some t =>
        have hasleep : st t = .asleep cv := by simpa using List.find?_some hfind
        have hwoken : SleepersIn L (Function.update st t .woken) := h.update nofun
        exact ⟨.one t hasleep (ih hwoken).1, (ih hwoken).2⟩
      | none =>
        have hnobody : ∀ t, st t ≠ .asleep cv := by
          intro t ht
          simpa [ht] using List.find?_eq_none.mp hfind t (h t cv ht)
        exact ⟨.lost hnobody (ih h).1, (ih h).2⟩

theorem Step.of_advance {L : List τ} {t : τ} (ht : t ∈ L) (hsleep : SleepersIn L c.status)
    (h : c.advance M P L t = some c') :
    Step M P c t c' ∧ (c.status t).isAsleep = false ∧ SleepersIn L c'.status := by
  unfold Config.advance at h
  split at h
  · cases h
  · rename_i i hcall
    split at h
    · cases h
    · rename_i seg hseg
      obtain ⟨hdel, hkept⟩ := hsleep.deliver seg.signals
      have hrunning : (c.status t).isAsleep = false := by
        cases hst : c.status t with
        | asleep cv => exact absurd hst (Monitor.segment_not_asleep hseg cv)
        | ready | woken => rfl
      dsimp only at h
      split at h
      · rename_i r hexit
        obtain rfl := Option.some.inj h
        exact ⟨.ret hcall hseg hdel hexit, hrunning, hkept.update nofun⟩
      · rename_i cv hexit
        obtain rfl := Option.some.inj h
        exact ⟨.wait hcall hseg hdel hexit, hrunning, hkept.update fun _ _ => ht⟩

/-- **A schedule is a run** without spurious wake-ups. -/
theorem Run.of_schedule {L ts : List τ} (hL : ∀ t ∈ ts, t ∈ L) (hsleep : SleepersIn L c.status)
    (h : Config.schedule M P L ts c = some c') :
    ∃ tr, Run M P c tr c' ∧ spurious tr = 0 ∧ SleepersIn L c'.status := by
  -- the segments run so far, and those that are left
  suffices hcont : ∀ ts (c₁ : Config σ κ ι ρ ℓ τ) tr, (∀ t ∈ ts, t ∈ L) → Run M P c tr c₁ →
      spurious tr = 0 → SleepersIn L c₁.status → Config.schedule M P L ts c₁ = some c' →
      ∃ tr, Run M P c tr c' ∧ spurious tr = 0 ∧ SleepersIn L c'.status from
    hcont ts c [] hL .start rfl hsleep h
  intro ts
  induction ts with
  | nil =>
    intro c₁ tr _ hrun hnone hsleep h
    obtain rfl := Option.some.inj h
    exact ⟨tr, hrun, hnone, hsleep⟩
  | cons t ts ih =>
    intro c₁ tr hL hrun hnone hsleep h
    obtain ⟨c₂, hadvance, hrest⟩ := Option.bind_eq_some_iff.mp h
    obtain ⟨hs, hrunning, hsleep'⟩ := Step.of_advance (hL t List.mem_cons_self) hsleep hadvance
    refine ih c₂ (tr ++ [(c₁, t)]) (fun u hu => hL u (List.mem_cons_of_mem _ hu)) (hrun.step hs) ?_
      hsleep' hrest
    simpa [spurious, hrunning] using hnone

end Monitors
