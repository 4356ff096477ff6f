import Mathlib.Data.Finset.Card
import SasLibclient.Monitor.Basic

/-!
# Rules for the threads asleep on a condition variable

* `SleepReason`: every sleeper still has a reason to sleep. `SleepReason.step`
  asks that a thread has the reason when it falls asleep, and that a segment
  which removes the reason of a sleeper notifies all of its condition variable.
* `Covered`: for `notify_one`. Items to be taken by the sleepers of `cv` are
  covered by as many awake threads, unless nobody sleeps on `cv`. A wake-up
  stolen by a thread that never slept does not break it.
* `Handed`: the same where threads finish while others sleep. The items are
  covered by threads that were woken and have not run yet.
* `OnlyInCall`: who is not `ready` is inside a call that may wait.
-/

namespace Monitors

variable {σ κ ι ρ ℓ τ : Type} [DecidableEq κ] [DecidableEq τ]
  {M : Monitor σ κ ι ρ} {P : Program ℓ ι ρ} {c c' : Config σ κ ι ρ ℓ τ}

/-! ## What notifications do to a status -/

omit [DecidableEq τ] in
theorem wakeAll_of_ne {cv : κ} {st : τ → Status κ} {t : τ} (h : st t ≠ .asleep cv) :
    wakeAll cv st t = st t := by
  simp [wakeAll, h]

omit [DecidableEq τ] in
theorem wakeAll_asleep {cv cv' : κ} {st : τ → Status κ} {t : τ}
    (h : wakeAll cv st t = .asleep cv') : st t = .asleep cv' ∧ cv' ≠ cv := by
  unfold wakeAll at h
  split at h
  · cases h
  · rename_i hne
    refine ⟨h, ?_⟩
    rintro rfl
    exact hne h

/-- Who is asleep after the notifications was asleep before, on a condition
variable that was not notified as a whole. -/
theorem Deliver.asleep {S : List (Signal κ)} {st st' : τ → Status κ} (h : Deliver S st st')
    {t : τ} {cv : κ} (ht : st' t = .asleep cv) : st t = .asleep cv ∧ Signal.all cv ∉ S := by
  induction h with
  | nil st => exact ⟨ht, by simp⟩
  | all _ ih =>
    obtain ⟨hw, hS⟩ := ih ht
    obtain ⟨hst, hne⟩ := wakeAll_asleep hw
    refine ⟨hst, ?_⟩
    simp only [List.mem_cons, Signal.all.injEq, not_or]
    exact ⟨hne, hS⟩
  | one t' _ _ ih =>
    obtain ⟨hw, hS⟩ := ih ht
    by_cases e : t = t'
    · subst e
      simp at hw
    · rw [Function.update_of_ne e] at hw
      exact ⟨hw, by simpa using hS⟩
  | lost _ _ ih =>
    obtain ⟨hst, hS⟩ := ih ht
    exact ⟨hst, by simpa using hS⟩

theorem Deliver.of_not_asleep {S : List (Signal κ)} {st st' : τ → Status κ}
    (h : Deliver S st st') {t : τ} (ht : ∀ cv, st t ≠ .asleep cv) : st' t = st t := by
  induction h with
  | nil st => rfl
  | @all cv S st st' _ ih =>
    have hw := wakeAll_of_ne (ht cv)
    rw [ih (fun cv' => by rw [hw]; exact ht cv'), hw]
  | @one cv S st st' t' ht' _ ih =>
    have hne : t ≠ t' := by
      rintro rfl
      exact ht cv ht'
    have hu : Function.update st t' Status.woken t = st t := Function.update_of_ne hne _ _
    rw [ih (fun cv' => by rw [hu]; exact ht cv'), hu]
  | lost _ _ ih => exact ih ht

/-- A sleeper that is not notified stays asleep. -/
theorem Deliver.stays_asleep {S : List (Signal κ)} {st st' : τ → Status κ}
    (h : Deliver S st st') {t : τ} {cv : κ} (ht : st t = .asleep cv)
    (hno : ∀ s ∈ S, s.cv ≠ cv) : st' t = .asleep cv := by
  induction h with
  | nil st => exact ht
  | @all cv' S st st' _ ih =>
    have hne : cv' ≠ cv := hno _ List.mem_cons_self
    refine ih ?_ fun s hs => hno s (List.mem_cons_of_mem _ hs)
    rw [wakeAll_of_ne]
    · exact ht
    · rw [ht]
      exact fun e => hne (Status.asleep.inj e).symm
  | @one cv' S st st' t' ht' _ ih =>
    have hne : cv' ≠ cv := hno _ List.mem_cons_self
    refine ih ?_ fun s hs => hno s (List.mem_cons_of_mem _ hs)
    rw [Function.update_of_ne]
    · exact ht
    · rintro rfl
      rw [ht] at ht'
      exact hne (Status.asleep.inj ht').symm
  | lost _ _ ih => exact ih ht fun s hs => hno s (List.mem_cons_of_mem _ hs)

/-! ## Every sleeper has a reason -/

/-- Every thread asleep on `cv` is inside a call `i`, and `W i cv` holds of
the data. -/
def SleepReason (P : Program ℓ ι ρ) (W : ι → κ → σ → Prop) (c : Config σ κ ι ρ ℓ τ) : Prop :=
  ∀ t cv, c.status t = .asleep cv → ∃ i, P.call (c.thread t) = some i ∧ W i cv c.data

/-- The step rule for `SleepReason`: `falls` when the running thread falls
asleep, `keeps` for every other sleeper that the segment does not notify. -/
theorem SleepReason.step {W : ι → κ → σ → Prop} {t : τ} (h : SleepReason P W c)
    (hs : Step M P c t c')
    (falls : ∀ i seg cv, P.call (c.thread t) = some i →
      M.segment (c.status t) i c.data = some seg → seg.exit = .wait cv → W i cv seg.data)
    (keeps : ∀ i seg, P.call (c.thread t) = some i →
      M.segment (c.status t) i c.data = some seg →
      ∀ t' i' cv, t' ≠ t → c.status t' = .asleep cv → P.call (c.thread t') = some i' →
        Signal.all cv ∉ seg.signals → W i' cv c.data → W i' cv seg.data) :
    SleepReason P W c' := by
  cases hs with
  | @wait i seg st cv₀ hcall hseg hdel hexit =>
    intro t' cv ht'
    by_cases e : t' = t
    · subst e
      simp only [Function.update_self, Status.asleep.injEq] at ht'
      subst ht'
      exact ⟨i, hcall, falls i seg _ hcall hseg hexit⟩
    · simp only [Function.update_of_ne e] at ht'
      obtain ⟨hst, hS⟩ := hdel.asleep ht'
      obtain ⟨i', hi', hW⟩ := h t' cv hst
      exact ⟨i', hi', keeps i seg hcall hseg t' i' cv e hst hi' hS hW⟩
  | @ret i seg st r hcall hseg hdel hexit =>
    intro t' cv ht'
    by_cases e : t' = t
    · subst e
      simp at ht'
    · simp only [Function.update_of_ne e] at ht' ⊢
      obtain ⟨hst, hS⟩ := hdel.asleep ht'
      obtain ⟨i', hi', hW⟩ := h t' cv hst
      exact ⟨i', hi', keeps i seg hcall hseg t' i' cv e hst hi' hS hW⟩
  | @spurious cv₀ hasleep =>
    intro t' cv ht'
    by_cases e : t' = t
    · subst e
      simp at ht'
    · simp only [Function.update_of_ne e] at ht'
      exact h t' cv ht'

omit [DecidableEq κ] [DecidableEq τ] in
theorem SleepReason.start {W : ι → κ → σ → Prop} (h : ∀ t, c.status t = .ready) :
    SleepReason P W c := by
  intro t cv ht
  rw [h t] at ht
  cases ht

/-! ## Counting the awake threads -/

def Status.isAsleep : Status κ → Bool
  | .asleep _ => true
  | _ => false

/-- The number of threads of `K` that are not asleep. -/
def awake (K : Finset τ) (st : τ → Status κ) : Nat :=
  (K.filter fun t => (st t).isAsleep = false).card

omit [DecidableEq κ] [DecidableEq τ] in
theorem awake_mono {K : Finset τ} {st st' : τ → Status κ}
    (h : ∀ t, (st t).isAsleep = false → (st' t).isAsleep = false) : awake K st ≤ awake K st' :=
  Finset.card_le_card fun t ht => by
    simp only [Finset.mem_filter] at ht ⊢
    exact ⟨ht.1, h t ht.2⟩

omit [DecidableEq κ] [DecidableEq τ] in
theorem awake_lt {K : Finset τ} {st st' : τ → Status κ}
    (h : ∀ t, (st t).isAsleep = false → (st' t).isAsleep = false)
    {t : τ} (hK : t ∈ K) (ht : (st t).isAsleep = true) (ht' : (st' t).isAsleep = false) :
    awake K st < awake K st' := by
  refine Finset.card_lt_card (Finset.ssubset_iff_of_subset ?_ |>.mpr ⟨t, ?_, ?_⟩)
  · intro u hu
    simp only [Finset.mem_filter] at hu ⊢
    exact ⟨hu.1, h u hu.2⟩
  · simp [hK, ht']
  · simp [ht]

omit [DecidableEq κ] [DecidableEq τ] in
theorem awake_congr {K : Finset τ} {st st' : τ → Status κ}
    (h : ∀ t ∈ K, (st t).isAsleep = (st' t).isAsleep) : awake K st = awake K st' := by
  unfold awake
  rw [Finset.filter_congr fun t ht => by rw [h t ht]]

theorem Deliver.isAsleep_mono {S : List (Signal κ)} {st st' : τ → Status κ}
    (h : Deliver S st st') (t : τ) (ht : (st t).isAsleep = false) :
    (st' t).isAsleep = false := by
  rw [h.of_not_asleep fun cv e => by simp [e, Status.isAsleep] at ht]
  exact ht

theorem Deliver.awake_le {S : List (Signal κ)} {st st' : τ → Status κ} (K : Finset τ)
    (h : Deliver S st st') : awake K st ≤ awake K st' :=
  awake_mono h.isAsleep_mono

/-- A `notify_one` on a condition variable with a sleeper wakes a thread. -/
theorem Deliver.awake_lt {S : List (Signal κ)} {st st' : τ → Status κ} {K : Finset τ} {cv : κ}
    (h : Deliver S st st') (hone : Signal.one cv ∈ S) (hK : ∀ t, st t = .asleep cv → t ∈ K)
    (hsleep : ∃ t, st t = .asleep cv) : awake K st < awake K st' := by
  induction h with
  | nil st => simp at hone
  | @all cv' S st st' hd ih =>
    obtain ⟨t, ht⟩ := hsleep
    have hone' : Signal.one cv ∈ S := by simpa using hone
    have hmono : ∀ u, (st u).isAsleep = false → (wakeAll cv' st u).isAsleep = false := by
      intro u hu
      rw [wakeAll_of_ne (by rintro e; simp [e, Status.isAsleep] at hu)]
      exact hu
    by_cases e : cv = cv'
    · subst e
      have hw : (wakeAll cv st t).isAsleep = false := by simp [wakeAll, ht, Status.isAsleep]
      exact lt_of_lt_of_le (Monitors.awake_lt hmono (hK t ht) (by simp [ht, Status.isAsleep]) hw)
        (hd.awake_le K)
    · have hne : st t ≠ .asleep cv' := by
        rw [ht]
        simpa using e
      refine lt_of_le_of_lt (awake_mono hmono) (ih hone' (fun u hu => ?_) ⟨t, ?_⟩)
      · exact hK u (wakeAll_asleep hu).1
      · rw [wakeAll_of_ne hne, ht]
  | @one cv' S st st' u hu hd ih =>
    have hmono : ∀ v, (st v).isAsleep = false →
        (Function.update st u Status.woken v).isAsleep = false := by
      intro v hv
      by_cases e : v = u
      · subst e
        simp [Status.isAsleep]
      · rw [Function.update_of_ne e]
        exact hv
    by_cases e : cv = cv'
    · subst e
      have hw : (Function.update st u Status.woken u).isAsleep = false := by
        simp [Status.isAsleep]
      exact lt_of_lt_of_le (Monitors.awake_lt hmono (hK u hu) (by simp [hu, Status.isAsleep]) hw)
        (hd.awake_le K)
    · obtain ⟨t, ht⟩ := hsleep
      have hne : t ≠ u := by
        rintro rfl
        rw [ht] at hu
        exact e (Status.asleep.inj hu)
      have hone' : Signal.one cv ∈ S := by simpa [e] using hone
      refine lt_of_le_of_lt (awake_mono hmono) (ih hone' (fun v hv => ?_) ⟨t, ?_⟩)
      · by_cases ev : v = u
        · subst ev
          simp at hv
        · rw [Function.update_of_ne ev] at hv
          exact hK v hv
      · rw [Function.update_of_ne hne]
        exact ht
  | @lost cv' S st st' hno _ ih =>
    obtain ⟨t, ht⟩ := hsleep
    have e : cv ≠ cv' := by
      rintro rfl
      exact hno t ht
    exact ih (by simpa [e] using hone) hK ⟨t, ht⟩

/-- A `notify_one` reaches the only sleeper. -/
theorem Deliver.wakes_sole {S : List (Signal κ)} {st st' : τ → Status κ} {cv : κ} {t : τ}
    (h : Deliver S st st') (hone : Signal.one cv ∈ S) (hsole : ∀ u, st u = .asleep cv → u = t) :
    st' t ≠ .asleep cv := by
  intro hasleep
  have hlt := h.awake_lt (K := {t}) hone (fun u hu => Finset.mem_singleton.mpr (hsole u hu))
    ⟨t, (h.asleep hasleep).1⟩
  have hnone : awake {t} st' = 0 := by
    refine Finset.card_eq_zero.mpr (Finset.filter_eq_empty_iff.mpr fun u hu => ?_)
    rw [Finset.mem_singleton.mp hu, hasleep]
    simp [Status.isAsleep]
  omega

/-- Nobody sleeps on `cv`, or the `n` items for its sleepers are covered by
awake threads of `K`. -/
def Covered (K : Finset τ) (cv : κ) (n : σ → Int) (c : Config σ κ ι ρ ℓ τ) : Prop :=
  (∀ t, c.status t ≠ .asleep cv) ∨ n c.data ≤ awake K c.status

omit [DecidableEq κ] in
private theorem awake_update {K : Finset τ} {st : τ → Status κ} {t : τ} {s : Status κ}
    (h : t ∈ K → (st t).isAsleep = s.isAsleep) : awake K (Function.update st t s) = awake K st := by
  refine awake_congr fun u hu => ?_
  by_cases e : u = t
  · subst e
    rw [Function.update_self, h hu]
  · rw [Function.update_of_ne e]

/-- The step rule for `Covered`. An item more comes with a `notify_one` on
`cv`; a thread falls asleep on `cv` only when no item is left; the threads of
`K` are exactly those that wait on `cv`, and they wait on nothing else. -/
theorem Covered.step {K : Finset τ} {cv : κ} {n : σ → Int} {t : τ} (h : Covered K cv n c)
    (hs : Step M P c t c') (hin : ∀ u, c.status u = .asleep cv → u ∈ K)
    (grows : ∀ i seg, P.call (c.thread t) = some i →
      M.segment (c.status t) i c.data = some seg →
      n seg.data ≤ n c.data ∨ n seg.data ≤ n c.data + 1 ∧ Signal.one cv ∈ seg.signals)
    (waits : ∀ i seg cv', P.call (c.thread t) = some i →
      M.segment (c.status t) i c.data = some seg → seg.exit = .wait cv' →
      (cv' = cv ∧ n seg.data ≤ 0) ∨ (cv' ≠ cv ∧ t ∉ K)) :
    Covered K cv n c' := by
  -- the effect of the notifications alone
  have deliver : ∀ i seg st, P.call (c.thread t) = some i →
      M.segment (c.status t) i c.data = some seg → Deliver seg.signals c.status st →
      (∀ u, st u ≠ .asleep cv) ∨ n seg.data ≤ awake K st := by
    intro i seg st hcall hseg hdel
    rcases h with hno | hle
    · exact Or.inl fun u hu => hno u (hdel.asleep hu).1
    · rcases grows i seg hcall hseg with hn | ⟨hn, hone⟩
      · have := hdel.awake_le K
        exact Or.inr (by omega)
      · by_cases hsl : ∃ u, c.status u = .asleep cv
        · have := hdel.awake_lt hone hin hsl
          exact Or.inr (by omega)
        · exact Or.inl fun u hu => hsl ⟨u, (hdel.asleep hu).1⟩
  cases hs with
  | @wait i seg st cv' hcall hseg hdel hexit =>
    rcases waits i seg cv' hcall hseg hexit with ⟨_, hn⟩ | ⟨hne, hK⟩
    · exact Or.inr (le_trans hn (by simp))
    · rcases deliver i seg st hcall hseg hdel with hno | hle
      · refine Or.inl fun u hu => ?_
        by_cases e : u = t
        · subst e
          simp only [Function.update_self, Status.asleep.injEq] at hu
          exact hne hu
        · simp only [Function.update_of_ne e] at hu
          exact hno u hu
      · refine Or.inr ?_
        simp only
        rw [awake_update fun hm => absurd hm hK]
        exact hle
  | @ret i seg st r hcall hseg hdel hexit =>
    have hrun : st t = c.status t := hdel.of_not_asleep (Monitor.segment_not_asleep hseg)
    rcases deliver i seg st hcall hseg hdel with hno | hle
    · refine Or.inl fun u hu => ?_
      by_cases e : u = t
      · subst e
        simp at hu
      · simp only [Function.update_of_ne e] at hu
        exact hno u hu
    · refine Or.inr ?_
      simp only
      rw [awake_update fun _ => ?_]
      · exact hle
      · have hna := Monitor.segment_not_asleep hseg
        rw [hrun]
        cases hst : c.status t with
        | asleep cv' => exact absurd hst (hna cv')
        | ready => rfl
        | woken => rfl
  | @spurious cv' hasleep =>
    rcases h with hno | hle
    · refine Or.inl fun u hu => ?_
      by_cases e : u = t
      · subst e
        simp at hu
      · simp only [Function.update_of_ne e] at hu
        exact hno u hu
    · refine Or.inr (le_trans hle ?_)
      have : awake K c.status ≤ awake K (Function.update c.status t .woken) := by
        refine awake_mono fun u hu => ?_
        by_cases e : u = t
        · subst e
          simp [Status.isAsleep]
        · rw [Function.update_of_ne e]
          exact hu
      exact_mod_cast this

/-! ## Woken threads -/

/-- A thread that is asleep or woken is inside a call of the kind `B`. -/
def OnlyInCall (P : Program ℓ ι ρ) (B : ι → Prop) (c : Config σ κ ι ρ ℓ τ) : Prop :=
  ∀ t, c.status t ≠ .ready → ∃ i, P.call (c.thread t) = some i ∧ B i

omit [DecidableEq κ] [DecidableEq τ] in
theorem OnlyInCall.start {B : ι → Prop} (h : ∀ t, c.status t = .ready) : OnlyInCall P B c :=
  fun t ht => absurd (h t) ht

/-- Notifications do not put a thread into a call. -/
theorem Deliver.of_ready {S : List (Signal κ)} {st st' : τ → Status κ} (h : Deliver S st st')
    {t : τ} (ht : st' t ≠ .ready) : st t ≠ .ready := by
  intro hready
  apply ht
  rw [h.of_not_asleep, hready]
  intro cv e
  rw [hready] at e
  cases e

/-- The step rule for `OnlyInCall`: only calls of the kind `B` wait. -/
theorem OnlyInCall.step {B : ι → Prop} {t : τ} (h : OnlyInCall P B c) (hs : Step M P c t c')
    (waits : ∀ i seg cv, P.call (c.thread t) = some i →
      M.segment (c.status t) i c.data = some seg → seg.exit = .wait cv → B i) :
    OnlyInCall P B c' := by
  intro u hu
  cases hs with
  | @wait i seg st cv hcall hseg hdel hexit =>
    by_cases e : u = t
    · subst e
      exact ⟨i, hcall, waits i seg cv hcall hseg hexit⟩
    · simp only [Function.update_of_ne e] at hu
      exact h u (hdel.of_ready hu)
  | @ret i seg st r hcall hseg hdel hexit =>
    by_cases e : u = t
    · subst e
      simp at hu
    · simp only [Function.update_of_ne e] at hu ⊢
      exact h u (hdel.of_ready hu)
  | @spurious cv hasleep =>
    apply h u
    by_cases e : u = t
    · subst e
      rw [hasleep]
      simp
    · simpa only [Function.update_of_ne e] using hu

/-- The number of threads of `K` that were woken and have not run since. -/
def woken (K : Finset τ) (st : τ → Status κ) : Nat :=
  (K.filter fun t => st t = .woken).card

/-- The number of threads of `K` that are not inside a call. -/
def idle (K : Finset τ) (st : τ → Status κ) : Nat :=
  (K.filter fun t => st t = .ready).card

theorem awake_eq (K : Finset τ) (st : τ → Status κ) : awake K st = woken K st + idle K st := by
  unfold awake woken idle
  rw [← Finset.card_union_of_disjoint]
  · congr 1
    ext t
    simp only [Finset.mem_filter, Finset.mem_union]
    cases st t <;> simp [Status.isAsleep]
  · apply Finset.disjoint_filter.mpr
    intro t _ hw hr
    rw [hw] at hr
    cases hr

theorem Deliver.idle_eq {S : List (Signal κ)} {st st' : τ → Status κ} (K : Finset τ)
    (h : Deliver S st st') : idle K st' = idle K st := by
  unfold idle
  congr 1
  apply Finset.filter_congr
  intro t _
  constructor
  · intro ht
    by_contra hne
    induction h with
    | nil st => exact hne ht
    | @all cv S st st' _ ih =>
      apply ih ht
      unfold wakeAll
      split
      · simp
      · exact hne
    | @one cv S st st' u _ _ ih =>
      apply ih ht
      by_cases e : t = u
      · subst e
        simp
      · rw [Function.update_of_ne e]
        exact hne
    | lost _ _ ih => exact ih ht hne
  · intro ht
    rw [h.of_not_asleep, ht]
    intro cv e
    rw [ht] at e
    cases e

theorem Deliver.woken_le {S : List (Signal κ)} {st st' : τ → Status κ} (K : Finset τ)
    (h : Deliver S st st') : woken K st ≤ woken K st' := by
  have hle := h.awake_le K
  rw [awake_eq, awake_eq, h.idle_eq K] at hle
  omega

/-- A `notify_one` on a condition variable with a sleeper wakes a thread. -/
theorem Deliver.woken_lt {S : List (Signal κ)} {st st' : τ → Status κ} {K : Finset τ} {cv : κ}
    (h : Deliver S st st') (hone : Signal.one cv ∈ S) (hK : ∀ t, st t = .asleep cv → t ∈ K)
    (hsleep : ∃ t, st t = .asleep cv) : woken K st < woken K st' := by
  have hlt := h.awake_lt hone hK hsleep
  rw [awake_eq, awake_eq, h.idle_eq K] at hlt
  omega

/-- A thread that is no longer woken lowers the count by one. -/
theorem woken_update (K : Finset τ) (st : τ → Status κ) (t : τ) {s : Status κ}
    (hs : s ≠ .woken) :
    woken K (Function.update st t s) + (if t ∈ K ∧ st t = .woken then 1 else 0) = woken K st := by
  unfold woken
  have hrest : (K.filter fun u => Function.update st t s u = .woken) =
      (K.filter fun u => st u = .woken).erase t := by
    ext u
    by_cases e : u = t
    · subst e
      simp [hs]
    · simp [e]
  rw [hrest]
  split
  · rename_i h
    exact Finset.card_erase_add_one (Finset.mem_filter.mpr h)
  · rename_i h
    rw [Finset.erase_eq_of_notMem, Nat.add_zero]
    intro hmem
    exact h (Finset.mem_filter.mp hmem)

/-- Nobody sleeps on `cv`, or the `n` items for its sleepers are covered by
woken threads of `K`. -/
def Handed (K : Finset τ) (cv : κ) (n : σ → Int) (c : Config σ κ ι ρ ℓ τ) : Prop :=
  (∀ t, c.status t ≠ .asleep cv) ∨ n c.data ≤ woken K c.status

omit [DecidableEq τ] in
theorem Handed.start {K : Finset τ} {cv : κ} {n : σ → Int} (h : ∀ t, c.status t = .ready) :
    Handed K cv n c := by
  left
  intro t ht
  rw [h t] at ht
  cases ht

/-- The step rule for `Handed`. A segment leaves no item, or it adds at most
one item for each `notify_one` on `cv` and, run by a woken thread of `K`, takes
one; a thread falls asleep on `cv` only when no item is left. -/
theorem Handed.step {K : Finset τ} {cv : κ} {n : σ → Int} {t : τ} (h : Handed K cv n c)
    (hs : Step M P c t c') (hin : ∀ u, c.status u = .asleep cv → u ∈ K)
    (takes : ∀ i seg, P.call (c.thread t) = some i →
      M.segment (c.status t) i c.data = some seg → n seg.data ≤ 0 ∨
      seg.exit ≠ .wait cv ∧
        n seg.data + (if t ∈ K ∧ c.status t = .woken then 1 else 0) ≤
          n c.data + (if Signal.one cv ∈ seg.signals then 1 else 0)) :
    Handed K cv n c' := by
  -- the segment of a thread that has status `s ≠ woken` after it
  have run : ∀ i seg st s, P.call (c.thread t) = some i →
      M.segment (c.status t) i c.data = some seg → Deliver seg.signals c.status st →
      s ≠ .woken → (∀ cv', s = .asleep cv' → seg.exit = .wait cv') →
      (∀ u, Function.update st t s u ≠ .asleep cv) ∨
        n seg.data ≤ woken K (Function.update st t s) := by
    intro i seg st s hcall hseg hdel hs hexit
    rcases takes i seg hcall hseg with hzero | ⟨hne, hn⟩
    · exact Or.inr (le_trans hzero (by simp))
    by_cases hsl : ∃ u, Function.update st t s u = .asleep cv
    · obtain ⟨u, hu⟩ := hsl
      have hut : u ≠ t := by
        rintro rfl
        rw [Function.update_self] at hu
        exact hne (hexit cv hu)
      rw [Function.update_of_ne hut] at hu
      have hasleep := (hdel.asleep hu).1
      have hle : n c.data ≤ woken K c.status := h.resolve_left fun hno => hno u hasleep
      have hrun : st t = c.status t := hdel.of_not_asleep (Monitor.segment_not_asleep hseg)
      have hupdate := woken_update K st t hs
      rw [hrun] at hupdate
      right
      by_cases hone : Signal.one cv ∈ seg.signals
      · have hlt := hdel.woken_lt hone hin ⟨u, hasleep⟩
        rw [if_pos hone] at hn
        push_cast [← hupdate] at hlt
        split at hn <;> split at hlt <;> first | omega | contradiction
      · have hmono := hdel.woken_le K
        rw [if_neg hone] at hn
        push_cast [← hupdate] at hmono
        split at hn <;> split at hmono <;> first | omega | contradiction
    · left
      intro u hu
      exact hsl ⟨u, hu⟩
  cases hs with
  | @wait i seg st cv' hcall hseg hdel hexit =>
    apply run i seg st (.asleep cv') hcall hseg hdel
    · simp
    · rintro cv'' ⟨⟩
      exact hexit
  | @ret i seg st r hcall hseg hdel hexit =>
    apply run i seg st .ready hcall hseg hdel
    · simp
    · rintro cv'' ⟨⟩
  | @spurious cv' hasleep =>
    rcases h with hno | hle
    · left
      intro u hu
      by_cases e : u = t
      · subst e
        simp at hu
      · simp only [Function.update_of_ne e] at hu
        exact hno u hu
    · right
      have hmono : woken K c.status ≤ woken K (Function.update c.status t .woken) := by
        apply Finset.card_le_card
        intro u hu
        simp only [Finset.mem_filter] at hu ⊢
        refine ⟨hu.1, ?_⟩
        by_cases e : u = t
        · rw [e, Function.update_self]
        · rw [Function.update_of_ne e]
          exact hu.2
      exact le_trans hle (by exact_mod_cast hmono)

end Monitors
