import SasLibclient.Queue.PopMode

/-!
# What the consumers of a `Pop` run record

Each consumer of the first pass records the `(partition, id)` pairs it popped,
in order, and asks for them again in later passes (`MultiPassQueue::GetById`).
`Recorded` is the invariant of the records during the first pass, and
`ReplayPlan` what is left of it when the pass is complete: the records divide
the chunks among the consumers, and each of them runs through the batches in
order.
-/

namespace SasLibclient

open Monitors QueueItem ThreadSafeBatchQueue

variable {T ς : Type} [QueueItem T]

/-- The pair under which a chunk is asked for. -/
def keyOf (v : T) : Int × Nat := (partitionId v, itemId v)

def records (c : QueueConfig T ς) (s : ς) : List (Int × Nat) :=
  (c.thread (.inr s)).received.map keyOf

/-- Lists of requests that divide the chunks of `S` among the consumers, batch
by batch. Without consumers no producer has more than one batch. -/
structure ReplayPlan (S : Producers T) (B : Nat) (requests : ς → List (Int × Nat)) : Prop where
  valid : ∀ s, ∀ r ∈ requests s, r.1 ∈ S.ids ∧ r.2 < (S.stream r.1).length
  nodup : ∀ s, (requests s).Nodup
  disjoint : ∀ s s', ∀ r, r ∈ requests s → r ∈ requests s' → s = s'
  sorted : ∀ s, (requests s).Pairwise fun r r' => r.2 / B ≤ r'.2 / B
  covers : (∀ p ∈ S.ids, ∀ i < (S.stream p).length, ∃ s, (p, i) ∈ requests s) ∨
    ∀ p ∈ S.ids, (S.stream p).length ≤ B

structure Recorded (c : QueueConfig T ς) : Prop where
  sorted : ∀ s, (c.thread (.inr s)).received.Pairwise
    fun v w => itemId v / c.data.batchSize ≤ itemId w / c.data.batchSize
  batch : ∀ s, ∀ v ∈ (c.thread (.inr s)).received,
    itemId v / c.data.batchSize ≤ c.data.currentBatch
  popped : ∀ s, ∀ v ∈ (c.thread (.inr s)).received, v ∈ popped c.history
  covers : ∀ v ∈ SasLibclient.popped c.history, ∃ s, v ∈ (c.thread (.inr s)).received
  nodup : ∀ s, (c.thread (.inr s)).received.Nodup
  disjoint : ∀ s s', ∀ v, v ∈ (c.thread (.inr s)).received →
    v ∈ (c.thread (.inr s')).received → s = s'

variable {S : Producers T} {B : Nat} {c c' : QueueConfig T ς}

theorem Recorded.start : Recorded (popStart S B ς) := by
  constructor <;> simp [popStart, startConfig, Worker.received]

/-- A step that delivers nothing keeps the records. -/
theorem Recorded.congr (h : Recorded c)
    (hth : ∀ s, (c'.thread (.inr s)).received = (c.thread (.inr s)).received)
    (hB : c'.data.batchSize = c.data.batchSize)
    (hcur : c.data.currentBatch ≤ c'.data.currentBatch)
    (hh : SasLibclient.popped c'.history = SasLibclient.popped c.history) : Recorded c' where
  sorted := fun s => by
    rw [hth, hB]
    exact h.sorted s
  batch := fun s v hv => by
    rw [hth] at hv
    rw [hB]
    exact le_trans (h.batch s v hv) hcur
  popped := fun s v hv => by
    rw [hth] at hv
    rw [hh]
    exact h.popped s v hv
  covers := fun v hv => by
    rw [hh] at hv
    obtain ⟨s, hs⟩ := h.covers v hv
    exact ⟨s, by rw [hth]; exact hs⟩
  nodup := fun s => by
    rw [hth]
    exact h.nodup s
  disjoint := fun s s' v hv hv' => by
    rw [hth] at hv hv'
    exact h.disjoint s s' v hv hv'

variable [DecidableEq ς]

/-- **A popped chunk is recorded** by the consumer that popped it, and by nobody
else. -/
theorem Recorded.pop (h : Recorded c) (hI : PopInv S c) {s : ς} {received rest : List T} {v : T}
    (ht : c.thread (.inr s) = .popper received) (hq : c.data.queue = v :: rest)
    (hd : c'.data = (afterRead v rest c.data).resetIfFinished.1)
    (hth : c'.thread = Function.update c.thread (.inr s) (.popper (received ++ [v])))
    (hh : c'.history = c.history ++ [⟨.inr s, .pop, .value v⟩]) : Recorded c' := by
  have hB : c'.data.batchSize = c.data.batchSize := by
    rw [hd]
    exact resetIfFinished_batchSize _
  have hcur : c.data.currentBatch ≤ c'.data.currentBatch := by
    rw [hd]
    exact resetIfFinished_currentBatch_le (q := afterRead v rest c.data)
  have hpopped : SasLibclient.popped c'.history = SasLibclient.popped c.history ++ [v] := by
    rw [hh, popped_append]
    rfl
  have hnew : v ∉ SasLibclient.popped c.history := by
    have hnodup := hI.base.pushed_nodup
    rw [hI.order, hq] at hnodup
    intro hmem
    exact (List.nodup_append.mp hnodup).2.2 v hmem v List.mem_cons_self rfl
  have hbatch : itemId v / c.data.batchSize = c.data.currentBatch := by
    have hmem : v ∈ c.data.queue := by
      rw [hq]
      exact List.mem_cons_self
    exact (hI.base.inv.stored_spec v hmem).2.1
  have hown : (c.thread (.inr s)).received = received := by
    rw [ht]
    rfl
  have hsame : (c'.thread (.inr s)).received = received ++ [v] := by
    rw [hth, Function.update_self]
    rfl
  have hother : ∀ s', s' ≠ s →
      (c'.thread (.inr s')).received = (c.thread (.inr s')).received := by
    intro s' hne
    rw [hth, Function.update_of_ne (by simpa using hne)]
  -- membership in the new records
  have hmem : ∀ s' w, w ∈ (c'.thread (.inr s')).received →
      w ∈ (c.thread (.inr s')).received ∨ s' = s ∧ w = v := by
    intro s' w hw
    by_cases e : s' = s
    · subst e
      rw [hsame, List.mem_append, List.mem_singleton] at hw
      rw [hown]
      exact hw.imp id fun hw => ⟨rfl, hw⟩
    · rw [hother s' e] at hw
      exact Or.inl hw
  refine ⟨fun s' => ?_, fun s' w hw => ?_, fun s' w hw => ?_, fun w hw => ?_, fun s' => ?_,
    fun s₁ s₂ w h₁ h₂ => ?_⟩
  · rw [hB]
    by_cases e : s' = s
    · subst e
      rw [hsame, List.pairwise_append]
      refine ⟨hown ▸ h.sorted s', List.pairwise_singleton _ _, fun a ha b hb => ?_⟩
      rw [List.mem_singleton.mp hb, hbatch]
      exact h.batch s' a (hown ▸ ha)
    · rw [hother s' e]
      exact h.sorted s'
  · rw [hB]
    rcases hmem s' w hw with hw | ⟨_, rfl⟩
    · exact le_trans (h.batch s' w hw) hcur
    · exact le_trans (le_of_eq hbatch) hcur
  · rw [hpopped, List.mem_append, List.mem_singleton]
    rcases hmem s' w hw with hw | ⟨_, rfl⟩
    · exact Or.inl (h.popped s' w hw)
    · exact Or.inr rfl
  · rw [hpopped, List.mem_append, List.mem_singleton] at hw
    rcases hw with hw | rfl
    · obtain ⟨s', hs'⟩ := h.covers w hw
      refine ⟨s', ?_⟩
      by_cases e : s' = s
      · subst e
        rw [hsame]
        exact List.mem_append_left _ (hown ▸ hs')
      · rw [hother s' e]
        exact hs'
    · exact ⟨s, by rw [hsame]; simp⟩
  · by_cases e : s' = s
    · subst e
      rw [hsame]
      refine List.nodup_append.mpr ⟨hown ▸ h.nodup s', by simp, fun a ha b hb => ?_⟩
      rw [List.mem_singleton.mp hb]
      rintro rfl
      exact hnew (h.popped s' a (hown ▸ ha))
    · rw [hother s' e]
      exact h.nodup s'
  · rcases hmem s₁ w h₁ with h₁ | ⟨rfl, rfl⟩
    · rcases hmem s₂ w h₂ with h₂ | ⟨rfl, rfl⟩
      · exact h.disjoint s₁ s₂ w h₁ h₂
      · exact absurd (h.popped s₁ _ h₁) hnew
    · rcases hmem s₂ _ h₂ with h₂ | ⟨rfl, _⟩
      · exact absurd (h.popped s₂ _ h₂) hnew
      · rfl

theorem Recorded.step (h : Recorded c) (hI : PopInv S c) (hnext : NextNarrow S c.thread)
    {t : Int ⊕ ς} (hs : Step monitor (workers S) c t c') : Recorded c' := by
  cases hI.step_cases hnext hs with
  | @producer p _ hp =>
    cases hp with
    | idle hd ht hh =>
      exact h.congr (fun s => by rw [ht]) (by rw [hd]) (by rw [hd]) (by rw [hh])
    | push v hpm hact ht hv hpv hbatch hd hth hh hsmall =>
      refine h.congr (fun s => by rw [hth, Function.update_of_ne (by simp)]) (by rw [hd]; rfl)
        (le_of_eq (by rw [hd]; rfl)) ?_
      rw [hh, popped_append]
      simp [SasLibclient.popped]
    | delete hpm hact ht hd hth hh =>
      refine h.congr (fun s => by rw [hth, Function.update_of_ne (by simp)]) ?_ ?_ ?_
      · rw [hd]
        exact resetIfFinished_batchSize _
      · rw [hd]
        exact resetIfFinished_currentBatch_le (q := c.data.deactivate p)
      · rw [hh, popped_append]
        simp [SasLibclient.popped]
  | idle hd ht hh =>
    exact h.congr (fun s => by rw [ht]) (by rw [hd]) (by rw [hd]) (by rw [hh])
  | pop received v rest ht hq hd hth hh => exact h.pop hI ht hq hd hth hh
  | @drain s _ received ht hq ha hd hth hh =>
    refine h.congr (fun s' => ?_) (by rw [hd]) (by rw [hd]) ?_
    · rw [hth]
      by_cases e : s' = s
      · subst e
        rw [Function.update_self, ht]
        rfl
      · rw [Function.update_of_ne (by simpa using e)]
    · rw [hh, popped_append]
      simp [SasLibclient.popped]

def Complete (S : Producers T) (c : QueueConfig T ς) : Prop := ∀ t, ¬ Unfinished (workers S) c t

/-- **The records of a complete first pass are a plan.** -/
theorem replayPlan_of_complete (hB : 0 < B) (hnarrow : S.Narrow B)
    (h : Reachable monitor (workers S) (popStart S B ς) c) (hdone : Complete S c) :
    ReplayPlan S B (records c) := by
  have hinv : PopInv S c ∧ Recorded c ∧ c.data.batchSize = B := by
    refine h.invariant (I := fun c => PopInv S c ∧ Recorded c ∧ c.data.batchSize = B)
      ⟨PopInv.start B hB hnarrow.slots, Recorded.start, rfl⟩ ?_
    intro c t c' ⟨hI, hR, hBc⟩ hs
    refine ⟨hI.step (hnarrow.next _) hs, hR.step hI (hnarrow.next _) hs, ?_⟩
    rcases hs.data_cases with he | ⟨i, seg, _, hseg, he⟩
    · rw [he, hBc]
    · rw [he, (segment_effect hseg).batchSize, hBc]
  obtain ⟨hI, hR, hBc⟩ := hinv
  have hpushed : ∀ s, ∀ v ∈ (c.thread (.inr s)).received, v ∈ pushed c.history := by
    intro s v hv
    rw [hI.order]
    exact List.mem_append_left _ (hR.popped s v hv)
  have hinj : ∀ v ∈ pushed c.history, ∀ w ∈ pushed c.history, keyOf v = keyOf w → v = w := by
    intro v hv w hw hk
    obtain ⟨hp, hi⟩ := Prod.mk.inj hk
    have hsv := (hI.base.pushed_lt v hv).2.2
    have hsw := (hI.base.pushed_lt w hw).2.2
    rw [hp, hi, hsw] at hsv
    exact (Option.some.inj hsv).symm
  have hinactive : ∀ p ∈ S.ids, c.data.active p = false := by
    intro p hp
    by_contra hact
    obtain ⟨next, _, hth, _⟩ := hI.base.thread_of_active hp (by simpa using hact)
    refine hdone (.inl p) ?_
    simp only [Unfinished, hth, workers]
    split <;> simp
  -- every chunk of every stream was pushed
  have hall : ∀ p ∈ S.ids, ∀ i < (S.stream p).length, ∃ v ∈ pushed c.history, keyOf v = (p, i) := by
    intro p hp i hi
    have hv := List.getElem?_eq_getElem hi
    obtain ⟨hpv, hiv⟩ := S.sequential p hp i _ hv
    refine ⟨_, hI.base.pushed_all p hp i _ ?_ hv, by rw [keyOf, hpv, hiv]⟩
    rw [hI.base.sentBy_of_inactive (hinactive p hp)]
    exact hi
  refine ⟨fun s r hr => ?_, fun s => ?_, fun s s' r hr hr' => ?_, fun s => ?_, ?_⟩
  · obtain ⟨v, hv, rfl⟩ := List.mem_map.mp hr
    obtain ⟨hp, _, hs⟩ := hI.base.pushed_lt v (hpushed s v hv)
    exact ⟨hp, (List.getElem?_eq_some_iff.mp hs).1⟩
  · refine (hR.nodup s).map_on fun v hv w hw hk => ?_
    exact hinj v (hpushed s v hv) w (hpushed s w hw) hk
  · obtain ⟨v, hv, rfl⟩ := List.mem_map.mp hr
    obtain ⟨w, hw, hk⟩ := List.mem_map.mp hr'
    obtain rfl := hinj w (hpushed s' w hw) v (hpushed s v hv) hk
    exact hR.disjoint s s' w hv hw
  · rw [records, List.pairwise_map]
    have := hR.sorted s
    rw [hBc] at this
    exact this
  · rcases isEmpty_or_nonempty ς with hempty | ⟨⟨s₀⟩⟩
    · -- nothing was popped, so all chunks are of the first batch
      right
      intro p hp
      by_contra hlen
      have hnil : SasLibclient.popped c.history = [] := by
        refine List.eq_nil_iff_forall_not_mem.mpr fun v hv => ?_
        obtain ⟨s, _⟩ := hR.covers v hv
        exact hempty.elim s
      have hbatch : ∀ i < (S.stream p).length, i / B = c.data.currentBatch := by
        intro i hi
        obtain ⟨v, hv, hk⟩ := hall p hp i hi
        rw [hI.order, hnil, List.nil_append] at hv
        have := (hI.base.inv.stored_spec v hv).2.1
        rw [hBc] at this
        rw [← (Prod.mk.inj hk).2]
        exact this
      have h0 := hbatch 0 (by omega)
      have h1 := hbatch B (by omega)
      rw [Nat.zero_div] at h0
      rw [Nat.div_self hB, ← h0] at h1
      cases h1
    · left
      intro p hp i hi
      obtain ⟨v, hv, hk⟩ := hall p hp i hi
      have hq : c.data.queue = [] := by
        rcases hI.consumers s₀ with ⟨rs, hth⟩ | ⟨_, hq, _⟩
        · exact absurd (by simp [Unfinished, hth, workers]) (hdone (.inr s₀))
        · exact hq
      rw [hI.order, hq, List.append_nil] at hv
      obtain ⟨s, hs⟩ := hR.covers v hv
      exact ⟨s, List.mem_map.mpr ⟨v, hs, hk⟩⟩

end SasLibclient
