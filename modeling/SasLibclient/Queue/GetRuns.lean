import Mathlib.Data.List.Perm.Basic
import SasLibclient.Monitor.Progress
import SasLibclient.Queue.GetMode

/-!
# Runs of arbitrary requests

Consumers that call `Get` along any list of requests to the queue's producers:
chunks that were read before, chunks of later batches, chunks that a producer
ended without. `GetRunInv` is the invariant of every interleaving: what was
pushed is what was returned and what is stored. `Get` returns the stored chunk
in the slot of the request, which is the chunk asked for only when the request
is of the current batch (`get_answers_iff`).
-/

namespace SasLibclient

open Monitors QueueItem

namespace ThreadSafeBatchQueue

variable {T : Type} [QueueItem T] {ids : List Int} {q : ThreadSafeBatchQueue T} {stored : List T}
  {sent : Int → Nat}

/-- A set slot belongs to the current batch, whose number is in the range of
`int`. -/
theorem BatchCore.getMustWait_iff (h : BatchCore ids q stored sent) {p : Int} (hp : p ∈ ids)
    {v : Nat} (hr : q.InRange p v) : q.getMustWait p v = true ↔
    ((q.dataArray (q.targetIndex p v)).isSet = false ∨ v / q.batchSize ≠ q.currentBatch) ∧
      q.active p = true := by
  unfold getMustWait active
  rw [Bool.and_eq_true, Bool.or_eq_true, Bool.not_eq_true', bne_iff_ne, ← Int.ofNat_tdiv]
  refine and_congr_left fun _ => ?_
  cases hset : (q.dataArray (q.targetIndex p v)).isSet with
  | false => simp
  | true =>
    obtain ⟨w, hw, _⟩ := h.slots p hp v hr hset
    have hbatch := (h.stored_spec w hw).2.1
    have hsmall := (h.fits w hw).1
    have hle := Nat.div_le_self (itemId w) q.batchSize
    rw [int32_natCast (by omega), ne_eq, Int.natCast_inj]

omit [QueueItem T] in
/-- The loop of `Get` returns when its condition is false. -/
theorem getMustWait_of_ret {p v : Int} {r : Result T}
    (h : (getLoop p v q).exit = .ret r) :
    q.getMustWait p v = false := by
  cases hmust : q.getMustWait p v with
  | false => rfl
  | true =>
    unfold getLoop at h
    rw [hmust] at h
    cases h

omit [QueueItem T] in
theorem getMustWait_of_wait {p v : Int} {cv : CondVar}
    (h : (getLoop p v q).exit = .wait cv) :
    q.getMustWait p v = true := by
  by_contra hmust
  unfold getLoop at h
  dsimp only at h
  rw [if_neg hmust] at h
  split at h
  · cases h
  · split at h <;> cases h

/-- A stored chunk in the slot of a request is the one asked for when the
request is of the current batch. -/
theorem BatchCore.itemId_eq_iff (h : BatchCore ids q stored sent) {w : T} (hw : w ∈ stored)
    {v : Nat} (hmod : itemId w % q.batchSize = v % q.batchSize) :
    itemId w = v ↔ v / q.batchSize = q.currentBatch := by
  obtain ⟨_, hbatch, _, _⟩ := h.stored_spec w hw
  constructor
  · rintro rfl
    exact hbatch
  · intro hv
    rw [← Nat.div_add_mod (itemId w) q.batchSize, hbatch, hmod, ← hv, Nat.div_add_mod]

/-- **What the loop of `Get` can do**: wait, throw, or return the stored chunk
of the slot. -/
theorem BatchCore.getLoop_cases (h : BatchCore ids q stored sent)
    (hlen : q.queue.length = stored.length) {p : Int} (hp : p ∈ ids) {v : Nat}
    (hr : q.InRange p v) :
    (q.active p = true ∧
      getLoop p v q = ⟨q, [], .wait (.dataNotReadyCV (q.partitionIdToNumber p))⟩) ∨
    ((q.dataArray (q.targetIndex p v)).isSet = false ∧
      getLoop p v q = ⟨q, [], .ret (.outOfRange "Asking for non-existsent chunk")⟩) ∨
    ∃ w rest, w ∈ stored ∧ partitionId w = p ∧ itemId w % q.batchSize = v % q.batchSize ∧
      (q.dataArray (q.targetIndex p v)).isSet = true ∧
      (q.active p = true → v / q.batchSize = q.currentBatch) ∧
      rest.length + 1 = q.queue.length ∧
      getLoop p v q = ⟨(afterRead w rest q).resetIfFinished.1,
        (afterRead w rest q).resetIfFinished.2, .ret (.value w)⟩ := by
  cases hmust : q.getMustWait p v with
  | true =>
    left
    exact ⟨((h.getMustWait_iff hp hr).mp hmust).2, by simp [getLoop, hmust]⟩
  | false =>
    right
    cases hset : (q.dataArray (q.targetIndex p v)).isSet with
    | false =>
      left
      exact ⟨rfl, by simp [getLoop, hmust, hset]⟩
    | true =>
      right
      obtain ⟨w, hw, hpw, hmod⟩ := h.slots p hp v hr hset
      have hslot := (h.stored_spec w hw).2.2.2
      have hindex : q.targetIndex p v = q.targetIndex (partitionId w) (itemId w) := by
        rw [hpw]
        exact targetIndex_congr q p hmod.symm
      have hactive : q.active p = true → v / q.batchSize = q.currentBatch := by
        intro hact
        by_contra hne
        rw [(h.getMustWait_iff hp hr).mpr ⟨Or.inr hne, hact⟩] at hmust
        cases hmust
      cases hq : q.queue with
      | nil =>
        have hpos := List.length_pos_of_mem hw
        rw [hq, List.length_nil] at hlen
        omega
      | cons front rest =>
        refine ⟨w, rest, hw, hpw, hmod, rfl, hactive, rfl, ?_⟩
        simp only [getLoop, hmust, hindex, hslot, hq, readValue, Bool.false_eq_true,
          ↓reduceIte, Bool.not_true]
        simp only [afterRead, readValue, hslot]

/-- `Get` runs its loop, or throws on an empty queue without producers. -/
theorem BatchCore.get_cases (h : BatchCore ids q stored sent) {p : Int} (hp : p ∈ ids) {v : Nat}
    (hr : q.InRange p v) :
    get p v q = getLoop p v q ∨
    ((q.dataArray (q.targetIndex p v)).isSet = false ∧
      get p v q = ⟨q, [], .ret (.outOfRange "Queue is empty")⟩) := by
  unfold get
  split
  · rename_i hempty
    right
    refine ⟨?_, rfl⟩
    by_contra hset
    obtain ⟨w, hw, _⟩ := h.slots p hp v hr (by simpa using hset)
    have hitems := h.items
    rw [hempty.1] at hitems
    have hpos := List.length_pos_of_mem hw
    omega
  · exact Or.inl rfl

end ThreadSafeBatchQueue

open ThreadSafeBatchQueue

variable {T ς : Type} [QueueItem T]

/-- The invariant of every interleaving of producers and requests. -/
structure GetRunInv (S : Producers T) (stored : List T) (c : QueueConfig T ς) : Prop where
  base : QueueInv S stored c
  length : c.data.queue.length = stored.length
  split : (pushed c.history).Perm (gotten c.history ++ stored)
  noPop : popped c.history = []
  getters : ∀ s, ∃ todo received, c.thread (.inr s) = .getter todo received ∧
    ∀ r ∈ todo, r.1 ∈ S.ids

/-- A `Get` that runs finds its producer active, its slot empty, or its request
in the current batch. -/
def RequestInBatch (S : Producers T) (c : QueueConfig T ς) (t : Int ⊕ ς) : Prop :=
  ∀ p v, (workers S).call (c.thread t) = some (.get p v) → (∀ cv, c.status t ≠ .asleep cv) →
    c.data.active p = true ∨ (c.data.dataArray (c.data.targetIndex p v)).isSet = false ∨
    v.tdiv c.data.batchSize = c.data.currentBatch

/-- Every `Get` that returned a chunk returned the one it was asked for, and
every other one threw `out_of_range`. -/
def GetAnswers (h : List (Event (Int ⊕ ς) (Call T) (Result T))) : Prop :=
  ∀ e ∈ h, ∀ p v, e.call = .get p v →
    (∃ w, e.result = .value w ∧ partitionId w = p ∧ (itemId w : Int) = v) ∨
    ∃ what, e.result = .outOfRange what

variable {S : Producers T} {B : Nat} {requests : ς → List (Int × Nat)} {stored : List T}
  {c c' : QueueConfig T ς}

theorem GetRunInv.start (hB : 0 < B) (hslots : S.ids.length * B < 2 ^ 31)
    (hrequests : ∀ s, ∀ r ∈ requests s, r.1 ∈ S.ids) :
    GetRunInv S [] (getStart S B requests) where
  base := QueueInv.start B hB hslots _
  length := rfl
  split := List.Perm.refl _
  noPop := rfl
  getters := fun s => ⟨requests s, [], rfl, hrequests s⟩

/-! ## Steps -/

variable [DecidableEq ς]

/-- What a step does in a run of requests. -/
inductive GetStep (S : Producers T) (stored : List T) (c : QueueConfig T ς) :
    Int ⊕ ς → QueueConfig T ς → Prop
  | producer {p : Int} {c' : QueueConfig T ς} :
      ProducerStep S c p c' → GetStep S stored c (.inl p) c'
  | idle {s : ς} {c' : QueueConfig T ς} : RequestInBatch S c (.inr s) → c'.data = c.data →
      c'.thread = c.thread → c'.history = c.history → GetStep S stored c (.inr s) c'
  | throw {s : ς} {c' : QueueConfig T ς} (p : Int) (v : Nat) (todo : List (Int × Nat))
      (received : List T) (what : String) : RequestInBatch S c (.inr s) →
      c.thread (.inr s) = .getter ((p, v) :: todo) received → c'.data = c.data →
      c'.thread = Function.update c.thread (.inr s) (.getter todo received) →
      c'.history = c.history ++ [⟨.inr s, .get p v, .outOfRange what⟩] →
      GetStep S stored c (.inr s) c'
  | get {s : ς} {c' : QueueConfig T ς} (p : Int) (v : Nat) (todo : List (Int × Nat))
      (received : List T) (w : T) (rest : List T) :
      c.thread (.inr s) = .getter ((p, v) :: todo) received → w ∈ stored → partitionId w = p →
      (RequestInBatch S c (.inr s) ↔ itemId w = v) → rest.length + 1 = c.data.queue.length →
      c'.data = (afterRead w rest c.data).resetIfFinished.1 →
      c'.thread = Function.update c.thread (.inr s) (.getter todo (received ++ [w])) →
      c'.history = c.history ++ [⟨.inr s, .get p v, .value w⟩] → GetStep S stored c (.inr s) c'

omit [DecidableEq ς] in
/-- The call of a consumer is the `Get` of its next request. -/
theorem GetRunInv.call_getter (h : GetRunInv S stored c) {s : ς} {i : Call T}
    (hi : (workers S).call (c.thread (.inr s)) = some i) :
    ∃ p v todo received, i = .get p ((v : Nat) : Int) ∧ p ∈ S.ids ∧
      c.thread (.inr s) = .getter ((p, v) :: todo) received := by
  obtain ⟨todo, received, hth, hids⟩ := h.getters s
  rw [hth] at hi
  cases todo with
  | nil => cases hi
  | cons r todo =>
    exact ⟨r.1, r.2, todo, received, (Option.some.inj hi).symm, hids r List.mem_cons_self, hth⟩

omit [DecidableEq ς] in
theorem requestInBatch_iff {s : ς} {p : Int} {v : Nat} {todo : List (Int × Nat)}
    {received : List T} (hth : c.thread (.inr s) = .getter ((p, v) :: todo) received)
    (hrun : ∀ cv, c.status (.inr s) ≠ .asleep cv) :
    RequestInBatch S c (.inr s) ↔ c.data.active p = true ∨
      (c.data.dataArray (c.data.targetIndex p v)).isSet = false ∨
      v / c.data.batchSize = c.data.currentBatch := by
  have hdiv : ((v : Nat) : Int).tdiv c.data.batchSize = c.data.currentBatch ↔
      v / c.data.batchSize = c.data.currentBatch := by
    rw [← Int.ofNat_tdiv, Int.natCast_inj]
  constructor
  · intro h
    have hcall := h p v (by rw [hth]; rfl) hrun
    rwa [hdiv] at hcall
  · intro h p' v' hcall _
    rw [hth] at hcall
    obtain ⟨rfl, rfl⟩ := Call.get.inj (Option.some.inj hcall)
    rwa [hdiv]

omit [DecidableEq ς] in
/-- **What a `Get` that runs can do.** -/
theorem GetRunInv.segment_cases (h : GetRunInv S stored c) {s : ς} {p : Int} {v : Nat}
    {todo : List (Int × Nat)} {received : List T} (hp : p ∈ S.ids)
    (hth : c.thread (.inr s) = .getter ((p, v) :: todo) received)
    {seg : Segment (ThreadSafeBatchQueue T) CondVar (Result T)}
    (hseg : monitor.segment (c.status (.inr s)) (.get p v) c.data = some seg) :
    (RequestInBatch S c (.inr s) ∧
      seg = ⟨c.data, [], .wait (.dataNotReadyCV (c.data.partitionIdToNumber p))⟩) ∨
    (RequestInBatch S c (.inr s) ∧ ∃ what, seg = ⟨c.data, [], .ret (.outOfRange what)⟩) ∨
    ∃ w rest, w ∈ stored ∧ partitionId w = p ∧ (RequestInBatch S c (.inr s) ↔ itemId w = v) ∧
      rest.length + 1 = c.data.queue.length ∧
      seg = ⟨(afterRead w rest c.data).resetIfFinished.1,
        (afterRead w rest c.data).resetIfFinished.2, .ret (.value w)⟩ := by
  have hcore := h.base.inv.toBatchCore
  have hiff := requestInBatch_iff (S := S) hth (Monitor.segment_not_asleep hseg)
  have hloop : seg = getLoop p v c.data ∨
      ((c.data.dataArray (c.data.targetIndex p v)).isSet = false ∧
        seg = ⟨c.data, [], .ret (.outOfRange "Queue is empty")⟩) := by
    rcases Monitor.segment_eq_some hseg with e | e
    · rw [e]
      exact hcore.get_cases hp (h.base.inRange hp v)
    · exact Or.inl e
  rcases hloop with rfl | ⟨hfree, rfl⟩
  · rcases hcore.getLoop_cases h.length hp (h.base.inRange hp v) with ⟨hact, e⟩ | ⟨hfree, e⟩ |
      ⟨w, rest, hw, hpw, hmod, hset, hactive, hlen, e⟩
    · exact Or.inl ⟨hiff.mpr (Or.inl hact), e⟩
    · exact Or.inr (Or.inl ⟨hiff.mpr (Or.inr (Or.inl hfree)), _, e⟩)
    · refine Or.inr (Or.inr ⟨w, rest, hw, hpw, ?_, hlen, e⟩)
      rw [hiff, hset, hcore.itemId_eq_iff hw hmod]
      constructor
      · rintro (hact | hfalse | hbatch)
        · exact hactive hact
        · cases hfalse
        · exact hbatch
      · exact fun hbatch => Or.inr (Or.inr hbatch)
  · exact Or.inr (Or.inl ⟨hiff.mpr (Or.inr (Or.inl hfree)), _, rfl⟩)

theorem GetRunInv.step_cases (h : GetRunInv S stored c) (hnext : NextNarrow S c.thread)
    {t : Int ⊕ ς} (hs : Step monitor (workers S) c t c') : GetStep S stored c t c' := by
  match t, hs with
  | .inl p, hs => exact .producer (h.base.producer_step hnext hs)
  | .inr s, hs =>
    cases hs with
    | @wait i seg st cv hi hseg hdel hexit =>
      obtain ⟨p, v, todo, received, rfl, hp, hth⟩ := h.call_getter hi
      rcases h.segment_cases hp hth hseg with ⟨hok, e⟩ | ⟨_, _, e⟩ | ⟨_, _, _, _, _, _, e⟩
      · rw [e]
        exact .idle hok rfl rfl rfl
      · rw [e] at hexit
        cases hexit
      · rw [e] at hexit
        cases hexit
    | @ret i seg st r hi hseg hdel hexit =>
      obtain ⟨p, v, todo, received, rfl, hp, hth⟩ := h.call_getter hi
      rcases h.segment_cases hp hth hseg with ⟨_, e⟩ | ⟨hok, what, e⟩ |
        ⟨w, rest, hw, hpw, hiff, hlen, e⟩
      · rw [e] at hexit
        cases hexit
      · rw [e] at hexit
        cases hexit
        refine .throw p v todo received what hok hth (by rw [e]) ?_ rfl
        simp [hth, workers]
      · rw [e] at hexit
        cases hexit
        refine .get p v todo received w rest hth hw hpw hiff hlen (by rw [e]) ?_ rfl
        simp [hth, workers]
    | @spurious cv hasleep =>
      refine .idle (fun p v _ hrun => ?_) rfl rfl rfl
      exact absurd hasleep (hrun cv)

/-- A consumer whose request was answered goes on with the next one. -/
theorem GetRunInv.getters_update (h : GetRunInv S stored c) {s : ς} {r : Int × Nat}
    {todo : List (Int × Nat)} {received received' : List T}
    (hrun : c.thread (.inr s) = .getter (r :: todo) received)
    (hth : c'.thread = Function.update c.thread (.inr s) (.getter todo received')) (s' : ς) :
    ∃ todo received, c'.thread (.inr s') = .getter todo received ∧ ∀ r ∈ todo, r.1 ∈ S.ids := by
  rw [hth]
  by_cases e : s' = s
  · subst e
    obtain ⟨todo', received'', hth', hids⟩ := h.getters s'
    rw [hrun] at hth'
    obtain ⟨rfl, rfl⟩ := Worker.getter.inj hth'
    refine ⟨todo, received', Function.update_self .., ?_⟩
    intro r' hr'
    exact hids r' (List.mem_cons_of_mem _ hr')
  · rw [Function.update_of_ne (by simpa using e)]
    exact h.getters s'

omit [DecidableEq ς] in
theorem GetRunInv.congr (h : GetRunInv S stored c) (hd : c'.data = c.data)
    (hth : c'.thread = c.thread) (hh : c'.history = c.history) : GetRunInv S stored c' where
  base := h.base.congr hd (fun p => by rw [hth]) (by rw [hh]) (by rw [hh]; exact fun _ he => he)
  length := by
    rw [hd]
    exact h.length
  split := by
    rw [hh]
    exact h.split
  noPop := by
    rw [hh]
    exact h.noPop
  getters := by
    rw [hth]
    exact h.getters

omit [DecidableEq ς] in
/-- A completed call that is not a `Pop`. -/
theorem GetRunInv.of_event {stored' : List T} {e : Event (Int ⊕ ς) (Call T) (Result T)}
    (h : GetRunInv S stored c) (hbase : QueueInv S stored' c')
    (hlength : c'.data.queue.length = stored'.length) (hh : c'.history = c.history ++ [e])
    (hpopped : popped [e] = [])
    (hsplit : (pushed c.history ++ pushed [e]).Perm (gotten c.history ++ gotten [e] ++ stored'))
    (hgetters : ∀ s, ∃ todo received, c'.thread (.inr s) = .getter todo received ∧
      ∀ r ∈ todo, r.1 ∈ S.ids) : GetRunInv S stored' c' where
  base := hbase
  length := hlength
  split := by
    rw [hh, pushed_append, gotten_append]
    exact hsplit
  noPop := by
    rw [hh, popped_append, h.noPop, hpopped]
    rfl
  getters := hgetters

theorem GetRunInv.step (h : GetRunInv S stored c) (hnext : NextNarrow S c.thread) {t : Int ⊕ ς}
    (hs : Step monitor (workers S) c t c') : ∃ stored', GetRunInv S stored' c' := by
  cases h.step_cases hnext hs with
  | producer hp =>
    cases hp with
    | idle hd hth hh => exact ⟨stored, h.congr hd hth hh⟩
    | push v hpm hact ht hv hpv hbatch hd hth hh hsmall =>
      have hbase := h.base.push hpm hact ht hv hpv hbatch hd hth hh hsmall
      refine ⟨stored ++ [v], h.of_event hbase ?_ hh rfl ?_ ?_⟩
      · rw [hd, List.length_append, ← h.length]
        exact List.length_append
      · have hperm := h.split.append_right [v]
        rw [List.append_assoc] at hperm
        simpa [pushed, gotten] using hperm
      · intro s
        rw [hth, Function.update_of_ne (by simp)]
        exact h.getters s
    | delete hpm hact ht hd hth hh =>
      refine ⟨stored, h.of_event (h.base.delete hpm hact ht hd hth hh) ?_ hh rfl ?_ ?_⟩
      · rw [hd]
        exact (congrArg List.length (resetIfFinished_queue _)).trans h.length
      · simpa [pushed, gotten] using h.split
      · intro s
        rw [hth, Function.update_of_ne (by simp)]
        exact h.getters s
  | idle _ hd hth hh => exact ⟨stored, h.congr hd hth hh⟩
  | @throw s _ p v todo received what _ hrun hd hth hh =>
    have hbase : QueueInv S stored c' := by
      refine h.base.congr hd (fun p => by rw [hth, Function.update_of_ne (by simp)]) ?_ ?_
      · rw [hh, pushed_append]
        simp [pushed]
      · rw [hh]
        exact fun _ he => List.mem_append_left _ he
    refine ⟨stored, h.of_event hbase (by rw [hd]; exact h.length) hh rfl ?_
      (h.getters_update hrun hth)⟩
    simpa [pushed, gotten] using h.split
  | @get s _ p v todo received w rest hrun hw hpw _ hlen hd hth hh =>
    obtain ⟨l₁, l₂, rfl⟩ := List.append_of_mem hw
    have hbase := h.base.read rest hd (fun q => by rw [hth, Function.update_of_ne (by simp)]) _ rfl hh
    refine ⟨l₁ ++ l₂, h.of_event hbase ?_ hh rfl ?_ (h.getters_update hrun hth)⟩
    · have hold := h.length
      rw [hd, resetIfFinished_queue]
      simp only [afterRead, List.length_append, List.length_cons] at hold ⊢
      omega
    · have hgot : gotten [(⟨.inr s, .get p v, .value w⟩ : Event (Int ⊕ ς) (Call T) (Result T))] =
          [w] := rfl
      have hpushed : pushed [(⟨.inr s, .get p v, .value w⟩ : Event (Int ⊕ ς) (Call T) (Result T))] =
          [] := rfl
      rw [hgot, hpushed, List.append_nil, List.append_assoc]
      exact h.split.trans (List.Perm.append_left _ List.perm_middle)

theorem GetRunInv.reachable (hB : 0 < B) (hnarrow : S.Narrow B)
    (hrequests : ∀ s, ∀ r ∈ requests s, r.1 ∈ S.ids)
    (h : Reachable monitor (workers S) (getStart S B requests) c) :
    ∃ stored, GetRunInv S stored c := by
  refine h.invariant (I := fun c => ∃ stored, GetRunInv S stored c) ?_ ?_
  · exact ⟨[], GetRunInv.start hB hnarrow.slots hrequests⟩
  · rintro c t c' ⟨stored, hI⟩ hs
    exact hI.step (hnarrow.next _) hs

/-! ## The chunk asked for -/

/-- **A step answers rightly exactly when it meets the condition.** -/
theorem GetRunInv.answers_step (h : GetRunInv S stored c) (hnext : NextNarrow S c.thread)
    {t : Int ⊕ ς}
    (hs : Step monitor (workers S) c t c') :
    GetAnswers c'.history ↔ GetAnswers c.history ∧ RequestInBatch S c t := by
  have happend : ∀ e : Event (Int ⊕ ς) (Call T) (Result T), c'.history = c.history ++ [e] →
      (GetAnswers c'.history ↔ GetAnswers c.history ∧ GetAnswers [e]) := by
    intro e hh
    rw [hh]
    simp only [GetAnswers, List.mem_append, or_imp, forall_and]
  have hother : ∀ p, t = .inl p → RequestInBatch S c t := by
    rintro p rfl p' v hcall
    rcases h.base.producers p with ⟨hth, _⟩ | ⟨_, _, next, _, hth⟩
    · rw [hth] at hcall
      cases hcall
    · rw [hth] at hcall
      simp only [workers] at hcall
      split at hcall <;> cases hcall
  cases h.step_cases hnext hs with
  | producer hp =>
    have hok := hother _ rfl
    cases hp with
    | idle hd hth hh =>
      rw [hh]
      exact ⟨fun hold => ⟨hold, hok⟩, fun hold => hold.1⟩
    | push v hpm hact ht hv hpv hbatch hd hth hh =>
      rw [happend _ hh]
      exact and_congr_right fun _ => ⟨fun _ => hok, fun _ => by simp [GetAnswers]⟩
    | delete hpm hact ht hd hth hh =>
      rw [happend _ hh]
      exact and_congr_right fun _ => ⟨fun _ => hok, fun _ => by simp [GetAnswers]⟩
  | idle hok hd hth hh =>
    rw [hh]
    exact ⟨fun hold => ⟨hold, hok⟩, fun hold => hold.1⟩
  | throw p v todo received what hok hrun hd hth hh =>
    rw [happend _ hh]
    exact and_congr_right fun _ => ⟨fun _ => hok, fun _ => by simp [GetAnswers]⟩
  | get p v todo received w rest hrun hw hpw hiff hlen hd hth hh =>
    rw [happend _ hh]
    refine and_congr_right fun _ => ?_
    rw [hiff, ← Int.natCast_inj]
    simp [GetAnswers, hpw]

/-- **`Get` returns what was asked for, exactly when.** In a run, every `Get`
that returns a chunk returns the one it was asked for if and only if every
`Get` that runs finds its producer active, its slot empty, or its request in
the current batch. The others throw or wait. -/
theorem get_answers_iff (hB : 0 < B) (hnarrow : S.Narrow B)
    (hrequests : ∀ s, ∀ r ∈ requests s, r.1 ∈ S.ids)
    {tr : List (QueueConfig T ς × (Int ⊕ ς))}
    (h : Run monitor (workers S) (getStart S B requests) tr c) :
    GetAnswers c.history ↔ ∀ s ∈ tr, RequestInBatch S s.1 s.2 := by
  induction h with
  | start => simp [GetAnswers, getStart, startConfig]
  | @step tr c c' t hr hs ih =>
    obtain ⟨stored, hI⟩ := GetRunInv.reachable hB hnarrow hrequests ⟨tr, hr⟩
    rw [hI.answers_step (hnarrow.next _) hs, ih]
    simp only [List.mem_append, List.mem_singleton, or_imp, forall_and, forall_eq]

/-- A run in which the only producer ends after chunk 0, and the reader that then
asks for chunk 1 gets chunk 0. -/
theorem endedProducer_run :
    ∃ tr c, Run monitor (workers singleChunk)
        (getStart singleChunk 1 fun _ : Unit => [(0, 1)]) tr c ∧
      c.history = [⟨.inl 0, .push (0, 0), .unit⟩, ⟨.inl 0, .deleteProducer 0, .unit⟩,
        ⟨.inr (), .get 0 1, .value (0, 0)⟩] := by
  have hschedule : (Config.schedule monitor (workers singleChunk) [.inl 0, .inr ()]
      [.inl 0, .inl 0, .inr ()] (getStart singleChunk 1 fun _ : Unit => [(0, 1)])).map (·.history) =
      some [⟨.inl 0, .push (0, 0), .unit⟩, ⟨.inl 0, .deleteProducer 0, .unit⟩,
        ⟨.inr (), .get 0 1, .value (0, 0)⟩] := by
    decide +kernel
  obtain ⟨c, hc, hhistory⟩ := Option.map_eq_some_iff.mp hschedule
  obtain ⟨tr, hrun, _⟩ := Run.of_schedule (by simp) nofun hc
  exact ⟨tr, c, hrun, hhistory⟩

theorem not_getAnswers_of_ended {h : List (Event (Int ⊕ Unit) (Call (Int × Nat)) (Result (Int × Nat)))}
    (hevent : ⟨.inr (), .get 0 1, .value (0, 0)⟩ ∈ h) : ¬ GetAnswers h := by
  intro hgood
  rcases hgood _ hevent 0 1 rfl with ⟨w, hw, _, hid⟩ | ⟨what, hwhat⟩
  · obtain rfl := Result.value.inj hw
    cases hid
  · cases hwhat

/-- **Another chunk than the one asked for.** -/
theorem get_returns_other_chunk :
    ∃ c, Reachable monitor (workers singleChunk)
        (getStart singleChunk 1 fun _ : Unit => [(0, 1)]) c ∧
      ¬ GetAnswers c.history := by
  obtain ⟨tr, c, hrun, hhistory⟩ := endedProducer_run
  refine ⟨c, ⟨tr, hrun⟩, not_getAnswers_of_ended ?_⟩
  rw [hhistory]
  decide

/-- In that run a request runs outside its batch. -/
theorem get_answers_iff_ended :
    ∃ tr c, Run monitor (workers singleChunk)
        (getStart singleChunk 1 fun _ : Unit => [(0, 1)]) tr c ∧
      ¬ ∀ s ∈ tr, RequestInBatch singleChunk s.1 s.2 := by
  obtain ⟨tr, c, hrun, hhistory⟩ := endedProducer_run
  have hrequests : ∀ _ : Unit, ∀ r ∈ [((0 : Int), 1)], r.1 ∈ singleChunk.ids := by
    simp [singleChunk, Producers.ofLengths]
  refine ⟨tr, c, hrun, fun hok => ?_⟩
  refine not_getAnswers_of_ended ?_
    ((get_answers_iff (by decide) singleChunk_narrow hrequests hrun).mpr hok)
  rw [hhistory]
  decide

end SasLibclient
