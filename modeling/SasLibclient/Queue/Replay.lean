import SasLibclient.Queue.GetRuns
import SasLibclient.Queue.ReplayPlan

/-!
# Later passes

The second pass of `test/thread_safe_batch_queue_test.cpp` and of
`MultiPassQueue`: fresh producers push the same streams, and each consumer
calls `Get` along its record of the first pass. `ReplayInv` follows every
interleaving: a chunk that was pushed is stored until it is returned, and a
request that has not been answered is of a chunk that has not been returned.
-/

namespace SasLibclient

open Monitors QueueItem ThreadSafeBatchQueue

variable {T ς : Type} [QueueItem T]

/-- The invariant of the later pass; `stored` are the chunks pushed and not
returned. -/
structure ReplayInv (S : Producers T) (requests : ς → List (Int × Nat)) (stored : List T)
    (c : QueueConfig T ς) : Prop where
  base : QueueInv S stored c
  length : c.data.queue.length = stored.length
  split : ∀ v ∈ pushed c.history, v ∈ stored ∨ v ∈ gotten c.history
  fresh : ∀ v ∈ stored, v ∉ gotten c.history
  getters : ∀ s, ∃ todo received, c.thread (.inr s) = .getter todo received ∧
    requests s = received.map keyOf ++ todo ∧ ∀ v ∈ received, v ∈ gotten c.history
  owners : ∀ v ∈ gotten c.history, ∃ s todo received,
    c.thread (.inr s) = .getter todo received ∧ v ∈ received
  gottenNodup : (gotten c.history).Nodup
  gottenPushed : ∀ v ∈ gotten c.history, v ∈ pushed c.history
  answers : ∀ e ∈ c.history, ∀ p v, e.call = .get p v →
    ∃ n w, v = ((n : Nat) : Int) ∧ (S.stream p)[n]? = some w ∧ e.result = .value w

variable {S : Producers T} {B : Nat} {requests : ς → List (Int × Nat)} {stored : List T}
  {c c' : QueueConfig T ς}

theorem ReplayInv.start (hB : 0 < B) (hslots : S.ids.length * B < 2 ^ 31) :
    ReplayInv S requests [] (getStart S B requests) where
  base := QueueInv.start B hB hslots _
  length := rfl
  split := by simp [getStart, startConfig]
  fresh := by simp
  getters := fun s => ⟨requests s, [], rfl, rfl, by simp⟩
  owners := by simp [getStart, startConfig]
  gottenNodup := List.nodup_nil
  gottenPushed := by simp [getStart, startConfig]
  answers := by simp [getStart, startConfig]

/-- A chunk that was sent and not returned is stored. -/
theorem ReplayInv.stored_of_sent (h : ReplayInv S requests stored c) {p : Int} (hp : p ∈ S.ids)
    {i : Nat} {w : T} (hw : (S.stream p)[i]? = some w) (hi : i < sentBy S c.thread p)
    (hnot : w ∉ gotten c.history) : w ∈ stored := by
  rcases h.split w (h.base.pushed_all p hp i w hi hw) with hs | hg
  · exact hs
  · exact absurd hg hnot

/-- The next request of a consumer is of a chunk that has not been returned. -/
theorem ReplayInv.head (h : ReplayInv S requests stored c) (hplan : ReplayPlan S B requests)
    {s : ς} {p : Int} {v : Nat} {todo : List (Int × Nat)} {received : List T}
    (hth : c.thread (.inr s) = .getter ((p, v) :: todo) received) :
    p ∈ S.ids ∧ v < (S.stream p).length ∧ ∃ w, (S.stream p)[v]? = some w ∧
      partitionId w = p ∧ itemId w = v ∧ w ∉ gotten c.history := by
  obtain ⟨todo', received', hth', hreq, _⟩ := h.getters s
  obtain ⟨rfl, rfl⟩ : todo' = (p, v) :: todo ∧ received' = received := by
    rw [hth] at hth'
    injection hth' with h₁ h₂
    exact ⟨h₁.symm, h₂.symm⟩
  have hmem : (p, v) ∈ requests s := by
    rw [hreq]
    simp
  obtain ⟨hp, hv⟩ := hplan.valid s _ hmem
  have hw := List.getElem?_eq_getElem hv
  obtain ⟨hpw, hiw⟩ := S.sequential p hp v _ hw
  refine ⟨hp, hv, _, hw, hpw, hiw, fun hg => ?_⟩
  -- a second request for it would be in the same list
  obtain ⟨s', todo'', received'', hth'', hrec⟩ := h.owners _ hg
  obtain ⟨_, _, hth₂, hreq₂, _⟩ := h.getters s'
  rw [hth''] at hth₂
  injection hth₂ with h₁ h₂
  subst h₁ h₂
  have hkey : (p, v) ∈ received''.map keyOf :=
    List.mem_map.mpr ⟨_, hrec, by rw [keyOf, hpw, hiw]⟩
  have hsame : s' = s := hplan.disjoint s' s (p, v)
    (by rw [hreq₂]; exact List.mem_append_left _ hkey) hmem
  subst hsame
  rw [hth] at hth''
  injection hth'' with h₁ h₂
  subst h₁ h₂
  have hnodup := hplan.nodup s'
  rw [hreq] at hnodup
  exact (List.nodup_append.mp hnodup).2.2 _ hkey _ List.mem_cons_self rfl

theorem ReplayInv.slot (h : ReplayInv S requests stored c) {w : T} (hw : w ∈ stored) :
    c.data.dataArray (c.data.targetIndex (partitionId w) (itemId w)) = ⟨some w, true⟩ ∧
      itemId w / c.data.batchSize = c.data.currentBatch := by
  obtain ⟨_, hbatch, _, hslot⟩ := h.base.inv.stored_spec w hw
  exact ⟨hslot, hbatch⟩

/-- The wait condition of `Get`: the chunk is not stored, and its producer is
active. -/
theorem ReplayInv.mustWait_iff (h : ReplayInv S requests stored c) {p : Int} {v : Nat} {w : T}
    (hp : p ∈ S.ids) (hw : (S.stream p)[v]? = some w) :
    c.data.getMustWait p v = true ↔ w ∉ stored ∧ c.data.active p = true := by
  obtain ⟨hpw, hiw⟩ := S.sequential p hp v w hw
  have hcore := h.base.inv.toBatchCore
  rw [hcore.getMustWait_iff hp (h.base.inRange hp v)]
  refine and_congr_left fun _ => ⟨?_, ?_⟩
  · intro hwait hs
    obtain ⟨hslot, hbatch⟩ := h.slot hs
    rw [hpw, hiw] at hslot
    rw [hiw] at hbatch
    rcases hwait with hfree | hother
    · rw [hslot] at hfree
      cases hfree
    · exact hother hbatch
  · intro hs
    by_contra hno
    obtain ⟨hset, hbatch⟩ := not_or.mp hno
    obtain ⟨w', hw', hpw', hmod⟩ := hcore.slots p hp v (h.base.inRange hp v) (by simpa using hset)
    have hid : itemId w' = v := (hcore.itemId_eq_iff hw' hmod).mpr (not_not.mp hbatch)
    have hstream := (h.base.pushed_lt w' (h.base.stored_pushed w' hw')).2.2
    rw [hpw', hid, hw] at hstream
    obtain rfl := Option.some.inj hstream
    exact hs hw'

/-- **What a `Get` can do**: wait for its chunk, or return it. -/
theorem ReplayInv.get_cases (h : ReplayInv S requests stored c) {s : Status CondVar} {p : Int}
    {v : Nat} {w : T} {seg : Segment (ThreadSafeBatchQueue T) CondVar (Result T)} (hp : p ∈ S.ids)
    (hw : (S.stream p)[v]? = some w) (hnot : w ∉ gotten c.history)
    (hseg : monitor.segment s (.get p v) c.data = some seg) :
    seg = ⟨c.data, [], .wait (.dataNotReadyCV (c.data.partitionIdToNumber p))⟩ ∨
    w ∈ stored ∧ ∃ rest, rest.length + 1 = c.data.queue.length ∧
      seg = ⟨(afterRead w rest c.data).resetIfFinished.1,
        (afterRead w rest c.data).resetIfFinished.2, .ret (.value w)⟩ := by
  obtain ⟨hpw, hiw⟩ := S.sequential p hp v w hw
  have hwait := h.mustWait_iff hp hw
  -- an inactive producer has pushed the chunk
  have hstored : c.data.getMustWait p v = false → w ∈ stored := by
    intro hgo
    by_contra hs
    cases hact : c.data.active p with
    | true =>
      rw [hwait.mpr ⟨hs, hact⟩] at hgo
      cases hgo
    | false =>
      refine hs (h.stored_of_sent hp hw ?_ hnot)
      rw [h.base.sentBy_of_inactive hact]
      exact (List.getElem?_eq_some_iff.mp hw).1
  have hloop : seg = getLoop p v c.data := by
    rcases Monitor.segment_eq_some hseg with e | e
    · rw [e]
      show ThreadSafeBatchQueue.get p v c.data = getLoop p v c.data
      unfold ThreadSafeBatchQueue.get
      rw [if_neg]
      rintro ⟨hitems, hactive⟩
      have hact := h.base.inv.activeProducers_eq_zero.mp hactive p hp
      have hs := h.stored_of_sent hp hw (by
        rw [h.base.sentBy_of_inactive hact]
        exact (List.getElem?_eq_some_iff.mp hw).1) hnot
      rw [h.base.inv.items, Int.natCast_eq_zero, List.length_eq_zero_iff] at hitems
      rw [hitems] at hs
      cases hs
    · exact e
  subst hloop
  have hcore := h.base.inv.toBatchCore
  rcases hcore.getLoop_cases h.length hp (h.base.inRange hp v) with ⟨_, e⟩ | ⟨hset, e⟩ |
    ⟨w', rest, hw', hpw', hmod, _, _, hlen, e⟩
  · exact Or.inl e
  · have hs := hstored (getMustWait_of_ret (congrArg Segment.exit e))
    have hslot := (h.slot hs).1
    rw [hpw, hiw] at hslot
    rw [hslot] at hset
    cases hset
  · have hs := hstored (getMustWait_of_ret (congrArg Segment.exit e))
    obtain rfl := hcore.stored_unique hw' hs (hpw'.trans hpw.symm) (by rw [hmod, hiw])
    exact Or.inr ⟨hs, rest, hlen, e⟩

/-! ## Steps -/

theorem ReplayInv.call_getter (h : ReplayInv S requests stored c) {s : ς} {i : Call T}
    (hi : (workers S).call (c.thread (.inr s)) = some i) :
    ∃ p v todo received, i = .get p ((v : Nat) : Int) ∧
      c.thread (.inr s) = .getter ((p, v) :: todo) received := by
  obtain ⟨todo, received, hth, _⟩ := h.getters s
  rw [hth] at hi
  cases todo with
  | nil => cases hi
  | cons r todo => exact ⟨r.1, r.2, todo, received, (Option.some.inj hi).symm, hth⟩

variable [DecidableEq ς]

/-- What a step does in the later pass. -/
inductive ReplayStep (S : Producers T) (stored : List T) (c : QueueConfig T ς) :
    Int ⊕ ς → QueueConfig T ς → Prop
  | producer {p : Int} {c' : QueueConfig T ς} :
      ProducerStep S c p c' → ReplayStep S stored c (.inl p) c'
  | idle {s : ς} {c' : QueueConfig T ς} : c'.data = c.data → c'.thread = c.thread →
      c'.history = c.history → ReplayStep S stored c (.inr s) c'
  | get {s : ς} {c' : QueueConfig T ς} (p : Int) (v : Nat) (todo : List (Int × Nat))
      (received : List T) (w : T) (rest : List T) :
      c.thread (.inr s) = .getter ((p, v) :: todo) received → (S.stream p)[v]? = some w →
      partitionId w = p → itemId w = v → w ∈ stored → w ∉ gotten c.history →
      rest.length + 1 = c.data.queue.length →
      c'.data = (afterRead w rest c.data).resetIfFinished.1 →
      c'.thread = Function.update c.thread (.inr s) (.getter todo (received ++ [w])) →
      c'.history = c.history ++ [⟨.inr s, .get p v, .value w⟩] → ReplayStep S stored c (.inr s) c'

/-- **What a step can do in the later pass.** -/
theorem ReplayInv.step_cases (h : ReplayInv S requests stored c) (hnext : NextNarrow S c.thread)
    (hplan : ReplayPlan S B requests) {t : Int ⊕ ς} (hs : Step monitor (workers S) c t c') :
    ReplayStep S stored c t c' := by
  match t, hs with
  | .inl p, hs => exact .producer (h.base.producer_step hnext hs)
  | .inr s, hs =>
    cases hs with
    | @wait i seg st cv hi hseg hdel hexit =>
      obtain ⟨p, v, todo, received, rfl, hth⟩ := h.call_getter hi
      obtain ⟨hp, _, w, hw, hpw, hiw, hnot⟩ := h.head hplan hth
      rcases h.get_cases hp hw hnot hseg with e | ⟨_, rest, _, e⟩
      · rw [e]
        exact .idle rfl rfl rfl
      · rw [e] at hexit
        cases hexit
    | @ret i seg st r hi hseg hdel hexit =>
      obtain ⟨p, v, todo, received, rfl, hth⟩ := h.call_getter hi
      obtain ⟨hp, _, w, hw, hpw, hiw, hnot⟩ := h.head hplan hth
      rcases h.get_cases hp hw hnot hseg with e | ⟨hst, rest, hlen, e⟩
      · rw [e] at hexit
        cases hexit
      · rw [e] at hexit
        cases hexit
        refine .get p v todo received w rest hth hw hpw hiw hst hnot hlen (by rw [e]) ?_ rfl
        simp [hth, workers]
    | spurious _ => exact .idle rfl rfl rfl

omit [DecidableEq ς] in
theorem ReplayInv.producer (h : ReplayInv S requests stored c) {stored' : List T}
    (hbase : QueueInv S stored' c') (hlen : c'.data.queue.length = stored'.length)
    (hsplit : ∀ v ∈ pushed c'.history, v ∈ stored' ∨ v ∈ gotten c.history)
    (hfresh : ∀ v ∈ stored', v ∉ gotten c.history)
    (hth : ∀ s, c'.thread (.inr s) = c.thread (.inr s))
    (hgot : gotten c'.history = gotten c.history)
    (hpush : ∀ v ∈ pushed c.history, v ∈ pushed c'.history)
    (hans : ∀ e ∈ c'.history, e ∈ c.history ∨ ∀ p v, e.call ≠ .get p v) :
    ReplayInv S requests stored' c' where
  base := hbase
  length := hlen
  split := by rw [hgot]; exact hsplit
  fresh := by rw [hgot]; exact hfresh
  getters := fun s => by rw [hth, hgot]; exact h.getters s
  owners := fun v hv => by
    rw [hgot] at hv
    obtain ⟨s, todo, received, hs, hr⟩ := h.owners v hv
    exact ⟨s, todo, received, by rw [hth]; exact hs, hr⟩
  gottenNodup := by rw [hgot]; exact h.gottenNodup
  gottenPushed := fun v hv => hpush v (h.gottenPushed v (hgot ▸ hv))
  answers := fun e he p v hc => by
    rcases hans e he with hold | hno
    · exact h.answers e hold p v hc
    · exact absurd hc (hno p v)

omit [DecidableEq ς] in
theorem ReplayInv.congr (h : ReplayInv S requests stored c) (hd : c'.data = c.data)
    (hth : c'.thread = c.thread) (hh : c'.history = c.history) :
    ReplayInv S requests stored c' := by
  have hbase : QueueInv S stored c' :=
    h.base.congr hd (fun p => by rw [hth]) (by rw [hh]) (fun e he => by rw [hh]; exact he)
  refine h.producer hbase ?_ ?_ h.fresh (fun s => by rw [hth]) (by rw [hh]) ?_ ?_
  · rw [hd]
    exact h.length
  · rw [hh]
    exact h.split
  · rw [hh]
    exact fun _ hv => hv
  · rw [hh]
    exact fun _ he => Or.inl he

/-- **An answered request keeps the invariant.** -/
theorem ReplayInv.get {l₁ l₂ : List T} {w : T} (h : ReplayInv S requests (l₁ ++ w :: l₂) c)
    {s : ς} {p : Int} {v : Nat} {todo : List (Int × Nat)} {received rest : List T}
    (hth : c.thread (.inr s) = .getter ((p, v) :: todo) received)
    (hw : (S.stream p)[v]? = some w) (hpw : partitionId w = p) (hiw : itemId w = v)
    (hnot : w ∉ gotten c.history) (hlen : rest.length + 1 = c.data.queue.length)
    (hd : c'.data = (afterRead w rest c.data).resetIfFinished.1)
    (hth' : c'.thread = Function.update c.thread (.inr s) (.getter todo (received ++ [w])))
    (hh : c'.history = c.history ++ [⟨.inr s, .get p v, .value w⟩]) :
    ReplayInv S requests (l₁ ++ l₂) c' := by
  have hgot : gotten c'.history = gotten c.history ++ [w] := by
    rw [hh, gotten_append]
    rfl
  have hpushed : pushed c'.history = pushed c.history := by
    rw [hh, pushed_append]
    simp [pushed]
  have hnodup := h.base.inv.nodup
  rw [List.nodup_middle, List.nodup_cons] at hnodup
  refine ⟨?_, ?_, fun u hu => ?_, fun u hu => ?_, fun s' => ?_, fun u hu => ?_, ?_,
    fun u hu => ?_, ?_⟩
  · exact h.base.read rest hd (fun q => by rw [hth', Function.update_of_ne (by simp)]) _ rfl hh
  · have hq : c'.data.queue = rest := by
      rw [hd]
      exact resetIfFinished_queue _
    have := h.length
    rw [hq]
    simp only [List.length_append, List.length_cons] at this ⊢
    omega
  · rw [hpushed] at hu
    rw [hgot]
    have hold := h.split u hu
    simp only [List.mem_append, List.mem_cons, List.not_mem_nil, or_false] at hold ⊢
    tauto
  · rw [hgot, List.mem_append, List.mem_singleton, not_or]
    refine ⟨h.fresh u ?_, ?_⟩
    · simp only [List.mem_append, List.mem_cons] at hu ⊢
      tauto
    · rintro rfl
      exact hnodup.1 hu
  · rw [hth', hgot]
    obtain ⟨todo', received', hs', hreq, hrec⟩ := h.getters s'
    by_cases e : s' = s
    · subst e
      rw [hth] at hs'
      injection hs' with h₁ h₂
      subst h₁ h₂
      refine ⟨todo, received ++ [w], Function.update_self .., ?_, fun u hu => ?_⟩
      · rw [hreq, List.map_append, List.append_assoc]
        simp [keyOf, hpw, hiw]
      · rw [List.mem_append] at hu ⊢
        exact hu.imp (hrec u) id
    · rw [Function.update_of_ne (by simpa using e)]
      exact ⟨todo', received', hs', hreq, fun u hu => List.mem_append_left _ (hrec u hu)⟩
  · rw [hgot, List.mem_append, List.mem_singleton] at hu
    rw [hth']
    rcases hu with hu | rfl
    · obtain ⟨s', todo', received', hs', hr⟩ := h.owners u hu
      by_cases e : s' = s
      · subst e
        rw [hth] at hs'
        injection hs' with h₁ h₂
        subst h₁ h₂
        exact ⟨s', todo, received ++ [w], Function.update_self ..,
          List.mem_append_left _ hr⟩
      · exact ⟨s', todo', received', by rw [Function.update_of_ne (by simpa using e)]; exact hs',
          hr⟩
    · exact ⟨s, todo, received ++ [u], Function.update_self .., by simp⟩
  · rw [hgot]
    refine List.nodup_append.mpr ⟨h.gottenNodup, by simp, fun a ha b hb => ?_⟩
    rw [List.mem_singleton.mp hb]
    rintro rfl
    exact hnot ha
  · rw [hgot, List.mem_append, List.mem_singleton] at hu
    rw [hpushed]
    rcases hu with hu | rfl
    · exact h.gottenPushed u hu
    · exact h.base.stored_pushed u (by simp)
  · intro e he p' v' hc
    rw [hh, List.mem_append, List.mem_singleton] at he
    rcases he with he | rfl
    · exact h.answers e he p' v' hc
    · cases hc
      exact ⟨v, w, rfl, hw, rfl⟩

theorem ReplayInv.step (h : ReplayInv S requests stored c) (hnext : NextNarrow S c.thread)
    (hplan : ReplayPlan S B requests) {t : Int ⊕ ς} (hs : Step monitor (workers S) c t c') :
    ∃ stored', ReplayInv S requests stored' c' := by
  cases h.step_cases hnext hplan hs with
  | @producer p _ hp =>
    cases hp with
    | idle hd ht hh => exact ⟨stored, h.congr hd ht hh⟩
    | push v hpm hact ht hv hpv hbatch hd hth hh hsmall =>
      have hpushed : pushed c'.history = pushed c.history ++ [v] := by
        rw [hh, pushed_append]
        rfl
      have hbase := h.base.push hpm hact ht hv hpv hbatch hd hth hh hsmall
      refine ⟨stored ++ [v], h.producer hbase ?_ (fun u hu => ?_) (fun u hu => ?_)
        (fun s => by rw [hth, Function.update_of_ne (by simp)]) ?_
        (fun u hu => by rw [hpushed]; exact List.mem_append_left _ hu) (fun e he => ?_)⟩
      · rw [hd]
        show (c.data.queue ++ [v]).length = _
        rw [List.length_append, List.length_append, h.length]
      · rw [hpushed, List.mem_append, List.mem_singleton] at hu
        rw [List.mem_append, List.mem_singleton]
        rcases hu with hu | rfl
        · exact (h.split u hu).imp Or.inl id
        · exact Or.inl (Or.inr rfl)
      · rw [List.mem_append, List.mem_singleton] at hu
        rcases hu with hu | rfl
        · exact h.fresh u hu
        · intro hg
          have hnodup := hbase.pushed_nodup
          rw [hpushed] at hnodup
          exact (List.nodup_append.mp hnodup).2.2 u (h.gottenPushed u hg) u (by simp) rfl
      · rw [hh, gotten_append]
        simp [gotten]
      · rw [hh, List.mem_append, List.mem_singleton] at he
        exact he.imp id fun he => by rw [he]; simp
    | delete hpm hact ht hd hth hh =>
      have hbase := h.base.delete hpm hact ht hd hth hh
      refine ⟨stored, h.producer hbase ?_ (fun u hu => ?_) h.fresh
        (fun s => by rw [hth, Function.update_of_ne (by simp)]) ?_
        (fun u hu => by rw [hh, pushed_append]; exact List.mem_append_left _ hu) (fun e he => ?_)⟩
      · rw [hd]
        show (c.data.deactivate p).resetIfFinished.1.queue.length = _
        rw [resetIfFinished_queue]
        exact h.length
      · refine h.split u ?_
        rw [hh, pushed_append] at hu
        simpa [pushed] using hu
      · rw [hh, gotten_append]
        simp [gotten]
      · rw [hh, List.mem_append, List.mem_singleton] at he
        exact he.imp id fun he => by rw [he]; simp
  | idle hd ht hh => exact ⟨stored, h.congr hd ht hh⟩
  | get p v todo received w rest hth hw hpw hiw hst hnot hlen hd hth' hh =>
    obtain ⟨l₁, l₂, rfl⟩ := List.append_of_mem hst
    exact ⟨l₁ ++ l₂, h.get hth hw hpw hiw hnot hlen hd hth' hh⟩

/-! ## No deadlock -/

omit [DecidableEq ς] in
theorem ReplayInv.call_producer (h : ReplayInv S requests stored c) {p : Int} {i : Call T}
    (hi : (workers S).call (c.thread (.inl p)) = some i) :
    p ∈ S.ids ∧ c.data.active p = true ∧
      ((∃ v, i = .push v ∧ (S.stream p)[sentBy S c.thread p]? = some v) ∨
        i = .deleteProducer p ∧ sentBy S c.thread p = (S.stream p).length) := by
  rcases h.base.producers p with ⟨hth, _⟩ | ⟨hp, hact, next, hle, hth⟩
  · rw [hth] at hi
    cases hi
  · have hsent : sentBy S c.thread p = next := by simp [sentBy, hth]
    rw [hth] at hi
    simp only [workers] at hi
    rw [hsent]
    refine ⟨hp, hact, ?_⟩
    split at hi
    · rename_i v hv
      exact Or.inl ⟨v, (Option.some.inj hi).symm, hv⟩
    · rename_i hnone
      have := List.getElem?_eq_none_iff.mp hnone
      exact Or.inr ⟨(Option.some.inj hi).symm, by omega⟩

omit [DecidableEq ς] in
theorem ReplayInv.deletesUnheard (h : ReplayInv S requests stored c)
    (hplan : ReplayPlan S B requests) (hG : GetInv S c) (t : Int ⊕ ς) : DeletesUnheard S c t := by
  intro p hcall
  right
  intro t' ht'
  obtain ⟨q, rfl⟩ : ∃ q, t = .inl q := by
    cases t with
    | inl q => exact ⟨q, rfl⟩
    | inr s =>
      obtain ⟨_, _, _, _, hget, _⟩ := h.call_getter hcall
      cases hget
  obtain ⟨hq, _, ⟨v, hpush, _⟩ | ⟨hdel, hsent⟩⟩ := h.call_producer hcall
  · cases hpush
  · obtain rfl : p = q := by simpa using hdel
    obtain ⟨i', hi', hW⟩ := hG.reason t' _ ht'
    match t', hi' with
    | .inl q', hi' =>
      obtain ⟨_, _, ⟨v, rfl, _⟩ | ⟨rfl, _⟩⟩ := h.call_producer hi'
      · cases hW.1
      · exact hW
    | .inr s, hi' =>
      obtain ⟨p', v, todo, received, rfl, hth⟩ := h.call_getter hi'
      obtain ⟨hp', hv, w, hw, _, _, hnot⟩ := h.head hplan hth
      obtain rfl : p' = p :=
        h.base.inv.numbered.inj _ hp' _ hq (CondVar.dataNotReadyCV.inj hW.1).symm
      refine ((h.mustWait_iff hp' hw).mp hW.2).1 (h.stored_of_sent hp' hw ?_ hnot)
      rw [hsent]
      exact hv

omit [DecidableEq ς] in
/-- When each active producer is at the start of the next batch, the consumer
of a stored chunk can go on. -/
theorem ReplayInv.progress (h : ReplayInv S requests stored c) (hplan : ReplayPlan S B requests)
    (hB : c.data.batchSize = B)
    (hcov : ∀ p ∈ S.ids, ∀ i < (S.stream p).length, ∃ s, (p, i) ∈ requests s)
    (hwaiting : ∀ p ∈ S.ids, c.data.active p = true →
      (c.data.currentBatch + 1) * B ≤ sentBy S c.thread p) {w : T} (hw : w ∈ stored) :
    ∃ s p v todo received, c.thread (.inr s) = .getter ((p, v) :: todo) received ∧
      c.data.getMustWait p ((v : Nat) : Int) = false := by
  obtain ⟨hp, hbatch, _, _⟩ := h.base.inv.stored_spec w hw
  have hstream := (h.base.pushed_lt w (h.base.stored_pushed w hw)).2.2
  have hlen := (List.getElem?_eq_some_iff.mp hstream).1
  have hpos := h.base.inv.pos
  rw [hB] at hbatch hpos
  obtain ⟨s, hs⟩ := hcov _ hp _ hlen
  obtain ⟨todo, received, hth, hreq, hrec⟩ := h.getters s
  -- the stored chunk is still to be asked for
  have hmem : (partitionId w, itemId w) ∈ todo := by
    rw [hreq, List.mem_append] at hs
    rcases hs with hs | hs
    · obtain ⟨u, hu, hk⟩ := List.mem_map.mp hs
      obtain ⟨hpu, hiu⟩ := Prod.mk.inj hk
      have hg := hrec u hu
      have hsu := (h.base.pushed_lt u (h.gottenPushed u hg)).2.2
      rw [hpu, hiu, hstream] at hsu
      obtain rfl := Option.some.inj hsu
      exact absurd hg (h.fresh w hw)
    · exact hs
  cases todo with
  | nil => cases hmem
  | cons r todo =>
    obtain ⟨p, v⟩ := r
    obtain ⟨hp', hv, w', hw', _, _, hnot⟩ := h.head hplan hth
    refine ⟨s, p, v, todo, received, hth, ?_⟩
    -- so the next request is of no later batch, and its chunk has been sent
    have hle : v / B ≤ c.data.currentBatch := by
      rw [← hbatch]
      rcases List.mem_cons.mp hmem with e | hmem
      · rw [← (Prod.mk.inj e).2]
      · have hsorted := hplan.sorted s
        rw [hreq, List.pairwise_append, List.pairwise_cons] at hsorted
        exact hsorted.2.1.1 _ hmem
    have hsent : v < sentBy S c.thread p := by
      cases hact : c.data.active p with
      | true =>
        have hnext := hwaiting p hp' hact
        have hlt : v < (c.data.currentBatch + 1) * B :=
          (Nat.div_lt_iff_lt_mul hpos).mp (by omega)
        omega
      | false =>
        rw [h.base.sentBy_of_inactive hact]
        exact hv
    have hst := h.stored_of_sent hp' hw' hsent hnot
    by_contra hmust
    exact ((h.mustWait_iff hp' hw').mp (by simpa using hmust)).1 hst

omit [DecidableEq ς] in
/-- With the reasons of the sleepers, the invariant excludes a stuck state. -/
theorem ReplayInv.not_stuck (h : ReplayInv S requests stored c) (hnext : NextNarrow S c.thread)
    (hplan : ReplayPlan S B requests)
    (hB : c.data.batchSize = B) (hG : GetInv S c) : ¬ Stuck (workers S) c := by
  rintro ⟨⟨t, ht⟩, hsleep⟩
  -- a consumer with a request left waits, and so does an active producer
  have hgetter : ∀ s p v todo received, c.thread (.inr s) = .getter ((p, v) :: todo) received →
      c.data.getMustWait p ((v : Nat) : Int) = true := by
    intro s p v todo received hth
    have hcall : (workers S).call (c.thread (.inr s)) = some (.get p v) := by
      rw [hth]
      rfl
    obtain ⟨cv, hcv⟩ := hsleep (.inr s) (by rw [Unfinished, hcall]; simp)
    exact hG.noLostWakeup.get _ _ _ _ hcv hcall
  have hproducer : ∀ p ∈ S.ids, c.data.active p = true →
      sentBy S c.thread p < (S.stream p).length ∧
        (c.data.currentBatch + 1) * B ≤ sentBy S c.thread p ∧
        ∃ v, (workers S).call (c.thread (.inl p)) = some (.push v) ∧
          c.data.pushMustWait v = true := by
    intro p hp hact
    obtain ⟨next, _, hth, hsent⟩ := h.base.thread_of_active hp hact
    obtain ⟨i, hi⟩ : ∃ i, (workers S).call (c.thread (.inl p)) = some i := by
      rw [hth]
      simp only [workers]
      split
      · exact ⟨_, rfl⟩
      · exact ⟨_, rfl⟩
    obtain ⟨cv, hcv⟩ := hsleep (.inl p) (by rw [Unfinished, hi]; simp)
    obtain ⟨_, hi', hW⟩ := hG.reason _ _ hcv
    rw [hi] at hi'
    obtain rfl := Option.some.inj hi'
    obtain ⟨_, _, ⟨v, rfl, hv⟩ | ⟨rfl, _⟩⟩ := h.call_producer hi
    · obtain ⟨_, hid⟩ := S.sequential p hp _ v hv
      have hlater := (h.base.pushMustWait_iff hnext hp hact hi).mp hW.2
      rw [hB, hid] at hlater
      have hpos := h.base.inv.pos
      rw [hB] at hpos
      exact ⟨(List.getElem?_eq_some_iff.mp hv).1, (Nat.le_div_iff_mul_le hpos).mp hlater,
        v, hi, hW.2⟩
    · exact hW.elim
  by_cases hactive : ∃ p ∈ S.ids, c.data.active p = true
  · obtain ⟨p, hp, hact⟩ := hactive
    have hcov : ∀ p ∈ S.ids, ∀ i < (S.stream p).length, ∃ s, (p, i) ∈ requests s := by
      rcases hplan.covers with hcov | hshort
      · exact hcov
      · obtain ⟨hlt, hge, -⟩ := hproducer p hp hact
        have hlen := hshort p hp
        rw [Nat.add_mul] at hge
        omega
    cases hst : stored with
    | nil =>
      -- nothing is stored, so the batch is finished
      exact (hst ▸ h.base).not_all_waiting hnext (h.base.activeProducers_ne hp hact)
        fun q hq hactq => (hproducer q hq hactq).2.2
    | cons w l =>
      obtain ⟨s, q, v, todo, received, hth, hgo⟩ := h.progress hplan hB hcov
        (fun q hq hactq => (hproducer q hq hactq).2.1) (w := w) (by rw [hst]; simp)
      rw [hgetter s q v todo received hth] at hgo
      cases hgo
  · -- only a consumer can be unfinished, and its producer is not active
    obtain ⟨i, hi⟩ := Option.ne_none_iff_exists'.mp ht
    cases t with
    | inl p =>
      obtain ⟨hp, hact, _⟩ := h.call_producer hi
      exact hactive ⟨p, hp, hact⟩
    | inr s =>
      obtain ⟨p, v, todo, received, rfl, hth⟩ := h.call_getter hi
      obtain ⟨hp, _, w, hw, _⟩ := h.head hplan hth
      have hact := ((h.mustWait_iff hp hw).mp (hgetter s p v todo received hth)).2
      exact hactive ⟨p, hp, hact⟩

/-- **A later pass replays the first one.** When the consumers ask again for
what they popped in a complete first pass, every `Get` that returns returns
the chunk pushed under its pair, no chunk is returned twice, and the threads
never wait for each other forever. -/
theorem replay_returns_recorded {c₁ c₂ : QueueConfig T ς} (hB : 0 < B) (hnarrow : S.Narrow B)
    (h₁ : Reachable monitor (workers S) (popStart S B ς) c₁) (hdone : Complete S c₁)
    (h₂ : Reachable monitor (workers S) (getStart S B (records c₁)) c₂) :
    (∀ e ∈ c₂.history, ∀ p v, e.call = .get p v →
      ∃ n w, v = ((n : Nat) : Int) ∧ (S.stream p)[n]? = some w ∧ w ∈ pushed c₂.history ∧
        e.result = .value w) ∧
    (gotten c₂.history).Nodup ∧ ¬ Stuck (workers S) c₂ := by
  have hplan := replayPlan_of_complete hB hnarrow h₁ hdone
  have hinv : (∃ stored, ReplayInv S (records c₁) stored c₂) ∧ GetInv S c₂ ∧
      c₂.data.batchSize = B := by
    refine h₂.invariant (I := fun c => (∃ stored, ReplayInv S (records c₁) stored c) ∧
      GetInv S c ∧ c.data.batchSize = B)
      ⟨⟨[], ReplayInv.start hB hnarrow.slots⟩, GetInv.start hB hnarrow.slots _, rfl⟩ ?_
    intro c t c' ⟨⟨stored, hI⟩, hG, hBc⟩ hs
    refine ⟨hI.step (hnarrow.next _) hplan hs,
      hG.step hnarrow.ids (hI.deletesUnheard hplan hG t) hs, ?_⟩
    rcases hs.data_cases with he | ⟨i, seg, _, hseg, he⟩
    · rw [he, hBc]
    · rw [he, (segment_effect hseg).batchSize, hBc]
  obtain ⟨⟨stored, hI⟩, hG, hBc⟩ := hinv
  refine ⟨fun e he p v hc => ?_, hI.gottenNodup, hI.not_stuck (hnarrow.next _) hplan hBc hG⟩
  obtain ⟨n, w, hn, hw, hr⟩ := hI.answers e he p v hc
  refine ⟨n, w, hn, hw, hI.gottenPushed w ?_, hr⟩
  exact List.mem_filterMap.mpr ⟨e, he, by simp [hc, hr]⟩

/-- A later pass over two producers: the consumer `false`, who asks for `(1, 0)`,
falls asleep before the first push, and the consumer `true` before the last one. -/
theorem replay_returns_recorded_two :
    ∃ c₁ c₂, Complete twoProducers c₁ ∧
      Reachable monitor (workers twoProducers) (popStart twoProducers 1 Bool) c₁ ∧
      Reachable monitor (workers twoProducers) (getStart twoProducers 1 (records c₁)) c₂ ∧
      records c₁ false = [(1, 0)] ∧ records c₁ true = [(0, 0), (0, 1), (1, 1)] ∧
      gotten c₂.history = [(1, 0), (0, 0), (0, 1)] ∧
      c₂.status (.inr true) = .asleep (.dataNotReadyCV 1) ∧ (gotten c₂.history).Nodup ∧
      ¬ Stuck (workers twoProducers) c₂ := by
  let threads : List (Int ⊕ Bool) := [.inl 0, .inl 1, .inr false, .inr true]
  let facts : QueueConfig (Int × Nat) Bool × QueueConfig (Int × Nat) Bool → _ := fun x =>
    (threads.map fun t => ((workers twoProducers).call (x.1.thread t)).isNone,
      [records x.1 false, records x.1 true, gotten x.2.history],
      decide (x.2.status (.inr true) = .asleep (.dataNotReadyCV 1)))
  have hschedule : ((popTwo [.inr false, .inr true, .inl 0, .inl 0, .inl 1, .inr true, .inr false,
        .inl 0, .inr true, .inl 1, .inl 0, .inl 1, .inr true, .inr false, .inr true]).bind fun c =>
      (Config.schedule monitor (workers twoProducers) threads
        [.inr false, .inl 0, .inl 0, .inl 1, .inr false, .inr true, .inl 0, .inr true, .inr true]
        (getStart twoProducers 1 (records c))).map fun d => facts (c, d)) =
      some ([true, true, true, true],
        [[(1, 0)], [(0, 0), (0, 1), (1, 1)], [(1, 0), (0, 0), (0, 1)]], true) := by
    decide +kernel
  obtain ⟨c₁, hc₁, hmap⟩ := Option.bind_eq_some_iff.mp hschedule
  obtain ⟨c₂, hc₂, hfacts⟩ := Option.map_eq_some_iff.mp hmap
  simp only [facts, threads, Prod.mk.injEq, List.cons.injEq, List.map_cons, List.map_nil, and_true,
    Option.isNone_iff_eq_none, decide_eq_true_eq] at hfacts
  obtain ⟨⟨hzero, hone, hfalse, htrue⟩, ⟨hrec, hrec', hgotten⟩, hasleep⟩ := hfacts
  have hnarrow : twoProducers.Narrow 1 := twoProducers_narrow (by decide)
  have h₁ := reachable_popTwo (by simp) hc₁
  obtain ⟨tr₂, h₂, _⟩ := Run.of_schedule (by simp [threads]) nofun hc₂
  have hdone : Complete twoProducers c₁ := by
    rintro (p | s) hun
    · rcases (PopInv.reachable (by decide) hnarrow h₁).base.producers p with ⟨hth, _⟩ | ⟨hp, _⟩
      · rw [Unfinished, hth] at hun
        exact hun rfl
      · rcases List.mem_cons.mp hp with rfl | hp
        · exact hun hzero
        · obtain rfl := List.mem_singleton.mp hp
          exact hun hone
    · cases s with
      | false => exact hun hfalse
      | true => exact hun htrue
  have hreplay := replay_returns_recorded (by decide) hnarrow h₁ hdone ⟨tr₂, h₂⟩
  exact ⟨c₁, c₂, hdone, h₁, ⟨tr₂, h₂⟩, hrec, hrec', hgotten, hasleep, hreplay.2⟩

end SasLibclient
