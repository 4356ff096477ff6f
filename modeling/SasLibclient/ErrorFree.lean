import SasLibclient.Delivery

/-!
# Readers that store no error

When no reader stores an error, `Get` reports none, and a queue only gets the
chunks of its readers. For one reader and one consumer of a streaming queue
there is a complete run: the reader pushes a chunk, the consumer pops it, and at
the end `Get` returns no chunk.
-/

namespace SasLibclient

open Monitors QueueItem

variable {T : Type} [QueueItem T] {S : ReadSetup T} {capacity : Nat} {p : Int}

section Quiet

variable {ς : Type} [DecidableEq ς] {c c' : ReadConfig T ς} {consumerOf : ς → Nat} {s : ς} {i : Nat}
  {results : List (Option T × S2ClientError)} {readers : List Int} {err : S2ClientError}

/-- No reader stores an error. -/
def ReadSetup.ErrorFree (S : ReadSetup T) : Prop :=
  ∀ p ∈ S.partitions, ∀ e, .setError e ∉ S.actions p

theorem ReadSetup.partitionId_of_push (S : ReadSetup T) {v : T} (hp : p ∈ S.partitions)
    (hv : .push v ∈ S.actions p) : partitionId v = p := by
  rcases S.shape p hp with hnil | hactions
  · rw [hnil] at hv
    cases hv
  · rw [hactions] at hv
    have hmem : v ∈ S.chunks p := by simpa [readerActions] using hv
    obtain ⟨i, hi⟩ := List.getElem?_of_mem hmem
    exact (S.numbers p hp i v hi).1

/-- `Get` has not met an error. -/
def GetState.Quiet : GetState → Prop
  | .popping => True
  | .collecting _ err => err.errorCode = 0
  | .reporting _ => False

/-- A reader whose calls are left from `S.actions`, or a consumer that has not
been told of an error. -/
def QuietThread (S : ReadSetup T) (consumerOf : ς → Nat) : Int ⊕ ς → ReadThread T → Prop
  | .inl p, ℓ => ∃ todo, ℓ = .reader p todo ∧ ∀ a ∈ todo, p ∈ S.partitions ∧ a ∈ S.actions p
  | .inr s, ℓ => ∃ results state, ℓ = .consumer (consumerOf s) results state ∧
      (∀ r ∈ results, r.2.errorCode = 0) ∧ state.Quiet

structure QuietInv (S : ReadSetup T) (consumerOf : ς → Nat) (c : ReadConfig T ς) : Prop where
  threads : ∀ t, QuietThread S consumerOf t (c.thread t)
  errors : ∀ p, (c.data.readerError p).errorCode = 0
  pushed : ∀ i, ∀ v ∈ (logOf i c.history).pushed, partitionId v ∈ S.ids i

omit [DecidableEq ς] in
theorem QuietInv.start (kind : QueueKind) :
    QuietInv S consumerOf (readStart S kind capacity consumerOf) := by
  constructor
  · intro t
    cases t with
    | inl p =>
      refine ⟨_, rfl, ?_⟩
      intro a ha
      split at ha
      · rename_i hp
        exact ⟨hp, ha⟩
      · cases ha
    | inr s => exact ⟨[], .popping, rfl, by simp, trivial⟩
  · exact fun p => rfl
  · intro i v hv
    cases hv

omit [DecidableEq ς] in
theorem quietThread_afterLoop (hresults : ∀ r ∈ results, r.2.errorCode = 0)
    (herr : err.errorCode = 0) :
    QuietThread S consumerOf (.inr s) (afterLoop (consumerOf s) results readers err) := by
  cases readers with
  | nil =>
    refine ⟨results ++ [(none, err)], .popping, by simp [afterLoop, herr], ?_, trivial⟩
    intro r hr
    rcases List.mem_append.mp hr with hr | hr
    · exact hresults r hr
    · rw [List.mem_singleton.mp hr]
      exact herr
  | cons p readers => exact ⟨results, .collecting (p :: readers) err, rfl, hresults, herr⟩

theorem segment_readerError {status : Status (Nat × CondVar)} {call : SharedCall T}
    {d : SharedState T} {seg : SharedSegment T} (hseg : sharedMonitor.segment status call d = some seg)
    (hcall : ∀ p e, call ≠ .setReaderError p e) : seg.data.readerError = d.readerError := by
  rcases Monitor.segment_eq_some hseg with rfl | rfl
  · cases call with
    | setReaderError p e => exact absurd rfl (hcall p e)
    | queue i call => rfl
    | getReaderError p => rfl
    | setError e => rfl
  · cases call with
    | setReaderError p e => exact absurd rfl (hcall p e)
    | queue i call => rfl
    | getReaderError p => rfl
    | setError e => rfl

omit [QueueItem T] in
theorem call_of_mem_queueEvents {τ : Type} {h : List (Event τ (SharedCall T) (SharedResult T))}
    {e : Event τ (Call T) (Result T)} (he : e ∈ queueEvents i h) :
    ∃ e' ∈ h, e'.call = .queue i e.call := by
  obtain ⟨e', he', hev⟩ := List.mem_filterMap.mp he
  refine ⟨e', he', ?_⟩
  split at hev
  · rename_i j call r hcall _
    split at hev
    · rename_i hij
      rw [hcall, hij, ← Option.some.inj hev]
    · cases hev
  · cases hev

omit [QueueItem T] in
/-- A completed call pushes at most the value of its `Push`. -/
theorem mem_pushed_append {τ : Type} {t : τ} {call : SharedCall T} {r : SharedResult T} {v : T}
    {h : List (Event τ (SharedCall T) (SharedResult T))}
    (hv : v ∈ (logOf i (h ++ [⟨t, call, r⟩])).pushed) :
    v ∈ (logOf i h).pushed ∨ call = .queue i (.push v) := by
  have happend : (logOf i (h ++ [⟨t, call, r⟩])).pushed =
      (logOf i h).pushed ++ SasLibclient.pushed (queueEvents i [⟨t, call, r⟩]) := by
    show SasLibclient.pushed (queueEvents i (h ++ _)) = _
    rw [queueEvents, List.filterMap_append, pushed_append]
    rfl
  rw [happend, List.mem_append] at hv
  refine hv.imp_right ?_
  intro hv
  obtain ⟨e, he, hcall⟩ := call_of_mem_pushed hv
  obtain ⟨e', he', hcall'⟩ := call_of_mem_queueEvents he
  obtain rfl := List.mem_singleton.mp he'
  rw [hcall] at hcall'
  exact hcall'

/-- A call that stores no error and pushes a chunk only where it belongs. -/
structure QuietCall (S : ReadSetup T) (consumerOf : ς → Nat) (c : ReadConfig T ς) (t : Int ⊕ ς)
    (call : SharedCall T) : Prop where
  stores : ∀ p e, call ≠ .setReaderError p e
  pushes : ∀ i v, call = .queue i (.push v) → partitionId v ∈ S.ids i
  after : ∀ status seg r, sharedMonitor.segment status call c.data = some seg →
    seg.exit = .ret r → QuietThread S consumerOf t (S.threads.after (c.thread t) r)

omit [DecidableEq ς] in
theorem QuietInv.reader_call (hS : S.ErrorFree) (h : QuietInv S consumerOf c)
    {call : SharedCall T} (hcall : S.threads.call (c.thread (.inl p)) = some call) :
    QuietCall S consumerOf c (.inl p) call := by
  obtain ⟨todo, hthread, htodo⟩ := h.threads (.inl p)
  rw [hthread] at hcall
  cases todo with
  | nil => cases hcall
  | cons a todo =>
    obtain ⟨hp, ha⟩ := htodo a List.mem_cons_self
    have hafter : ∀ status seg r, sharedMonitor.segment status call c.data = some seg →
        seg.exit = .ret r → QuietThread S consumerOf (.inl p)
          (S.threads.after (c.thread (.inl p)) r) := by
      intro status seg r _ _
      rw [hthread]
      exact ⟨todo, rfl, fun a' ha' => htodo a' (List.mem_cons_of_mem _ ha')⟩
    cases a with
    | push v =>
      obtain rfl := Option.some.inj hcall
      refine ⟨by simp, ?_, hafter⟩
      intro i w hw
      simp only [SharedCall.queue.injEq, Call.push.injEq] at hw
      obtain ⟨rfl, rfl⟩ := hw
      rw [S.partitionId_of_push hp ha, S.mem_ids]
      exact ⟨hp, rfl⟩
    | setError e => exact absurd ha (hS p hp e)
    | deleteProducer =>
      obtain rfl := Option.some.inj hcall
      exact ⟨by simp, by simp, hafter⟩

omit [DecidableEq ς] in
theorem QuietInv.consumer_call (h : QuietInv S consumerOf c) {call : SharedCall T}
    (hcall : S.threads.call (c.thread (.inr s)) = some call) :
    QuietCall S consumerOf c (.inr s) call := by
  obtain ⟨results, state, hthread, hresults, hstate⟩ := h.threads (.inr s)
  rw [hthread] at hcall
  cases state with
  | popping =>
    obtain rfl := Option.some.inj hcall
    refine ⟨by simp, by simp, ?_⟩
    intro status seg r _ _
    rw [hthread]
    have hsame : QuietThread S consumerOf (.inr s) (.consumer (consumerOf s) results .popping) :=
      ⟨results, .popping, rfl, hresults, trivial⟩
    cases r with
    | unit | error e => exact hsame
    | queue r =>
      cases r with
      | unit | abort what => exact hsame
      | value v =>
        refine ⟨results ++ [(some v, .none)], .popping, rfl, ?_, trivial⟩
        intro r hr
        rcases List.mem_append.mp hr with hr | hr
        · exact hresults r hr
        · rw [List.mem_singleton.mp hr]
          rfl
      | outOfRange what => exact quietThread_afterLoop hresults rfl
  | collecting readers err =>
    cases readers with
    | nil => cases hcall
    | cons p readers =>
      obtain rfl := Option.some.inj hcall
      refine ⟨by simp, by simp, ?_⟩
      intro status seg r hseg hexit
      have hr : r = .error (c.data.readerError p) := by
        rcases Monitor.segment_eq_some hseg with rfl | rfl
        · exact (Exit.ret.inj hexit).symm
        · exact (Exit.ret.inj hexit).symm
      rw [hthread, hr]
      refine quietThread_afterLoop hresults ?_
      rw [collectError, if_neg (by rw [h.errors p]; simp)]
      exact hstate
  | reporting err => exact absurd hstate id

theorem QuietInv.step (hS : S.ErrorFree) (h : QuietInv S consumerOf c) {t : Int ⊕ ς}
    (hs : Step sharedMonitor S.threads c t c') : QuietInv S consumerOf c' := by
  have hcall : ∀ call, S.threads.call (c.thread t) = some call →
      QuietCall S consumerOf c t call := by
    intro call hcall
    cases t with
    | inl p => exact h.reader_call hS hcall
    | inr s => exact h.consumer_call hcall
  cases hs with
  | @wait call seg status cv hi hseg _ _ =>
    refine ⟨h.threads, ?_, h.pushed⟩
    intro p
    rw [segment_readerError hseg (hcall call hi).stores]
    exact h.errors p
  | @ret call seg status r hi hseg _ hexit =>
    have hquiet := hcall call hi
    constructor
    · intro t'
      by_cases e : t' = t
      · subst e
        simp only [Function.update_self]
        exact hquiet.after _ seg r hseg hexit
      · simp only [Function.update_of_ne e]
        exact h.threads t'
    · intro p
      rw [segment_readerError hseg hquiet.stores]
      exact h.errors p
    · intro i v hv
      rcases mem_pushed_append hv with hold | hnew
      · exact h.pushed i v hold
      · exact hquiet.pushes i v hnew
  | spurious _ => exact ⟨h.threads, h.errors, h.pushed⟩

/-- **In every run** without stored errors, `Get` reports none, and what is
popped from a queue with one reader are chunks of this reader. -/
theorem quiet_of_errorFree (hS : S.ErrorFree) {kind : QueueKind} (hpos : 0 < capacity)
    (hnarrow : S.Narrow kind capacity)
    (hreach : Reachable sharedMonitor S.threads (readStart S kind capacity consumerOf) c) :
    (∀ s i results state, c.thread (.inr s) = .consumer i results state →
      ∀ r ∈ results, r.2.errorCode = 0) ∧
    ∀ i p, S.ids i = [p] →
      chunksOf p (logOf i c.history).popped = (logOf i c.history).popped := by
  have hquiet : QuietInv S consumerOf c :=
    hreach.invariant (.start kind) fun _ _ _ h hs => h.step hS hs
  have hinv := hreach.invariant (DeliveryInv.start hpos hnarrow) fun _ _ _ h hs => h.step hs
  constructor
  · intro s i results state hthread
    obtain ⟨results', state', hthread', hresults, -⟩ := hquiet.threads (.inr s)
    obtain ⟨-, rfl, -⟩ := ReadThread.consumer.inj (hthread.symm.trans hthread')
    exact hresults
  · intro i p hids
    obtain ⟨rest, hrest⟩ := (hinv.queues i).pushed_split
    apply List.filter_eq_self.mpr
    intro v hv
    have hmem := hquiet.pushed i v (by rw [hrest]; exact List.mem_append_left _ hv)
    rw [hids, List.mem_singleton] at hmem
    exact decide_eq_true hmem

end Quiet

section Complete

variable {c c₀ : ReadConfig T Unit} {rest : List T}

/-- The queue is empty, nobody waits, and the reader is about to push `rest`. -/
structure Idle (capacity : Nat) (p : Int) (rest : List T) (c : ReadConfig T Unit) : Prop where
  reader : c.thread (.inl p) = .reader p (readerActions rest none)
  consumer : ∃ results, c.thread (.inr ()) = .consumer 0 results .popping
  status : ∀ t, c.status t = .ready
  queue : c.data.queues 0 = .simple ⟨[], capacity, 1⟩
  error : c.data.readerError p = .none

theorem Idle.chunk {v : T} (h : Idle capacity p (v :: rest) c) (hpos : 0 < capacity)
    (hqueue : S.queueOf p = 0) : ∃ c₁ c₂, Step sharedMonitor S.threads c (.inl p) c₁ ∧
      Step sharedMonitor S.threads c₁ (.inr ()) c₂ ∧ Idle capacity p rest c₂ := by
  obtain ⟨results, hconsumer⟩ := h.consumer
  have hroom : capacity ≠ 0 := by omega
  have hpush : S.threads.call (c.thread (.inl p)) = some (.queue 0 (.push v)) := by
    rw [h.reader, ← hqueue]
    rfl
  obtain ⟨c₁, hstep₁, hdata₁, hthread₁, hready₁⟩ := Step.of_ready (M := sharedMonitor)
    (r := .queue .unit) h.status hpush (by
      apply onQueue_ret
      simp [h.queue, ConsumerQueue.enter, ThreadSafeSimpleQueue.segment,
        ThreadSafeSimpleQueue.push, hroom])
  have hconsumer₁ : c₁.thread (.inr ()) = .consumer 0 results .popping := by
    rw [hthread₁, Function.update_of_ne (by simp), hconsumer]
  have hqueue₁ : c₁.data.queues 0 = .simple ⟨[v], capacity, 1⟩ := by
    rw [hdata₁]
    simp [sharedMonitor, onQueue, h.queue, ConsumerQueue.enter, ThreadSafeSimpleQueue.segment,
      ThreadSafeSimpleQueue.push, hroom]
  have hpop : S.threads.call (c₁.thread (.inr ())) = some (.queue 0 .pop) := by
    rw [hconsumer₁]
    rfl
  obtain ⟨c₂, hstep₂, hdata₂, hthread₂, hready₂⟩ := Step.of_ready (M := sharedMonitor)
    (r := .queue (.value v)) hready₁ hpop (by
      apply onQueue_ret
      simp [hqueue₁, ConsumerQueue.enter, ThreadSafeSimpleQueue.segment,
        ThreadSafeSimpleQueue.pop])
  refine ⟨c₁, c₂, hstep₁, hstep₂, ?_, ?_, hready₂, ?_, ?_⟩
  · rw [hthread₂, Function.update_of_ne (by simp), hthread₁, Function.update_self, h.reader]
    rfl
  · refine ⟨results ++ [(some v, .none)], ?_⟩
    rw [hthread₂, Function.update_self, hconsumer₁]
    rfl
  · rw [hdata₂]
    simp [sharedMonitor, onQueue, hqueue₁, ConsumerQueue.enter, ThreadSafeSimpleQueue.segment,
      ThreadSafeSimpleQueue.pop]
  · rw [hdata₂, ← h.error]
    show c₁.data.readerError p = _
    rw [hdata₁]
    rfl

/-- The reader leaves, and `Get` returns no chunk. -/
theorem Idle.finish (h : Idle capacity p ([] : List T) c) (hqueue : S.queueOf p = 0)
    (hpart : S.partitions = [p]) (hreach : Reachable sharedMonitor S.threads c₀ c) :
    ∃ c' results, Reachable sharedMonitor S.threads c₀ c' ∧
      c'.thread (.inr ()) = .consumer 0 results .popping ∧ (none, .none) ∈ results := by
  obtain ⟨results, hconsumer⟩ := h.consumer
  have hdelete : S.threads.call (c.thread (.inl p)) = some (.queue 0 (.deleteProducer p)) := by
    rw [h.reader, ← hqueue]
    rfl
  obtain ⟨c₁, hstep₁, hdata₁, hthread₁, hready₁⟩ := Step.of_ready (M := sharedMonitor)
    (r := .queue .unit) h.status hdelete (by
      apply onQueue_ret
      simp [h.queue, ConsumerQueue.enter, ThreadSafeSimpleQueue.segment,
        ThreadSafeSimpleQueue.deleteProducer])
  have hconsumer₁ : c₁.thread (.inr ()) = .consumer 0 results .popping := by
    rw [hthread₁, Function.update_of_ne (by simp), hconsumer]
  have hqueue₁ : c₁.data.queues 0 = .simple ⟨[], capacity, 0⟩ := by
    rw [hdata₁]
    simp [sharedMonitor, onQueue, h.queue, ConsumerQueue.enter, ThreadSafeSimpleQueue.segment,
      ThreadSafeSimpleQueue.deleteProducer]
  have hpop : S.threads.call (c₁.thread (.inr ())) = some (.queue 0 .pop) := by
    rw [hconsumer₁]
    rfl
  obtain ⟨c₂, hstep₂, hdata₂, hthread₂, hready₂⟩ := Step.of_ready (M := sharedMonitor)
    (r := .queue (.outOfRange "Queue is empty")) hready₁ hpop (by
      apply onQueue_ret
      simp [hqueue₁, ConsumerQueue.enter, ThreadSafeSimpleQueue.segment,
        ThreadSafeSimpleQueue.pop])
  have hconsumer₂ : c₂.thread (.inr ()) = .consumer 0 results (.collecting [p] .none) := by
    rw [hthread₂, Function.update_self, hconsumer₁]
    show afterLoop 0 results S.partitions .none = _
    rw [hpart]
    rfl
  have hask : S.threads.call (c₂.thread (.inr ())) = some (.getReaderError p) := by
    rw [hconsumer₂]
    rfl
  have herror : c₂.data.readerError p = .none := by
    rw [hdata₂, ← h.error]
    show c₁.data.readerError p = _
    rw [hdata₁]
    rfl
  obtain ⟨c₃, hstep₃, -, hthread₃, -⟩ := Step.of_ready (M := sharedMonitor)
    (r := .error .none) hready₂ hask (by rw [← herror]; rfl)
  refine ⟨c₃, results ++ [(none, .none)], ((hreach.next hstep₁).next hstep₂).next hstep₃, ?_,
    by simp⟩
  rw [hthread₃, Function.update_self, hconsumer₂]
  rfl

/-- **Reading can be completed**, whatever the reader pushes. -/
theorem exists_complete_run (hpos : 0 < capacity) (hpart : S.partitions = [p])
    (hids : S.ids 0 = [p]) {chunks : List T} (hactions : S.actions p = readerActions chunks none) :
    ∃ c results, Reachable sharedMonitor S.threads
        (readStart S .streaming capacity fun _ : Unit => 0) c ∧
      c.thread (.inr ()) = .consumer 0 results .popping ∧ (none, .none) ∈ results := by
  have hqueue : S.queueOf p = 0 := by
    have hp : p ∈ S.ids 0 := by
      rw [hids]
      exact List.mem_singleton_self p
    exact ((S.mem_ids 0 p).mp hp).2
  have hstart : Idle capacity p chunks (readStart S .streaming capacity fun _ : Unit => 0) := by
    constructor
    · simp [readStart, hpart, hactions]
    · exact ⟨[], rfl⟩
    · exact fun t => rfl
    · simp [readStart, hids, ConsumerQueue.create, ThreadSafeSimpleQueue.create]
    · rfl
  have hrun : ∀ (rest : List T) (c : ReadConfig T Unit), Idle capacity p rest c →
      Reachable sharedMonitor S.threads (readStart S .streaming capacity fun _ : Unit => 0) c →
      ∃ c' results, Reachable sharedMonitor S.threads
          (readStart S .streaming capacity fun _ : Unit => 0) c' ∧
        c'.thread (.inr ()) = .consumer 0 results .popping ∧ (none, .none) ∈ results := by
    intro rest
    induction rest with
    | nil =>
      intro c hidle hreach
      exact hidle.finish hqueue hpart hreach
    | cons v rest ih =>
      intro c hidle hreach
      obtain ⟨c₁, c₂, hstep₁, hstep₂, hnext⟩ := hidle.chunk hpos hqueue
      exact ih c₂ hnext ((hreach.next hstep₁).next hstep₂)
  exact hrun chunks _ hstart .refl

end Complete

end SasLibclient
