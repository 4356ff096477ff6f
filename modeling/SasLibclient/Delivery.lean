import SasLibclient.ChunkQueue

/-!
# Readers and consumers of a chunk queue

All interleavings of the readers of a chunk queue and of consumers that call
`Get` again and again. `DeliveryInv` relates the threads to the logs of the
queues: what a reader has pushed is the beginning of its chunks, `m_error` is
set before `DeleteProducer`, and a consumer that collects errors has a queue
whose producers have all left and whose chunks have all been popped.
-/

namespace SasLibclient

open Monitors QueueItem

/-- The readers of a chunk queue: the chunks of each, the error it ends with,
and the calls it makes, none at all when it ended the process. -/
structure ReadSetup (T : Type) [QueueItem T] where
  partitions : List Int
  queueOf : Int → Nat
  ids : Nat → List Int
  mem_ids : ∀ i p, p ∈ ids i ↔ p ∈ partitions ∧ queueOf p = i
  nodup : ∀ i, (ids i).Nodup
  chunks : Int → List T
  error : Int → Option S2ClientError
  actions : Int → List (ReaderAction T)
  numbers : ∀ p ∈ partitions, Numbers p (chunks p)
  shape : ∀ p ∈ partitions, actions p = [] ∨ actions p = readerActions (chunks p) (error p)

/-- The number of chunks of a reader. -/
def ReadSetup.lengthOf {T : Type} [QueueItem T] (S : ReadSetup T) (p : Int) : Nat :=
  (S.chunks p).length

/-- In the queues of a multi-pass reading, the ids of the chunks, the batch size
and the slots are in the range of `int`. -/
def ReadSetup.Narrow {T : Type} [QueueItem T] (S : ReadSetup T) (kind : QueueKind)
    (capacity : Nat) : Prop :=
  kind = .multiPass → capacity < 2 ^ 31 ∧ ∀ i, (∀ p ∈ S.ids i, S.lengthOf p < 2 ^ 31) ∧
    (S.ids i).length * capacity < 2 ^ 31

abbrev ReadConfig (T ς : Type) :=
  Config (SharedState T) (Nat × CondVar) (SharedCall T) (SharedResult T) (ReadThread T) (Int ⊕ ς)

/-- Fresh queues and readers; `consumerOf` is the argument that a consumer
passes to `Get`. -/
def readStart {T ς : Type} [QueueItem T] (S : ReadSetup T) (kind : QueueKind) (capacity : Nat)
    (consumerOf : ς → Nat) : ReadConfig T ς where
  data :=
    { queues := fun i => ConsumerQueue.create kind capacity (S.ids i)
      readerError := fun _ => .none
      error := .none }
  thread
    | .inl p => .reader p (if p ∈ S.partitions then S.actions p else [])
    | .inr s => .consumer (consumerOf s) [] .popping
  status := fun _ => .ready
  history := []

variable {T : Type}

/-! ## The logs -/

section Logs

variable {τ : Type} {t : τ} {i j : Nat} {v : T} {p : Int} {call : Call T} {r : Result T}
  {h : List (Event τ (SharedCall T) (SharedResult T))}

theorem logOf_other (hij : i ≠ j) :
    logOf j (h ++ [⟨t, .queue i call, .queue r⟩]) = logOf j h := by
  simp [logOf, queueEvents, hij]

theorem logOf_push :
    logOf i (h ++ [⟨t, .queue i (.push v), .queue .unit⟩]) = (logOf i h).push v := by
  simp [logOf, queueEvents, QueueLog.push, pushed, popped, deleted]

theorem logOf_pop :
    logOf i (h ++ [⟨t, .queue i .pop, .queue (.value v)⟩]) = (logOf i h).pop v := by
  simp [logOf, queueEvents, QueueLog.pop, pushed, popped, deleted]

theorem logOf_throw {what : String} :
    logOf j (h ++ [⟨t, .queue i .pop, .queue (.outOfRange what)⟩]) = logOf j h := by
  by_cases hij : i = j <;> simp [logOf, queueEvents, pushed, popped, deleted, hij]

theorem logOf_delete :
    logOf i (h ++ [⟨t, .queue i (.deleteProducer p), .queue .unit⟩]) = (logOf i h).delete p := by
  simp [logOf, queueEvents, QueueLog.delete, pushed, popped, deleted]

theorem logOf_setReaderError {e : S2ClientError} {r : SharedResult T} :
    logOf i (h ++ [⟨t, .setReaderError p e, r⟩]) = logOf i h := by
  simp [logOf, queueEvents]

theorem logOf_getReaderError {r : SharedResult T} :
    logOf i (h ++ [⟨t, .getReaderError p, r⟩]) = logOf i h := by
  simp [logOf, queueEvents]

theorem logOf_setError {e : S2ClientError} {r : SharedResult T} :
    logOf i (h ++ [⟨t, .setError e, r⟩]) = logOf i h := by
  simp [logOf, queueEvents]

end Logs

/-! ## The place of a reader in its calls -/

/-- The calls left to a reader, the chunks it has pushed, the error it has
stored, and whether it called `DeleteProducer`. -/
inductive ReaderPlace (chunks : List T) (error : Option S2ClientError) :
    List (ReaderAction T) → List T → Option S2ClientError → Bool → Prop
  | ended : ReaderPlace chunks error [] [] none false
  | pushing {sent rest : List T} : chunks = sent ++ rest →
      ReaderPlace chunks error (readerActions rest error) sent none false
  | leaving : ReaderPlace chunks error [.deleteProducer] chunks error false
  | left : ReaderPlace chunks error [] chunks error true

section Place

variable {chunks sent : List T} {error err : Option S2ClientError} {left : Bool}
  {todo : List (ReaderAction T)} {v : T} {e : S2ClientError}

theorem ReaderPlace.push (h : ReaderPlace chunks error (.push v :: todo) sent err left) :
    left = false ∧ chunks[sent.length]? = some v ∧ ReaderPlace chunks error todo (sent ++ [v]) err
      false := by
  generalize htodo : ReaderAction.push v :: todo = calls at h
  cases h with
  | ended => cases htodo
  | @pushing _ rest hsplit =>
    cases rest with
    | nil => cases error <;> simp [readerActions] at htodo
    | cons w rest =>
      simp only [readerActions, List.map_cons, List.cons_append, List.cons.injEq,
        ReaderAction.push.injEq] at htodo
      obtain ⟨rfl, rfl⟩ := htodo
      refine ⟨rfl, by simp [hsplit], ?_⟩
      exact .pushing (by simp [hsplit])
  | leaving => cases htodo
  | left => cases htodo

theorem ReaderPlace.setError (h : ReaderPlace chunks error (.setError e :: todo) sent err left) :
    left = false ∧ sent = chunks ∧ ReaderPlace chunks error todo sent (some e) false := by
  generalize htodo : ReaderAction.setError e :: todo = calls at h
  cases h with
  | ended => cases htodo
  | @pushing _ rest hsplit =>
    cases rest with
    | nil =>
      cases error with
      | none => simp [readerActions] at htodo
      | some e' =>
        simp only [readerActions, List.map_nil, Option.map_some, Option.toList_some,
          List.nil_append, List.cons_append, List.cons.injEq, ReaderAction.setError.injEq] at htodo
        obtain ⟨rfl, rfl⟩ := htodo
        rw [List.append_nil] at hsplit
        rw [← hsplit]
        exact ⟨rfl, rfl, .leaving⟩
    | cons w rest => simp [readerActions] at htodo
  | leaving => cases htodo
  | left => cases htodo

theorem ReaderPlace.deleteProducer
    (h : ReaderPlace chunks error (.deleteProducer :: todo) sent err left) :
    left = false ∧ ReaderPlace chunks error todo sent err true := by
  generalize htodo : ReaderAction.deleteProducer :: todo = calls at h
  cases h with
  | ended => cases htodo
  | @pushing _ rest hsplit =>
    cases rest with
    | nil =>
      cases error with
      | none =>
        simp only [readerActions, List.map_nil, Option.map_none, Option.toList_none,
          List.nil_append, List.cons.injEq, true_and] at htodo
        rw [List.append_nil] at hsplit
        rw [htodo, ← hsplit]
        exact ⟨rfl, .left⟩
      | some e' => simp [readerActions] at htodo
    | cons w rest => simp [readerActions] at htodo
  | leaving =>
    simp only [List.cons.injEq, true_and] at htodo
    rw [htodo]
    exact ⟨rfl, .left⟩
  | left => cases htodo

theorem ReaderPlace.of_left (h : ReaderPlace chunks error todo sent err true) :
    todo = [] ∧ sent = chunks ∧ err = error := by
  cases h with
  | left => exact ⟨rfl, rfl, rfl⟩

end Place

/-! ## The invariant -/

section Invariant

variable {ς : Type} [QueueItem T]

/-- The chunks of partition `p` among `l`. -/
def chunksOf (p : Int) (l : List T) : List T := l.filter fun v => decide (partitionId v = p)

/-- The producers of the queue `i` have left and its chunks have been popped. -/
def Drained (S : ReadSetup T) (i : Nat) (c : ReadConfig T ς) : Prop :=
  (∀ p ∈ S.ids i, p ∈ (logOf i c.history).deleted) ∧
    (logOf i c.history).popped = (logOf i c.history).pushed

/-- The queue is drained, and its readers have not stored an error. -/
def DrainedOk (S : ReadSetup T) (i : Nat) (c : ReadConfig T ς) : Prop :=
  Drained S i c ∧ ∀ p ∈ S.ids i, (c.data.readerError p).errorCode = 0

/-- The reader of partition `p`. -/
structure ReadingInv (S : ReadSetup T) (c : ReadConfig T ς) (p : Int) (todo : List (ReaderAction T))
    (sent : List T) (err : Option S2ClientError) (left : Bool) : Prop where
  thread : c.thread (.inl p) = .reader p todo
  place : ReaderPlace (S.chunks p) (S.error p) todo sent err left
  calls : S.actions p = [] → todo = [] ∧ left = false
  sent : chunksOf p (logOf (S.queueOf p) c.history).pushed = sent
  left : p ∈ (logOf (S.queueOf p) c.history).deleted ↔ left = true
  error : c.data.readerError p = err.getD .none

/-- Where the current `Get` of consumer `i` is. The readers that it has asked
are those not in the list. -/
def GetPlace (S : ReadSetup T) (i : Nat) (c : ReadConfig T ς) : GetState → Prop
  | .popping => True
  | .collecting readers err => Drained S i c ∧ ∀ p ∈ S.ids i, p ∉ readers →
      (c.data.readerError p).errorCode ≠ 0 → err.errorCode ≠ 0
  | .reporting err => err.errorCode ≠ 0

/-- The thread of a consumer with argument `i`. -/
structure GettingInv (S : ReadSetup T) (c : ReadConfig T ς) (s : ς) (i : Nat)
    (results : List (Option T × S2ClientError)) (state : GetState) : Prop where
  thread : c.thread (.inr s) = .consumer i results state
  place : GetPlace S i c state
  results : ∀ e, (none, e) ∈ results → e.errorCode = 0 → DrainedOk S i c

structure DeliveryInv (S : ReadSetup T) (consumerOf : ς → Nat) (c : ReadConfig T ς) : Prop where
  readers : ∀ p ∈ S.partitions, ∃ todo sent err left, ReadingInv S c p todo sent err left
  others : ∀ p ∉ S.partitions, c.thread (.inl p) = .reader p []
  queues : ∀ i, (c.data.queues i).Serves (S.ids i) S.lengthOf (logOf i c.history)
  consumers : ∀ s, ∃ results state, GettingInv S c s (consumerOf s) results state

variable {S : ReadSetup T} {c c' : ReadConfig T ς} {consumerOf : ς → Nat} {p : Int} {i : Nat}
  {todo : List (ReaderAction T)} {sent : List T} {err : Option S2ClientError} {left : Bool}
  {results : List (Option T × S2ClientError)} {state : GetState} {s : ς}

theorem DeliveryInv.start {kind : QueueKind} {capacity : Nat} (hpos : 0 < capacity)
    (hnarrow : S.Narrow kind capacity) :
    DeliveryInv S consumerOf (readStart S kind capacity consumerOf) := by
  constructor
  · intro p hp
    refine ⟨S.actions p, [], none, false, ?_, ?_, fun hnil => ⟨hnil, rfl⟩, rfl, ?_, rfl⟩
    · simp [readStart, hp]
    · rcases S.shape p hp with hended | hactions
      · rw [hended]
        exact .ended
      · rw [hactions]
        exact .pushing rfl
    · simp [readStart, logOf, queueEvents, deleted]
  · intro p hp
    simp [readStart, hp]
  · intro i
    exact serves_create kind hpos (S.nodup i) fun hkind => (hnarrow hkind).2 i
  · intro s
    exact ⟨[], .popping, rfl, trivial, by simp⟩

/-! ### What a step changes -/

/-- A step leaves drained queues and the errors of their readers alone. -/
def KeepsDrained (S : ReadSetup T) (c c' : ReadConfig T ς) : Prop :=
  ∀ i, Drained S i c → Drained S i c' ∧
    ∀ p ∈ S.ids i, c'.data.readerError p = c.data.readerError p

theorem KeepsDrained.ok (h : KeepsDrained S c c') (hok : DrainedOk S i c) : DrainedOk S i c' := by
  obtain ⟨hdrained, herrors⟩ := h i hok.1
  refine ⟨hdrained, ?_⟩
  intro p hp
  rw [herrors p hp]
  exact hok.2 p hp

theorem KeepsDrained.place (h : KeepsDrained S c c') (hplace : GetPlace S i c state) :
    GetPlace S i c' state := by
  cases state with
  | popping => trivial
  | collecting readers err =>
    obtain ⟨hdrained, herrors⟩ := h i hplace.1
    refine ⟨hdrained, ?_⟩
    intro p hp hasked hcode
    rw [herrors p hp] at hcode
    exact hplace.2 p hp hasked hcode
  | reporting err => exact hplace

theorem GettingInv.keep (h : GettingInv S c s i results state) (hkeep : KeepsDrained S c c')
    (hthread : c'.thread (.inr s) = c.thread (.inr s)) : GettingInv S c' s i results state where
  thread := hthread.trans h.thread
  place := hkeep.place h.place
  results := by
    intro e he hcode
    exact hkeep.ok (h.results e he hcode)

theorem KeepsDrained.of_quiet (hlog : ∀ i, logOf i c'.history = logOf i c.history)
    (herror : c'.data.readerError = c.data.readerError) : KeepsDrained S c c' := by
  intro i hdrained
  rw [Drained, hlog, herror]
  exact ⟨hdrained, fun p _ => rfl⟩

/-- A step on a queue that is not drained. -/
theorem KeepsDrained.of_touched (hnot : ¬ Drained S i c)
    (hlog : ∀ j, i ≠ j → logOf j c'.history = logOf j c.history)
    (herror : ∀ p, S.queueOf p ≠ i → c'.data.readerError p = c.data.readerError p) :
    KeepsDrained S c c' := by
  intro j hdrained
  have hij : i ≠ j := by
    rintro rfl
    exact hnot hdrained
  rw [Drained, hlog j hij]
  refine ⟨hdrained, ?_⟩
  intro p hp
  have hqueue := ((S.mem_ids j p).mp hp).2
  exact herror p (by rw [hqueue]; exact hij.symm)

/-- A reader that has not left keeps its queue from being drained. -/
theorem ReadingInv.not_drained (h : ReadingInv S c p todo sent err left) (hp : p ∈ S.partitions)
    (hleft : left = false) : ¬ Drained S (S.queueOf p) c := by
  intro hdrained
  have hdeleted := hdrained.1 p ((S.mem_ids _ _).mpr ⟨hp, rfl⟩)
  rw [h.left, hleft] at hdeleted
  cases hdeleted

theorem ReadingInv.no_calls {action : ReaderAction T} {todo' : List (ReaderAction T)} {left' : Bool}
    (h : ReadingInv S c p (action :: todo) sent err left) (hnil : S.actions p = []) :
    todo' = [] ∧ left' = false :=
  absurd (h.calls hnil).1 (by simp)

/-- A reader is not concerned by what another thread does. -/
theorem ReadingInv.keep (h : ReadingInv S c p todo sent err left)
    (hthread : c'.thread (.inl p) = c.thread (.inl p))
    (hpushed : chunksOf p (logOf (S.queueOf p) c'.history).pushed =
      chunksOf p (logOf (S.queueOf p) c.history).pushed)
    (hdeleted : p ∈ (logOf (S.queueOf p) c'.history).deleted ↔
      p ∈ (logOf (S.queueOf p) c.history).deleted)
    (herror : c'.data.readerError p = c.data.readerError p) :
    ReadingInv S c' p todo sent err left where
  thread := hthread.trans h.thread
  place := h.place
  calls := h.calls
  sent := hpushed.trans h.sent
  left := hdeleted.trans h.left
  error := herror.trans h.error

theorem DeliveryInv.congr (h : DeliveryInv S consumerOf c) (hd : c'.data = c.data)
    (ht : c'.thread = c.thread) (hh : c'.history = c.history) : DeliveryInv S consumerOf c' := by
  obtain ⟨data, thread, status, history⟩ := c
  obtain ⟨data', thread', status', history'⟩ := c'
  obtain rfl : data' = data := hd
  obtain rfl : thread' = thread := ht
  obtain rfl : history' = history := hh
  constructor
  · intro p hp
    obtain ⟨todo, sent, err, left, hr⟩ := h.readers p hp
    exact ⟨todo, sent, err, left, hr.thread, hr.place, hr.calls, hr.sent, hr.left, hr.error⟩
  · exact h.others
  · exact h.queues
  · intro s
    obtain ⟨results, state, hs⟩ := h.consumers s
    exact ⟨results, state, hs.thread, KeepsDrained.place (fun _ hi => ⟨hi, fun _ _ => rfl⟩) hs.place,
      hs.results⟩

/-! ### One step -/

/-- The threads of the setup. -/
abbrev ReadSetup.threads (S : ReadSetup T) :
    Program (ReadThread T) (SharedCall T) (SharedResult T) :=
  chunkQueueThreads S.partitions S.queueOf

/-- The configuration after thread `t` returned `r` from a call. -/
def returned (S : ReadSetup T) (c : ReadConfig T ς) [DecidableEq ς] (t : Int ⊕ ς)
    (call : SharedCall T) (r : SharedResult T) (status : Int ⊕ ς → Status (Nat × CondVar)) :
    ReadConfig T ς where
  data := (sharedMonitor.enter call c.data).data
  thread := Function.update c.thread t (S.threads.after (c.thread t) r)
  status := status
  history := c.history ++ [⟨t, call, r⟩]

/-- A call waits and changes nothing, or returns and keeps the invariant. -/
def GoodCall (S : ReadSetup T) [DecidableEq ς] (consumerOf : ς → Nat) (c : ReadConfig T ς)
    (t : Int ⊕ ς) (call : SharedCall T) : Prop :=
  ((sharedMonitor.enter call c.data).data = c.data ∧
    ∃ cv, (sharedMonitor.enter call c.data).exit = .wait cv) ∨
  ∃ r, (sharedMonitor.enter call c.data).exit = .ret r ∧
    ∀ status, DeliveryInv S consumerOf (returned S c t call r status)

/-- The other queues still serve their logs. -/
theorem DeliveryInv.serves_update (h : DeliveryInv S consumerOf c) {q : ConsumerQueue T}
    {log : QueueLog T} {history : List (Event (Int ⊕ ς) (SharedCall T) (SharedResult T))}
    (hq : q.Serves (S.ids i) S.lengthOf log) (hlog : logOf i history = log)
    (hothers : ∀ j, i ≠ j → logOf j history = logOf j c.history) (j : Nat) :
    (Function.update c.data.queues i q j).Serves (S.ids j) S.lengthOf (logOf j history) := by
  by_cases hij : j = i
  · subst hij
    rw [Function.update_self, hlog]
    exact hq
  · rw [Function.update_of_ne hij, hothers j (Ne.symm hij)]
    exact h.queues j

theorem DeliveryInv.reader_step (h : DeliveryInv S consumerOf c) (hp : p ∈ S.partitions)
    (hr : ReadingInv S c' p todo sent err left) (hthread : ∀ t ≠ .inl p, c'.thread t = c.thread t)
    (hkeep : KeepsDrained S c c')
    (hqueues : ∀ i, (c'.data.queues i).Serves (S.ids i) S.lengthOf (logOf i c'.history))
    (hpushed : ∀ q ≠ p, chunksOf q (logOf (S.queueOf q) c'.history).pushed =
      chunksOf q (logOf (S.queueOf q) c.history).pushed)
    (hdeleted : ∀ q ≠ p, (q ∈ (logOf (S.queueOf q) c'.history).deleted ↔
      q ∈ (logOf (S.queueOf q) c.history).deleted))
    (herror : ∀ q ≠ p, c'.data.readerError q = c.data.readerError q) :
    DeliveryInv S consumerOf c' := by
  constructor
  · intro q hq
    by_cases e : q = p
    · subst e
      exact ⟨todo, sent, err, left, hr⟩
    · obtain ⟨todo', sent', err', left', hr'⟩ := h.readers q hq
      exact ⟨todo', sent', err', left', hr'.keep (hthread _ (by simpa using e)) (hpushed q e)
        (hdeleted q e) (herror q e)⟩
  · intro q hq
    have e : q ≠ p := by
      rintro rfl
      exact hq hp
    rw [hthread _ (by simpa using e)]
    exact h.others q hq
  · exact hqueues
  · intro s
    obtain ⟨results, state, hs⟩ := h.consumers s
    exact ⟨results, state, hs.keep hkeep (hthread _ (by simp))⟩

theorem DeliveryInv.consumer_step (h : DeliveryInv S consumerOf c)
    (hs : GettingInv S c' s (consumerOf s) results state)
    (hthread : ∀ t ≠ .inr s, c'.thread t = c.thread t) (hkeep : KeepsDrained S c c')
    (hqueues : ∀ i, (c'.data.queues i).Serves (S.ids i) S.lengthOf (logOf i c'.history))
    (hpushed : ∀ i, (logOf i c'.history).pushed = (logOf i c.history).pushed)
    (hdeleted : ∀ i, (logOf i c'.history).deleted = (logOf i c.history).deleted)
    (herror : c'.data.readerError = c.data.readerError) : DeliveryInv S consumerOf c' := by
  constructor
  · intro p hp
    obtain ⟨todo, sent, err, left, hr⟩ := h.readers p hp
    exact ⟨todo, sent, err, left, hr.keep (hthread _ (by simp)) (by rw [hpushed]) (by rw [hdeleted])
      (by rw [herror])⟩
  · intro p hp
    rw [hthread _ (by simp)]
    exact h.others p hp
  · exact hqueues
  · intro s'
    by_cases e : s' = s
    · subst e
      exact ⟨results, state, hs⟩
    · obtain ⟨results', state', hs'⟩ := h.consumers s'
      exact ⟨results', state', hs'.keep hkeep (hthread _ (by simpa using e))⟩

/-- `Get` after it has asked all readers but `readers`. -/
theorem GettingInv.afterLoop {readers : List Int} {e : S2ClientError}
    (hthread : c'.thread (.inr s) = afterLoop i results readers e)
    (hresults : ∀ e, (none, e) ∈ results → e.errorCode = 0 → DrainedOk S i c')
    (hplace : GetPlace S i c' (.collecting readers e)) :
    ∃ results' state', GettingInv S c' s i results' state' := by
  cases readers with
  | cons p ps => exact ⟨results, _, hthread, hplace, hresults⟩
  | nil =>
    by_cases hcode : e.errorCode = 0
    · refine ⟨results ++ [(none, e)], .popping, ?_, trivial, ?_⟩
      · simpa [SasLibclient.afterLoop, hcode] using hthread
      · intro e' he' hcode'
        refine ⟨hplace.1, ?_⟩
        intro p hp
        by_contra hp0
        exact hplace.2 p hp (by simp) hp0 hcode
    · refine ⟨results, .reporting (finalError e), ?_, hcode, hresults⟩
      simpa [SasLibclient.afterLoop, hcode] using hthread

variable [DecidableEq ς]

theorem DeliveryInv.push (h : DeliveryInv S consumerOf c) (hp : p ∈ S.partitions) {v : T}
    (hr : ReadingInv S c p (.push v :: todo) sent err left) :
    GoodCall S consumerOf c (.inl p) (.queue (S.queueOf p) (.push v)) := by
  obtain ⟨hleft, hget, hplace⟩ := hr.place.push
  obtain ⟨hpartition, hitem⟩ := S.numbers p hp sent.length v hget
  have hmem : partitionId v ∈ S.ids (S.queueOf p) := by
    rw [hpartition]
    exact (S.mem_ids _ _).mpr ⟨hp, rfl⟩
  have hlive : partitionId v ∉ (logOf (S.queueOf p) c.history).deleted := by
    rw [hpartition, hr.left, hleft]
    decide
  have hcount : ThreadSafeBatchQueue.countOf (partitionId v) (logOf (S.queueOf p) c.history).pushed =
      sent.length := by
    rw [hpartition, ← hr.sent, chunksOf, ThreadSafeBatchQueue.countOf, List.countP_eq_length_filter]
  have hlt : sent.length < S.lengthOf (partitionId v) := by
    rw [hpartition]
    exact (List.getElem?_eq_some_iff.mp hget).1
  rcases (h.queues (S.queueOf p)).push hmem hlive (by rwa [hcount])
    (by rw [hcount, hitem]; exact chunkIdOf_eq) with ⟨cv, hexit, hdata⟩ | ⟨hexit, hserves⟩
  · left
    obtain ⟨hsame, hwait⟩ := onQueue_wait hexit hdata
    exact ⟨hsame, _, hwait⟩
  · right
    refine ⟨_, onQueue_ret hexit, fun status => ?_⟩
    have hothers : ∀ j, S.queueOf p ≠ j → logOf j (c.history ++
        [⟨.inl p, .queue (S.queueOf p) (.push v), .queue .unit⟩]) = logOf j c.history :=
      fun j hj => logOf_other hj
    refine h.reader_step hp ⟨?_, hplace, hr.no_calls, ?_, ?_, hr.error⟩ ?_ ?_ ?_ ?_ ?_ ?_
    · simp [returned, hr.thread, chunkQueueThreads]
    · simp only [returned, logOf_push, QueueLog.push, chunksOf, List.filter_append]
      simp [← hr.sent, chunksOf, hpartition]
    · simp only [returned, logOf_push, QueueLog.push]
      rw [hr.left, hleft]
    · intro t ht
      exact Function.update_of_ne ht _ _
    · exact .of_touched (hr.not_drained hp hleft) hothers fun _ _ => rfl
    · exact h.serves_update hserves logOf_push hothers
    · intro q hq
      by_cases hqueue : S.queueOf p = S.queueOf q
      · simp [returned, hqueue.symm, logOf_push, QueueLog.push, chunksOf, hpartition, Ne.symm hq]
      · simp [returned, hothers _ hqueue]
    · intro q hq
      by_cases hqueue : S.queueOf p = S.queueOf q
      · simp [returned, hqueue.symm, logOf_push, QueueLog.push]
      · simp [returned, hothers _ hqueue]
    · exact fun _ _ => rfl

theorem DeliveryInv.deleteProducer (h : DeliveryInv S consumerOf c) (hp : p ∈ S.partitions)
    (hr : ReadingInv S c p (.deleteProducer :: todo) sent err left) :
    GoodCall S consumerOf c (.inl p) (.queue (S.queueOf p) (.deleteProducer p)) := by
  obtain ⟨hleft, hplace⟩ := hr.place.deleteProducer
  have hlive : p ∉ (logOf (S.queueOf p) c.history).deleted := by
    rw [hr.left, hleft]
    decide
  obtain ⟨hexit, hserves⟩ :=
    (h.queues (S.queueOf p)).deleteProducer ((S.mem_ids _ _).mpr ⟨hp, rfl⟩) hlive
  right
  refine ⟨_, onQueue_ret hexit, fun status => ?_⟩
  have hothers : ∀ j, S.queueOf p ≠ j → logOf j (c.history ++
      [⟨.inl p, .queue (S.queueOf p) (.deleteProducer p), .queue .unit⟩]) = logOf j c.history :=
    fun j hj => logOf_other hj
  refine h.reader_step hp ⟨?_, hplace, hr.no_calls, ?_, ?_, hr.error⟩ ?_ ?_ ?_ ?_ ?_ ?_
  · simp [returned, hr.thread, chunkQueueThreads]
  · simp [returned, logOf_delete, QueueLog.delete, hr.sent]
  · simp [returned, logOf_delete, QueueLog.delete]
  · intro t ht
    exact Function.update_of_ne ht _ _
  · exact .of_touched (hr.not_drained hp hleft) hothers fun _ _ => rfl
  · exact h.serves_update hserves logOf_delete hothers
  · intro q hq
    by_cases hqueue : S.queueOf p = S.queueOf q
    · simp [returned, hqueue.symm, logOf_delete, QueueLog.delete]
    · simp [returned, hothers _ hqueue]
  · intro q hq
    by_cases hqueue : S.queueOf p = S.queueOf q
    · simp [returned, hqueue.symm, logOf_delete, QueueLog.delete, hq]
    · simp [returned, hothers _ hqueue]
  · exact fun _ _ => rfl

theorem DeliveryInv.setReaderError (h : DeliveryInv S consumerOf c) (hp : p ∈ S.partitions)
    {e : S2ClientError} (hr : ReadingInv S c p (.setError e :: todo) sent err left) :
    GoodCall S consumerOf c (.inl p) (.setReaderError p e) := by
  obtain ⟨hleft, _, hplace⟩ := hr.place.setError
  right
  refine ⟨.unit, rfl, fun status => ?_⟩
  refine h.reader_step hp ⟨?_, hplace, hr.no_calls, ?_, ?_, ?_⟩ ?_ ?_ ?_ ?_ ?_ ?_
  · simp [returned, hr.thread, chunkQueueThreads]
  · simp [returned, logOf_setReaderError, hr.sent]
  · simp [returned, logOf_setReaderError, hr.left, hleft]
  · simp [returned, sharedMonitor]
  · intro t ht
    exact Function.update_of_ne ht _ _
  · refine .of_touched (hr.not_drained hp hleft) (fun _ _ => logOf_setReaderError) ?_
    intro q hq
    refine Function.update_of_ne ?_ _ _
    rintro rfl
    exact hq rfl
  · intro i
    simp only [returned, logOf_setReaderError]
    exact h.queues i
  · simp [returned, logOf_setReaderError]
  · simp [returned, logOf_setReaderError]
  · intro q hq
    exact Function.update_of_ne hq _ _

theorem DeliveryInv.reader_call (h : DeliveryInv S consumerOf c) {call : SharedCall T}
    (hcall : S.threads.call (c.thread (.inl p)) = some call) :
    GoodCall S consumerOf c (.inl p) call := by
  by_cases hp : p ∈ S.partitions
  · obtain ⟨todo, sent, err, left, hr⟩ := h.readers p hp
    rw [hr.thread] at hcall
    cases todo with
    | nil => cases hcall
    | cons action todo =>
      cases action with
      | push v =>
        obtain rfl := Option.some.inj hcall
        exact h.push hp hr
      | setError e =>
        obtain rfl := Option.some.inj hcall
        exact h.setReaderError hp hr
      | deleteProducer =>
        obtain rfl := Option.some.inj hcall
        exact h.deleteProducer hp hr
  · rw [h.others p hp] at hcall
    cases hcall

/-! ### Calls of a consumer -/

theorem DeliveryInv.pop (h : DeliveryInv S consumerOf c)
    (hs : GettingInv S c s (consumerOf s) results .popping) :
    GoodCall S consumerOf c (.inr s) (.queue (consumerOf s) .pop) := by
  rcases (h.queues (consumerOf s)).pop with
    ⟨cv, hexit, hdata⟩ | ⟨v, hexit, hserves⟩ | ⟨hexit, hdata, hdeleted, horder⟩
  · left
    obtain ⟨hsame, hwait⟩ := onQueue_wait hexit hdata
    exact ⟨hsame, _, hwait⟩
  · right
    refine ⟨_, onQueue_ret hexit, fun status => ?_⟩
    have hothers : ∀ j, consumerOf s ≠ j → logOf j (c.history ++
        [⟨.inr s, .queue (consumerOf s) .pop, .queue (.value v)⟩]) = logOf j c.history :=
      fun j hj => logOf_other hj
    -- a drained queue has nothing left to pop
    have hnot : ¬ Drained S (consumerOf s) c := by
      intro hdrained
      obtain ⟨rest, horder⟩ := hserves.pushed_split
      have hlength := congrArg List.length horder
      simp [QueueLog.pop, hdrained.2] at hlength
    have hkeep : KeepsDrained S c (returned S c (.inr s) (.queue (consumerOf s) .pop)
        (.queue (.value v)) status) := .of_touched hnot hothers fun _ _ => rfl
    have hlogs : ∀ i, (logOf i (c.history ++
          [⟨.inr s, .queue (consumerOf s) .pop, .queue (.value v)⟩])).pushed =
        (logOf i c.history).pushed ∧ (logOf i (c.history ++
          [⟨.inr s, .queue (consumerOf s) .pop, .queue (.value v)⟩])).deleted =
        (logOf i c.history).deleted := by
      intro i
      by_cases hi : consumerOf s = i
      · simp [← hi, logOf_pop, QueueLog.pop]
      · simp [hothers i hi]
    have hs' : GettingInv S (returned S c (.inr s) (.queue (consumerOf s) .pop)
        (.queue (.value v)) status) s (consumerOf s) (results ++ [(some v, .none)]) .popping := by
      refine ⟨?_, trivial, ?_⟩
      · simp [returned, hs.thread, chunkQueueThreads]
      · intro e he hcode
        refine hkeep.ok (hs.results e ?_ hcode)
        simpa using he
    refine h.consumer_step hs' ?_ hkeep ?_ (fun i => (hlogs i).1) (fun i => (hlogs i).2) rfl
    · intro t ht
      exact Function.update_of_ne ht _ _
    · exact h.serves_update hserves logOf_pop hothers
  · right
    refine ⟨_, onQueue_ret hexit, fun status => ?_⟩
    have hkeep : KeepsDrained S c (returned S c (.inr s) (.queue (consumerOf s) .pop)
        (.queue (.outOfRange "Queue is empty")) status) := .of_quiet (fun _ => logOf_throw) rfl
    have hdrained : Drained S (consumerOf s) c := ⟨hdeleted, horder⟩
    have hthread : (returned S c (.inr s) (.queue (consumerOf s) .pop)
        (.queue (.outOfRange "Queue is empty")) status).thread (.inr s) =
          afterLoop (consumerOf s) results S.partitions .none := by
      simp [returned, hs.thread, chunkQueueThreads]
    obtain ⟨results', state', hs'⟩ := GettingInv.afterLoop hthread
      (fun e he hcode => hkeep.ok (hs.results e he hcode))
      ⟨(hkeep _ hdrained).1, fun p hp hnone => absurd ((S.mem_ids _ _).mp hp).1 hnone⟩
    refine h.consumer_step hs' ?_ hkeep ?_ ?_ ?_ rfl
    · intro t ht
      exact Function.update_of_ne ht _ _
    · intro j
      simp only [returned, logOf_throw]
      show (Function.update c.data.queues (consumerOf s) _ j).Serves _ _ _
      rw [hdata, Function.update_eq_self]
      exact h.queues j
    · simp [returned, logOf_throw]
    · simp [returned, logOf_throw]

theorem DeliveryInv.getReaderError (h : DeliveryInv S consumerOf c) {readers : List Int}
    {e : S2ClientError}
    (hs : GettingInv S c s (consumerOf s) results (.collecting (p :: readers) e)) :
    GoodCall S consumerOf c (.inr s) (.getReaderError p) := by
  right
  refine ⟨.error (c.data.readerError p), rfl, fun status => ?_⟩
  have hkeep : KeepsDrained S c (returned S c (.inr s) (.getReaderError p)
      (.error (c.data.readerError p)) status) := .of_quiet (fun _ => logOf_getReaderError) rfl
  obtain ⟨hdrained, hasked⟩ := hs.place
  have hthread : (returned S c (.inr s) (.getReaderError p) (.error (c.data.readerError p))
      status).thread (.inr s) = afterLoop (consumerOf s) results readers
        (collectError e (c.data.readerError p)) := by
    simp [returned, hs.thread, chunkQueueThreads]
  have hplace : ∀ q ∈ S.ids (consumerOf s), q ∉ readers → (c.data.readerError q).errorCode ≠ 0 →
      (collectError e (c.data.readerError p)).errorCode ≠ 0 := by
    intro q hq hnot hcode
    unfold collectError
    split
    · show s2cErrorReaderFailed ≠ 0
      decide
    · rename_i hnone
      refine hasked q hq ?_ hcode
      rw [List.mem_cons, not_or]
      refine ⟨?_, hnot⟩
      rintro rfl
      exact hnone hcode
  obtain ⟨results', state', hs'⟩ := GettingInv.afterLoop hthread
    (fun e he hcode => hkeep.ok (hs.results e he hcode)) ⟨(hkeep _ hdrained).1, hplace⟩
  refine h.consumer_step hs' ?_ hkeep ?_ ?_ ?_ rfl
  · intro t ht
    exact Function.update_of_ne ht _ _
  · intro j
    simp only [returned, logOf_getReaderError]
    exact h.queues j
  · simp [returned, logOf_getReaderError]
  · simp [returned, logOf_getReaderError]

theorem DeliveryInv.setError (h : DeliveryInv S consumerOf c) {e : S2ClientError}
    (hs : GettingInv S c s (consumerOf s) results (.reporting e)) :
    GoodCall S consumerOf c (.inr s) (.setError e) := by
  right
  refine ⟨.unit, rfl, fun status => ?_⟩
  have hkeep : KeepsDrained S c (returned S c (.inr s) (.setError e) .unit status) :=
    .of_quiet (fun _ => logOf_setError) rfl
  have hcode : e.errorCode ≠ 0 := hs.place
  have hs' : GettingInv S (returned S c (.inr s) (.setError e) .unit status) s (consumerOf s)
      (results ++ [(none, e)]) .popping := by
    refine ⟨?_, trivial, ?_⟩
    · simp [returned, hs.thread, chunkQueueThreads]
    · intro e' he' hcode'
      rcases List.mem_append.mp he' with hold | hnew
      · exact hkeep.ok (hs.results e' hold hcode')
      · simp only [List.mem_singleton, Prod.mk.injEq, true_and] at hnew
        rw [hnew] at hcode'
        exact absurd hcode' hcode
  refine h.consumer_step hs' ?_ hkeep ?_ ?_ ?_ rfl
  · intro t ht
    exact Function.update_of_ne ht _ _
  · intro j
    simp only [returned, logOf_setError]
    exact h.queues j
  · simp [returned, logOf_setError]
  · simp [returned, logOf_setError]

theorem DeliveryInv.consumer_call (h : DeliveryInv S consumerOf c) {call : SharedCall T}
    (hcall : S.threads.call (c.thread (.inr s)) = some call) :
    GoodCall S consumerOf c (.inr s) call := by
  obtain ⟨results, state, hs⟩ := h.consumers s
  rw [hs.thread] at hcall
  cases state with
  | popping =>
    obtain rfl := Option.some.inj hcall
    exact h.pop hs
  | collecting readers e =>
    cases readers with
    | nil => cases hcall
    | cons p readers =>
      obtain rfl := Option.some.inj hcall
      exact h.getReaderError hs
  | reporting e =>
    obtain rfl := Option.some.inj hcall
    exact h.setError hs

/-- No call of the threads is a `Get` of a queue, so a call does from its wait
what it does from its entry. -/
theorem segment_eq_enter {ℓ : ReadThread T} {call : SharedCall T} {status : Status (Nat × CondVar)}
    {d : SharedState T} {seg : SharedSegment T} (hcall : S.threads.call ℓ = some call)
    (hseg : sharedMonitor.segment status call d = some seg) : seg = sharedMonitor.enter call d := by
  rcases Monitor.segment_eq_some hseg with rfl | rfl
  · rfl
  · cases call with
    | queue i call =>
      have hget : ∀ p v, call ≠ .get p v := by
        rintro p v rfl
        dsimp only [ReadSetup.threads, chunkQueueThreads] at hcall
        split at hcall <;> simp at hcall
      show onQueue i (ConsumerQueue.resume call) d = onQueue i (ConsumerQueue.enter call) d
      rw [show ConsumerQueue.resume call = ConsumerQueue.enter call from
        funext fun q => ConsumerQueue.resume_eq_enter hget q]
    | setReaderError p e => rfl
    | getReaderError p => rfl
    | setError e => rfl

theorem DeliveryInv.step (h : DeliveryInv S consumerOf c) {t : Int ⊕ ς}
    (hs : Step sharedMonitor S.threads c t c') : DeliveryInv S consumerOf c' := by
  have hgood : ∀ call, S.threads.call (c.thread t) = some call →
      GoodCall S consumerOf c t call := by
    intro call hcall
    cases t with
    | inl p => exact h.reader_call hcall
    | inr s => exact h.consumer_call hcall
  cases hs with
  | @wait call seg status cv hcall hseg _ hexit =>
    obtain rfl := segment_eq_enter hcall hseg
    rcases hgood call hcall with ⟨hdata, _⟩ | ⟨r, hret, _⟩
    · exact h.congr hdata rfl rfl
    · rw [hret] at hexit
      cases hexit
  | @ret call seg status r hcall hseg _ hexit =>
    obtain rfl := segment_eq_enter hcall hseg
    rcases hgood call hcall with ⟨_, cv, hwait⟩ | ⟨r', hret, hkept⟩
    · rw [hwait] at hexit
      cases hexit
    · rw [hret] at hexit
      obtain rfl := Exit.ret.inj hexit
      exact hkept _
  | spurious _ => exact h.congr rfl rfl rfl

/-- **In every run**, a `Get` that returns no chunk and no error has drained its
queue: each of its readers pushed all of its chunks, left without an error, and
the chunks were popped in the order of their numbers. -/
theorem drained_of_get {kind : QueueKind} {capacity : Nat} (hpos : 0 < capacity)
    (hnarrow : S.Narrow kind capacity)
    (hreach : Reachable sharedMonitor S.threads (readStart S kind capacity consumerOf) c)
    {e : S2ClientError} (hthread : c.thread (.inr s) = .consumer i results state)
    (hget : (none, e) ∈ results) (hcode : e.errorCode = 0) (hp : p ∈ S.ids (consumerOf s)) :
    S.actions p = readerActions (S.chunks p) (S.error p) ∧
      ((S.error p).getD .none).errorCode = 0 ∧
      chunksOf p (logOf (consumerOf s) c.history).popped = S.chunks p := by
  have hinv := hreach.invariant (DeliveryInv.start hpos hnarrow) fun _ _ _ h hs => h.step hs
  obtain ⟨results', state', hs⟩ := hinv.consumers s
  obtain ⟨rfl, rfl, rfl⟩ := ReadThread.consumer.inj (hthread.symm.trans hs.thread)
  obtain ⟨⟨hdeleted, horder⟩, herrors⟩ := hs.results e hget hcode
  obtain ⟨hpart, hqueue⟩ := (S.mem_ids _ _).mp hp
  obtain ⟨todo, sent, err, left, hr⟩ := hinv.readers p hpart
  have hleft : left = true := by
    rw [← hr.left, hqueue]
    exact hdeleted p hp
  subst hleft
  obtain ⟨rfl, rfl, rfl⟩ := hr.place.of_left
  have hsent := hr.sent
  rw [hqueue, ← horder] at hsent
  have herror := herrors p hp
  rw [hr.error] at herror
  refine ⟨?_, herror, hsent⟩
  rcases S.shape p hpart with hnil | hactions
  · exact absurd (hr.calls hnil).2 (by decide)
  · exact hactions

end Invariant

end SasLibclient
