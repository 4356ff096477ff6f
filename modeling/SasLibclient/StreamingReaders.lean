import Mathlib.Data.List.TakeWhile
import SasLibclient.StreamingRuns

/-!
# Readers that are told to stop

What the history of a shutdown says of a reader: whether its `m_stop_reading`
has been set, and what it has pushed since then. `StoppingInv` relates that to
the place of the reader in `Read`: it looks at the flag before every turn, so
that at most the chunk of the present turn is still pushed.
-/

namespace SasLibclient

open Monitors

variable {T ς : Type}

/-! ## What the history says -/

/-- The chunks passed to `ChunkFree`, in order. -/
def freedChunks (h : List (Event (StreamId ς) (StreamCall T) (StreamResult T))) : List T :=
  h.filterMap fun e =>
    match e.call with
    | .chunkFree v => some v
    | _ => none

/-- The event sets `m_stop_reading` of the reader. -/
def stops (p : Int) (e : Event (StreamId ς) (StreamCall T) (StreamResult T)) : Bool :=
  match e.call with
  | .stopReading q => q == p
  | _ => false

/-- The event is a `Push` of the reader. -/
def pushesBy (p : Int) (e : Event (StreamId ς) (StreamCall T) (StreamResult T)) : Bool :=
  match e.thread, e.call with
  | .reader q, .shared (.queue _ (.push _)) => q == p
  | _, _ => false

/-- The chunks that the reader pushed after it had been told to stop. -/
def latePushes (p : Int) (h : List (Event (StreamId ς) (StreamCall T) (StreamResult T))) : Nat :=
  (h.dropWhile fun e => !stops p e).countP (pushesBy p)

section History

variable {p : Int} {h : List (Event (StreamId ς) (StreamCall T) (StreamResult T))}
  {e : Event (StreamId ς) (StreamCall T) (StreamResult T)}

theorem freedChunks_append (h h' : List (Event (StreamId ς) (StreamCall T) (StreamResult T))) :
    freedChunks (h ++ h') = freedChunks h ++ freedChunks h' := by
  simp [freedChunks]

theorem freedChunks_other {t : StreamId ς} {call : StreamCall T} {r : StreamResult T}
    (hnot : ∀ v, call ≠ .chunkFree v) : freedChunks [(⟨t, call, r⟩ : Event (StreamId ς) _ _)] = [] := by
  cases call with
  | chunkFree v => exact absurd rfl (hnot v)
  | _ => rfl

/-- Before the stop nothing is late; after it every push is. -/
theorem latePushes_append (hpush : stops p e = true → pushesBy p e = false) :
    latePushes p (h ++ [e]) =
      latePushes p h + if h.any (stops p) && pushesBy p e then 1 else 0 := by
  unfold latePushes
  rw [List.dropWhile_append]
  cases hany : h.any (stops p) with
  | true =>
    have hne : (h.dropWhile fun e => !stops p e) ≠ [] := by
      intro hnil
      obtain ⟨x, hx, hstops⟩ := List.any_eq_true.mp hany
      have hall := List.dropWhile_eq_nil_iff.mp hnil x hx
      simp [hstops] at hall
    rw [if_neg (by simpa using hne), List.countP_append, List.countP_singleton]
    simp
  | false =>
    have hnil : (h.dropWhile fun e => !stops p e) = [] := by
      refine List.dropWhile_eq_nil_iff.mpr fun x hx => ?_
      simp [List.any_eq_false.mp hany x hx]
    rw [hnil]
    cases hstops : stops p e with
    | true => simp [hstops, hpush hstops]
    | false => simp [hstops]

theorem stops_not_push : stops p e = true → pushesBy p e = false := by
  intro hstops
  unfold stops at hstops
  unfold pushesBy
  split at hstops
  · rename_i hcall
    rw [hcall]
    cases e.thread <;> rfl
  · cases hstops

theorem latePushes_of_not_stopped (hnone : h.any (stops p) = false) : latePushes p h = 0 := by
  have hnil : (h.dropWhile fun e => !stops p e) = [] := by
    refine List.dropWhile_eq_nil_iff.mpr fun x hx => ?_
    simp [List.any_eq_false.mp hnone x hx]
  rw [latePushes, hnil]
  rfl

theorem latePushes_quiet (hpush : pushesBy p e = false) :
    latePushes p (h ++ [e]) = latePushes p h := by
  simp [latePushes_append (fun _ => hpush), hpush]

end History

/-! ## The flag -/

/-- The reader is between the condition of its loop and the next. -/
def ReaderState.inBody : ReaderState T → Nat
  | .filling _ _ | .pushing _ _ _ => 1
  | _ => 0

def inBody (thread : StreamId ς → StreamThread T) (p : Int) : Nat :=
  match thread (.reader p) with
  | .reader _ state => state.inBody
  | _ => 0

/-- The readers during the shutdown. -/
structure StoppingInv (c : StreamConfig T ς) : Prop where
  ended : ∀ p, c.data.ended p = true ↔ c.thread (.reader p) = .reader p .ended
  told : ∀ p, c.data.stopReading p = c.history.any (stops p)
  prompt : ∀ p, c.data.stopReading p = true → latePushes p c.history + inBody c.thread p ≤ 1

variable {S : StreamSetup T} {c c' : StreamConfig T ς}

/-! ## Steps -/

theorem inBody_eq {thread : StreamId ς → StreamThread T} {p q : Int} {state : ReaderState T}
    (hw : thread (.reader p) = .reader q state) : inBody thread p = state.inBody := by
  rw [inBody, hw]

theorem ReaderState.inBody_le (state : ReaderState T) : state.inBody ≤ 1 := by
  cases state <;> simp [ReaderState.inBody]

theorem inBody_congr {thread thread' : StreamId ς → StreamThread T} {p : Int}
    (h : thread' (.reader p) = thread (.reader p)) : inBody thread' p = inBody thread p := by
  rw [inBody, h, inBody]

theorem StoppingInv.of_quiet (h : StoppingInv c)
    (hended : ∀ p, c'.data.ended p = true ↔ c'.thread (.reader p) = .reader p .ended)
    (hstop : c'.data.stopReading = c.data.stopReading)
    (hbody : ∀ p, c.data.stopReading p = true → inBody c'.thread p ≤ inBody c.thread p)
    (hh : ∀ p, c'.history.any (stops p) = c.history.any (stops p) ∧
      latePushes p c'.history = latePushes p c.history) : StoppingInv c' where
  ended := hended
  told := by
    intro p
    rw [hstop, (hh p).1]
    exact h.told p
  prompt := by
    intro p hp
    rw [hstop] at hp
    rw [(hh p).2]
    exact le_trans (Nat.add_le_add_left (hbody p hp) _) (h.prompt p hp)

theorem history_quiet {h h' : List (Event (StreamId ς) (StreamCall T) (StreamResult T))}
    {e : Event (StreamId ς) (StreamCall T) (StreamResult T)} (hh : h' = h ++ [e])
    (hquiet : ∀ p, stops p e = false ∧ pushesBy p e = false) (p : Int) :
    h'.any (stops p) = h.any (stops p) ∧ latePushes p h' = latePushes p h := by
  rw [hh, List.any_append, latePushes_quiet (hquiet p).2]
  simp [(hquiet p).1]

variable [DecidableEq ς]

theorem inBody_other {t : StreamId ς} {w : StreamThread T} {p : Int} (hne : StreamId.reader p ≠ t) :
    inBody (Function.update c.thread t w) p = inBody c.thread p :=
  inBody_congr (Function.update_of_ne hne _ _)

theorem StoppingInv.ended_other (h : StoppingInv c) {t : StreamId ς} {w : StreamThread T}
    (hrun : ∀ q, c.thread t ≠ .reader q .ended) (hw : ∀ q, w ≠ .reader q .ended) (p : Int) :
    c.data.ended p = true ↔ Function.update c.thread t w (.reader p) = .reader p .ended := by
  rw [h.ended p]
  by_cases e : StreamId.reader p = t
  · subst e
    rw [Function.update_self]
    simp [hrun p, hw p]
  · rw [Function.update_of_ne e]

theorem StoppingInv.push (h : StoppingInv c) {p : Int} {v : T} {todo : List T}
    {error : Option S2ClientError} {i : Nat} {q : ThreadSafeSimpleQueue T}
    (hw : c.thread (.reader p) = .reader p (.pushing v todo error))
    (hd : c'.data = c.data.setQueue i q)
    (hth : c'.thread = Function.update c.thread (.reader p) (.reader p (.checking todo error)))
    (hh : c'.history = c.history ++
      [⟨.reader p, .shared (.queue i (.push v)), .shared (.queue .unit)⟩]) : StoppingInv c' where
  ended := by
    rw [hd, hth]
    exact h.ended_other (by simp [hw]) (by simp)
  told := by
    intro p'
    rw [hd, hh, List.any_append]
    exact (h.told p').trans (by simp [stops])
  prompt := by
    intro p' hp'
    have hstopped : c.data.stopReading p' = true := by
      rw [hd] at hp'
      exact hp'
    have hprompt := h.prompt p' hstopped
    rw [hth, hh, latePushes_append stops_not_push, ← h.told p', hstopped]
    by_cases e : p' = p
    · -- the push of a reader that was in its body
      subst e
      rw [inBody_eq hw] at hprompt
      rw [inBody_eq (Function.update_self _ _ _)]
      simp only [ReaderState.inBody] at hprompt ⊢
      split <;> omega
    · rw [inBody_other (by simpa using e)]
      simp [pushesBy, Ne.symm e, hprompt]

theorem reader_call {p : Int} {state : ReaderState T} {call : StreamCall T}
    (hcall : state.call S p = some call) (hplain : ∀ i m, call ≠ .shared (.queue i m)) :
    (∃ todo error, state = .checking todo error ∧ call = .isStopReading p) ∨
    (∃ todo error, state = .filling todo error ∧ call = .nextChunk) ∨
    (∃ e, state = .storing e ∧ call = .shared (.setReaderError p e)) ∨
    (state = .inactive ∧ call = .setInactive p) ∨ (state = .returning ∧ call = .endThread p) := by
  cases state with
  | pushing v todo error =>
    simp only [ReaderState.call, Option.some.injEq] at hcall
    exact absurd hcall.symm (hplain _ _)
  | leaving =>
    simp only [ReaderState.call, Option.some.injEq] at hcall
    exact absurd hcall.symm (hplain _ _)
  | ended => cases hcall
  | _ =>
    simp only [ReaderState.call, Option.some.injEq] at hcall
    simp [hcall]

/-- What a plain call of a reader does to the flags. -/
structure ReaderCall (c : StreamConfig T ς) (p : Int) (state : ReaderState T) (call : StreamCall T)
    (r : StreamResult T) (d : StreamState T) : Prop where
  stopReading : d.stopReading = c.data.stopReading
  queueDeleted : d.queueDeleted = c.data.queueDeleted
  rowSchemaFreed : d.rowSchemaFreed = c.data.rowSchemaFreed
  ended : ∀ q, d.ended q = true ↔ c.data.ended q = true ∨ q = p ∧ state = .returning
  body : c.data.stopReading p = true → (state.after r).inBody ≤ state.inBody
  quiet : ∀ q, stops q (⟨.reader p, call, r⟩ : Event (StreamId ς) _ _) = false ∧
    pushesBy q (⟨.reader p, call, r⟩ : Event (StreamId ς) _ _) = false
  frees : freedChunks [(⟨.reader p, call, r⟩ : Event (StreamId ς) _ _)] = []

omit [DecidableEq ς] in
theorem readerCall {p : Int} {state : ReaderState T} {call : StreamCall T} {r : StreamResult T}
    (hcall : state.call S p = some call) (hplain : ∀ i m, call ≠ .shared (.queue i m))
    (hexit : (streamSegment call c.data).exit = .ret r) :
    ReaderCall c p state call r (streamSegment call c.data).data := by
  rcases reader_call hcall hplain with ⟨todo, error, rfl, rfl⟩ | ⟨todo, error, rfl, rfl⟩ |
    ⟨e, rfl, rfl⟩ | ⟨rfl, rfl⟩ | ⟨rfl, rfl⟩
  · -- the flag is seen here
    simp only [streamSegment, StreamState.returns, Exit.ret.injEq] at hexit ⊢
    refine ⟨rfl, rfl, rfl, by simp, ?_, fun q => ⟨rfl, rfl⟩, rfl⟩
    intro hstop
    rw [← hexit, hstop]
    exact Nat.le_refl _
  · exact ⟨rfl, rfl, rfl, by simp [streamSegment, StreamState.returns],
      fun _ => ReaderState.inBody_le _, fun q => ⟨rfl, rfl⟩, rfl⟩
  · exact ⟨rfl, rfl, rfl, by simp [streamSegment, StreamState.returns],
      fun _ => Nat.le_refl _, fun q => ⟨rfl, rfl⟩, rfl⟩
  · exact ⟨rfl, rfl, rfl, by simp [streamSegment, StreamState.returns],
      fun _ => Nat.le_refl _, fun q => ⟨rfl, rfl⟩, rfl⟩
  · refine ⟨rfl, rfl, rfl, ?_, fun _ => Nat.le_refl _, fun q => ⟨rfl, rfl⟩, rfl⟩
    intro q
    simp only [streamSegment, Function.update_apply]
    split <;> simp_all

theorem StoppingInv.reader (h : StoppingInv c) {p : Int} {state : ReaderState T}
    {call : StreamCall T} {r : StreamResult T} (hw : c.thread (.reader p) = .reader p state)
    (hcall : state.call S p = some call) (hplain : ∀ i m, call ≠ .shared (.queue i m))
    (hexit : (streamSegment call c.data).exit = .ret r)
    (hd : c'.data = (streamSegment call c.data).data)
    (hth : c'.thread = Function.update c.thread (.reader p) (.reader p (state.after r)))
    (hh : c'.history = c.history ++ [⟨.reader p, call, r⟩]) : StoppingInv c' := by
  have heffect := readerCall hcall hplain hexit
  rw [← hd] at heffect
  refine h.of_quiet ?_ heffect.stopReading ?_ (history_quiet hh heffect.quiet)
  · intro q
    rw [heffect.ended q, hth]
    by_cases e : q = p
    · subst e
      rw [h.ended q, hw, Function.update_self]
      rcases reader_call hcall hplain with ⟨todo, error, rfl, rfl⟩ | ⟨todo, error, rfl, rfl⟩ |
        ⟨e, rfl, rfl⟩ | ⟨rfl, rfl⟩ | ⟨rfl, rfl⟩
      · simp only [streamSegment, StreamState.returns, Exit.ret.injEq] at hexit
        rw [← hexit]
        cases c.data.stopReading q <;> simp [ReaderState.after]
      · cases todo with
        | nil => cases error <;> simp [ReaderState.after]
        | cons v todo => simp [ReaderState.after]
      all_goals simp [ReaderState.after]
    · rw [Function.update_of_ne (by simpa using e), h.ended q]
      simp [e]
  · intro q hq
    rw [hth]
    by_cases e : q = p
    · subst e
      rw [inBody_eq (Function.update_self _ _ _), inBody_eq hw]
      exact heffect.body hq
    · rw [inBody_other (by simpa using e)]

theorem StoppingInv.leave (h : StoppingInv c) {p : Int} {i : Nat} {q : ThreadSafeSimpleQueue T}
    (hw : c.thread (.reader p) = .reader p .leaving) (hd : c'.data = c.data.setQueue i q)
    (hth : c'.thread = Function.update c.thread (.reader p) (.reader p .inactive))
    (hh : c'.history = c.history ++
      [⟨.reader p, .shared (.queue i (.deleteProducer p)), .shared (.queue .unit)⟩]) :
    StoppingInv c' := by
  refine h.of_quiet ?_ (by rw [hd]; rfl) ?_ (history_quiet hh fun q => ⟨rfl, rfl⟩)
  · rw [hd, hth]
    exact h.ended_other (by simp [hw]) (by simp)
  · intro q _
    rw [hth]
    by_cases e : q = p
    · rw [e, inBody_eq (Function.update_self _ _ _)]
      exact Nat.zero_le _
    · rw [inBody_other (by simpa using e)]

omit [DecidableEq ς] in
/-- A step of a thread that is no reader, and stops none. -/
theorem StoppingInv.of_other (h : StoppingInv c) {e : Event (StreamId ς) (StreamCall T) (StreamResult T)}
    (hended : c'.data.ended = c.data.ended) (hstop : c'.data.stopReading = c.data.stopReading)
    (hth : ∀ p, c'.thread (.reader p) = c.thread (.reader p)) (hh : c'.history = c.history ++ [e])
    (hquiet : ∀ p, stops p e = false ∧ pushesBy p e = false) : StoppingInv c' := by
  refine h.of_quiet ?_ hstop ?_ (history_quiet hh hquiet)
  · intro p
    rw [hended, hth]
    exact h.ended p
  · intro p _
    exact le_of_eq (inBody_congr (hth p))

omit [DecidableEq ς] in
theorem StoppingInv.stop (h : StoppingInv c) {p : Int}
    (hd : c'.data = { c.data with stopReading := Function.update c.data.stopReading p true })
    (hth : ∀ p, c'.thread (.reader p) = c.thread (.reader p))
    (hh : c'.history = c.history ++ [⟨.destructor, .stopReading p, .unit⟩]) : StoppingInv c' where
  ended := by
    intro q
    rw [hd, hth]
    exact h.ended q
  told := by
    intro q
    rw [hd, hh, List.any_append, ← h.told q]
    by_cases e : q = p
    · subst e
      simp [stops]
    · simp [stops, Function.update_of_ne e, Ne.symm e]
  prompt := by
    intro q hq
    rw [hd] at hq
    rw [hh, latePushes_quiet rfl, inBody_congr (hth q)]
    cases hstop : c.data.stopReading q with
    | true => exact h.prompt q hstop
    | false =>
      -- the first stop of this reader
      rw [latePushes_of_not_stopped (by rw [← h.told q]; exact hstop), Nat.zero_add, inBody]
      split
      · exact ReaderState.inBody_le _
      · exact Nat.zero_le _

end SasLibclient
