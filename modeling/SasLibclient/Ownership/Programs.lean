import Mathlib.Data.List.Basic

/-!
# Programs that throw and fault

A program changes a state and returns, throws an exception, or runs into what
the language leaves undefined; after that nothing more happens.

* `Prog`: such programs, as a monad; `Prog.each` is a loop over a list and
  `Prog.attempt` a handler;
* `Outcome.Post`: what holds after a return, after a throw and at a fault;
* `Outcome.Post.bind`, `.each`, `.range`, `.attempt`: one rule for each construct.
-/

namespace Ownership

/-- What the language leaves undefined. -/
inductive Fault where
  | nullDereference
  | outOfBounds
  | useAfterFree
  | doubleFree
  deriving DecidableEq, Repr

/-- How a program ends, with the state it leaves. -/
inductive Outcome (σ ε α : Type) where
  | ret (a : α) (s : σ)
  | throws (e : ε) (s : σ)
  | fault (f : Fault) (s : σ)

def Prog (σ ε α : Type) := σ → Outcome σ ε α

variable {σ ε α β : Type}

namespace Outcome

/-- `Q` after a return, `X` after a throw, `F` at a fault. -/
def Post (Q : α → σ → Prop) (X : ε → σ → Prop) (F : σ → Prop) : Outcome σ ε α → Prop
  | .ret a s => Q a s
  | .throws e s => X e s
  | .fault _ s => F s

variable {Q Q' : α → σ → Prop} {X X' : ε → σ → Prop} {F F' : σ → Prop}

theorem Post.mono {o : Outcome σ ε α} (h : o.Post Q X F) (hQ : ∀ a s, Q a s → Q' a s)
    (hX : ∀ e s, X e s → X' e s) (hF : ∀ s, F s → F' s) : o.Post Q' X' F' := by
  cases o with
  | ret a s => exact hQ a s h
  | throws e s => exact hX e s h
  | fault f s => exact hF s h

end Outcome

namespace Prog

instance : Monad (Prog σ ε) where
  pure a := fun s => .ret a s
  bind m f := fun s =>
    match m s with
    | .ret a s' => f a s'
    | .throws e s' => .throws e s'
    | .fault f s' => .fault f s'

def get : Prog σ ε σ := fun s => .ret s s

def modify (f : σ → σ) : Prog σ ε Unit := fun s => .ret () (f s)

def throws (e : ε) : Prog σ ε α := fun s => .throws e s

def fault (f : Fault) : Prog σ ε α := fun s => .fault f s

/-- `for (a : l) body` -/
def each : List α → (α → Prog σ ε Unit) → Prog σ ε Unit
  | [], _ => pure ()
  | a :: l, body => body a >>= fun _ => each l body

/-- `try { m } catch (…) { }`: whether it returned. -/
def attempt (m : Prog σ ε α) : Prog σ ε Bool := fun s =>
  match m s with
  | .ret _ s' => .ret true s'
  | .throws _ s' => .ret false s'
  | .fault f s' => .fault f s'

variable {m : Prog σ ε α} {f : α → Prog σ ε β} {s s' : σ} {a : α}

theorem pure_apply (a : α) (s : σ) : (pure a : Prog σ ε α) s = .ret a s := rfl

theorem bind_apply (m : Prog σ ε α) (f : α → Prog σ ε β) (s : σ) :
    (m >>= f) s = match m s with
      | .ret a s' => f a s'
      | .throws e s' => .throws e s'
      | .fault f s' => .fault f s' := rfl

theorem bind_of_ret (h : m s = .ret a s') : (m >>= f) s = f a s' := by
  rw [bind_apply, h]

theorem bind_of_fault {flt : Fault} (h : m s = .fault flt s') : (m >>= f) s = .fault flt s' := by
  rw [bind_apply, h]

end Prog

namespace Outcome.Post

variable {Q : α → σ → Prop} {R : β → σ → Prop} {X : ε → σ → Prop} {F : σ → Prop}
  {m : Prog σ ε α} {f : α → Prog σ ε β} {s : σ}

/-- **The rule for a sequence.** -/
theorem bind (h : (m s).Post Q X F) (hf : ∀ a s', Q a s' → (f a s').Post R X F) :
    ((m >>= f) s).Post R X F := by
  rw [Prog.bind_apply]
  cases hm : m s with
  | ret a s' =>
    rw [hm] at h
    exact hf a s' h
  | throws e s' =>
    rw [hm] at h
    exact h
  | fault flt s' =>
    rw [hm] at h
    exact h

/-- **The rule for a loop**: `I` is the invariant at the elements that are left. -/
theorem each {I : List α → σ → Prop} {body : α → Prog σ ε Unit} {l : List α} (h : I l s)
    (hbody : ∀ a l s, I (a :: l) s → (body a s).Post (fun _ s' => I l s') X F) :
    (Prog.each l body s).Post (fun _ s' => I [] s') X F := by
  induction l generalizing s with
  | nil => exact h
  | cons a l ih => exact bind (hbody a l s h) fun _ _ hI => ih hI

/-- The rule for `for (i = 0; i < n; i++)`: `I` is the invariant at `i`. -/
theorem range {I : Nat → σ → Prop} {body : Nat → Prog σ ε Unit} {n : Nat} (h : I 0 s)
    (hbody : ∀ i s, i < n → I i s → (body i s).Post (fun _ s' => I (i + 1) s') X F) :
    (Prog.each (List.range n) body s).Post (fun _ s' => I n s') X F := by
  rw [List.range_eq_range']
  -- what is left from `i` on
  have hstart : ∃ i ≤ n, List.range' 0 n = List.range' i (n - i) ∧ I i s := ⟨0, n.zero_le, rfl, h⟩
  have hloop : (Prog.each (List.range' 0 n) body s).Post
      (fun _ s' => ∃ i ≤ n, [] = List.range' i (n - i) ∧ I i s') X F :=
    each (I := fun l s => ∃ i ≤ n, l = List.range' i (n - i) ∧ I i s) hstart
      fun a l s ⟨i, hle, hl, hI⟩ => by
        rcases Nat.lt_or_eq_of_le hle with hlt | rfl
        · rw [show n - i = n - (i + 1) + 1 by omega, List.range'_succ] at hl
          obtain ⟨rfl, rfl⟩ := List.cons_eq_cons.mp hl
          exact (hbody a s hlt hI).mono (fun _ s' h' => ⟨a + 1, hlt, rfl, h'⟩)
            (fun _ _ hX => hX) fun _ hF => hF
        · rw [Nat.sub_self] at hl
          cases hl
  refine hloop.mono ?_ (fun _ _ hX => hX) fun _ hF => hF
  rintro _ s' ⟨i, hle, hl, hI⟩
  have hlen : 0 = n - i := by simpa using congrArg List.length hl
  rwa [show n = i by omega]

/-- **The rule for a handler.** -/
theorem attempt {T : Bool → σ → Prop} {X' : ε → σ → Prop} (h : (m s).Post Q X F)
    (hret : ∀ a s', Q a s' → T true s') (hthrow : ∀ e s', X e s' → T false s') :
    (Prog.attempt m s).Post T X' F := by
  rw [Prog.attempt]
  cases hm : m s with
  | ret a s' =>
    rw [hm] at h
    exact hret a s' h
  | throws e s' =>
    rw [hm] at h
    exact hthrow e s' h
  | fault flt s' =>
    rw [hm] at h
    exact h

end Outcome.Post

end Ownership
