import Mathlib.Algebra.Group.Int.Defs
import Mathlib.Algebra.Group.Nat.Defs
import SasLibclient.Monitor.Basic

/-!
# The queue interface (`queue/thread_safe_queue.hpp`)

Calls, results and condition variables shared by `ThreadSafeSimpleQueue` and
`ThreadSafeBatchQueue`, and the lists of values that a history of completed
calls pushed and returned.
-/

namespace SasLibclient

open Monitors

/-- The conversion to `int`. -/
@[irreducible] def int32 (n : Int) : Int := n.bmod (2 ^ 32)

theorem int32_eq {n : Int} (hmin : -2 ^ 31 ≤ n) (hmax : n < 2 ^ 31) : int32 n = n := by
  unfold int32
  apply Int.bmod_eq_of_le
  · show -(2 ^ 31) ≤ n
    exact hmin
  · show n < 2 ^ 31
    exact hmax

theorem int32_natCast {n : Nat} (h : n < 2 ^ 31) : int32 n = n := by
  apply int32_eq <;> omega

/-- What the templates use of `*val`: `val->id` and `val->partition_id`. -/
class QueueItem (T : Type) where
  itemId : T → Nat
  partitionId : T → Int

/-- A chunk reduced to its partition and its number. -/
instance : QueueItem (Int × Nat) where
  itemId := Prod.snd
  partitionId := Prod.fst

/-- The condition variables of the two queue classes. -/
inductive CondVar where
  | emptyCV
  | fullCV
  | busyCV
  | dataNotReadyCV (i : Nat)
  deriving DecidableEq, Repr

/-- The virtual methods of `ThreadSafeQueue<T>`. -/
inductive Call (T : Type) where
  | push (val : T)
  | pop
  | get (producerId valueId : Int)
  | deleteProducer (producerId : Int)
  deriving DecidableEq, Repr

/-- How a call ends: `outOfRange` is `std::out_of_range`, `abort` a failed
assertion or an access the C++ standard leaves undefined. -/
inductive Result (T : Type) where
  | unit
  | value (v : T)
  | outOfRange (what : String)
  | abort (what : String)
  deriving DecidableEq, Repr

variable {τ T : Type}

/-- The values pushed by the completed calls, in order. -/
def pushed (h : List (Event τ (Call T) (Result T))) : List T :=
  h.filterMap fun e =>
    match e.call, e.result with
    | .push v, .unit => some v
    | _, _ => none

/-- The values returned by `Pop`, in order. -/
def popped (h : List (Event τ (Call T) (Result T))) : List T :=
  h.filterMap fun e =>
    match e.call, e.result with
    | .pop, .value v => some v
    | _, _ => none

/-- The values returned by `Get`, in order. -/
def gotten (h : List (Event τ (Call T) (Result T))) : List T :=
  h.filterMap fun e =>
    match e.call, e.result with
    | .get _ _, .value v => some v
    | _, _ => none

/-- The values returned to the consumers. -/
def delivered (h : List (Event τ (Call T) (Result T))) : List T := popped h ++ gotten h

@[simp] theorem pushed_nil : pushed ([] : List (Event τ (Call T) (Result T))) = [] := rfl

@[simp] theorem popped_nil : popped ([] : List (Event τ (Call T) (Result T))) = [] := rfl

@[simp] theorem gotten_nil : gotten ([] : List (Event τ (Call T) (Result T))) = [] := rfl

@[simp] theorem pushed_append (h h' : List (Event τ (Call T) (Result T))) :
    pushed (h ++ h') = pushed h ++ pushed h' := by
  simp [pushed]

@[simp] theorem popped_append (h h' : List (Event τ (Call T) (Result T))) :
    popped (h ++ h') = popped h ++ popped h' := by
  simp [popped]

@[simp] theorem gotten_append (h h' : List (Event τ (Call T) (Result T))) :
    gotten (h ++ h') = gotten h ++ gotten h' := by
  simp [gotten]

theorem call_of_mem_pushed {h : List (Event τ (Call T) (Result T))} {v : T} (hv : v ∈ pushed h) :
    ∃ e ∈ h, e.call = .push v := by
  obtain ⟨e, he, hev⟩ := List.mem_filterMap.mp hv
  refine ⟨e, he, ?_⟩
  split at hev
  · rename_i hcall _
    rw [hcall, Option.some.inj hev]
  · cases hev

theorem split_concat {α : Type} {l h₁ h₂ : List α} {a e : α} (h : l ++ [a] = h₁ ++ e :: h₂) :
    (e = a ∧ h₁ = l) ∨ ∃ h₂', l = h₁ ++ e :: h₂' := by
  rcases List.eq_nil_or_concat h₂ with rfl | ⟨h₂', b, rfl⟩
  · obtain ⟨hl, ha⟩ := List.append_inj' h rfl
    exact Or.inl ⟨(List.singleton_inj.mp ha).symm, hl.symm⟩
  · have h' : l ++ [a] = (h₁ ++ e :: h₂') ++ [b] := by simpa using h
    exact Or.inr ⟨h₂', (List.append_inj' h' rfl).1⟩

end SasLibclient
