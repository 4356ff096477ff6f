import Mathlib.Data.List.Basic

/-!
# Cutting a list into pieces

Each request takes the next elements of a list, as many as it asks for or all
that are left. `taken` and `rest` together are the list whatever the requests
are; `rest` becomes empty when every request asks for at least one element.
`Serves` is the simulation of the cutting by a system that answers the requests
from a state of its own.
-/

namespace Pieces

variable {α : Type} {lens : Nat → Nat} {source : List α} {i n : Nat}

/-- What is left before request `i`. -/
def rest (lens : Nat → Nat) (source : List α) : Nat → List α
  | 0 => source
  | i + 1 => (rest lens source i).drop (lens i)

/-- The answer to request `i`. -/
def piece (lens : Nat → Nat) (source : List α) (i : Nat) : List α :=
  (rest lens source i).take (lens i)

/-- The answers to the requests before `n`. -/
def taken (lens : Nat → Nat) (source : List α) (n : Nat) : List α :=
  ((List.range n).map (piece lens source)).flatten

theorem taken_succ (lens : Nat → Nat) (source : List α) (n : Nat) :
    taken lens source (n + 1) = taken lens source n ++ piece lens source n := by
  simp [taken, List.range_succ]

/-- Nothing is lost or repeated. -/
theorem taken_append_rest (lens : Nat → Nat) (source : List α) (n : Nat) :
    taken lens source n ++ rest lens source n = source := by
  induction n with
  | zero => rfl
  | succ n ih =>
    rw [taken_succ, List.append_assoc, piece, rest, List.take_append_drop]
    exact ih

theorem taken_eq_iff : taken lens source n = source ↔ rest lens source n = [] := by
  have hall := taken_append_rest lens source n
  constructor
  · intro h
    rw [h] at hall
    exact List.append_right_eq_self.mp hall
  · intro h
    rw [h, List.append_nil] at hall
    exact hall

theorem piece_eq_nil_iff (h : 1 ≤ lens i) : piece lens source i = [] ↔ rest lens source i = [] := by
  rw [piece, List.take_eq_nil_iff]
  constructor
  · rintro (hzero | hnil)
    · omega
    · exact hnil
  · exact Or.inr

theorem length_rest_le (h : ∀ i, 1 ≤ lens i) (n : Nat) :
    (rest lens source n).length ≤ source.length - n := by
  induction n with
  | zero => exact Nat.le_refl _
  | succ n ih =>
    have hlen := h n
    rw [rest, List.length_drop]
    omega

/-- After as many requests as there are elements, nothing is left. -/
theorem rest_eq_nil (h : ∀ i, 1 ≤ lens i) (hn : source.length ≤ n) : rest lens source n = [] := by
  have hlength : (rest lens source n).length ≤ source.length - n := length_rest_le h n
  exact List.length_eq_zero_iff.mp (by omega)

/-! ## Systems that answer requests -/

section Serving

variable {σ ρ β : Type}

/-- The state before request `i`. -/
def state (call : ρ → σ → β × σ) (requests : Nat → ρ) (start : σ) : Nat → σ
  | 0 => start
  | i + 1 => (call (requests i) (state call requests start i)).2

/-- The answer to request `i`. -/
def answer (call : ρ → σ → β × σ) (requests : Nat → ρ) (start : σ) (i : Nat) : β :=
  (call (requests i) (state call requests start i)).1

/-- From a state that has `rest` left, a valid request is answered with the next
piece of it. -/
structure Serves (call : ρ → σ → β × σ) (len : ρ → Nat) (Valid : ρ → Prop)
    (reply : List α → β) (Left : σ → List α → Prop) : Prop where
  answer : ∀ {request s rest}, Valid request → Left s rest →
    (call request s).1 = reply (rest.take (len request))
  state : ∀ {request s rest}, Valid request → Left s rest →
    Left (call request s).2 (rest.drop (len request))

variable {call : ρ → σ → β × σ} {len : ρ → Nat} {Valid : ρ → Prop} {reply : List α → β}
  {Left : σ → List α → Prop} {requests : Nat → ρ} {start : σ}

theorem Serves.state_left (h : Serves call len Valid reply Left) (hvalid : ∀ i, Valid (requests i))
    (hstart : Left start source) (i : Nat) :
    Left (Pieces.state call requests start i) (rest (fun i => len (requests i)) source i) := by
  induction i with
  | zero => exact hstart
  | succ i ih => exact h.state (hvalid i) ih

/-- **The answers of a run** are the pieces of the source. -/
theorem Serves.answer_eq (h : Serves call len Valid reply Left) (hvalid : ∀ i, Valid (requests i))
    (hstart : Left start source) (i : Nat) :
    Pieces.answer call requests start i =
      reply (piece (fun i => len (requests i)) source i) :=
  h.answer (hvalid i) (h.state_left hvalid hstart i)

end Serving

end Pieces
