import Mathlib.Algebra.Group.Nat.Defs
import Mathlib.Data.List.Basic

/-!
# Byte memories

A memory gives a byte to every address. `load` and `store` read and write
consecutive bytes; what a store does not cover it leaves alone
(`store_outside`, `load_store_of_disjoint`). Numbers are stored with the least
significant byte first.
-/

namespace Bytes

abbrev Mem := Nat → UInt8

/-- The `n` bytes from address `a`. -/
def load (m : Mem) : Nat → Nat → List UInt8
  | _, 0 => []
  | a, n + 1 => m a :: load m (a + 1) n

/-- The bytes `bs` from address `a` on. -/
def store (m : Mem) (a : Nat) (bs : List UInt8) : Mem :=
  fun i => if a ≤ i then (bs[i - a]?).getD (m i) else m i

/-- The number with the given bytes, least significant first. -/
def ofLE : List UInt8 → Nat
  | [] => 0
  | b :: bs => b.toNat + 256 * ofLE bs

/-- The lowest `n` bytes of a number. -/
def toLE : Nat → Nat → List UInt8
  | 0, _ => []
  | n + 1, x => UInt8.ofNat x :: toLE n (x / 256)

variable {m m' : Mem} {a b n k : Nat} {bs : List UInt8}

@[simp] theorem length_load (m : Mem) (a n : Nat) : (load m a n).length = n := by
  induction n generalizing a with
  | zero => rfl
  | succ n ih => simp [load, ih]

theorem load_getElem? (m : Mem) (a n i : Nat) :
    (load m a n)[i]? = if i < n then some (m (a + i)) else none := by
  induction n generalizing a i with
  | zero => simp [load]
  | succ n ih =>
    cases i with
    | zero => simp [load]
    | succ i =>
      rw [load, List.getElem?_cons_succ, ih]
      have h : a + 1 + i = a + (i + 1) := by omega
      rw [h]
      simp

theorem load_congr (h : ∀ i, a ≤ i → i < a + n → m' i = m i) : load m' a n = load m a n := by
  induction n generalizing a with
  | zero => rfl
  | succ n ih =>
    rw [load, load, h a (Nat.le_refl a) (by omega), ih]
    intro i hle hlt
    exact h i (by omega) (by omega)

theorem load_add (m : Mem) (a n k : Nat) : load m a (n + k) = load m a n ++ load m (a + n) k := by
  induction n generalizing a with
  | zero => simp [load]
  | succ n ih =>
    rw [Nat.add_right_comm, load, load, ih, List.cons_append]
    congr 3
    omega

/-- A store changes nothing outside its range. -/
theorem store_outside {i : Nat} (h : i < a ∨ a + bs.length ≤ i) : store m a bs i = m i := by
  unfold store
  split
  · rw [List.getElem?_eq_none (by omega)]
    rfl
  · rfl

theorem store_inside {i : Nat} (h : i < bs.length) : store m a bs (a + i) = bs[i] := by
  unfold store
  rw [if_pos (Nat.le_add_right a i), Nat.add_sub_cancel_left, List.getElem?_eq_getElem h]
  rfl

theorem load_store (m : Mem) (a : Nat) (bs : List UInt8) : load (store m a bs) a bs.length = bs := by
  apply List.ext_getElem?
  intro i
  rw [load_getElem?]
  split
  · rename_i hi
    rw [store_inside hi, List.getElem?_eq_getElem hi]
  · rename_i hi
    rw [List.getElem?_eq_none (by omega)]

theorem load_store_of_disjoint (h : b + n ≤ a ∨ a + bs.length ≤ b) :
    load (store m a bs) b n = load m b n := by
  apply load_congr
  intro i hle hlt
  apply store_outside
  omega

/-- Nothing outside `[lo, hi)` differs. -/
def SameOutside (lo hi : Nat) (m m' : Mem) : Prop := ∀ i, i < lo ∨ hi ≤ i → m' i = m i

theorem SameOutside.refl (lo hi : Nat) (m : Mem) : SameOutside lo hi m m := by
  intro i _
  rfl

theorem SameOutside.trans {lo hi : Nat} {m'' : Mem} (h : SameOutside lo hi m m')
    (h' : SameOutside lo hi m' m'') : SameOutside lo hi m m'' := by
  intro i hi'
  rw [h' i hi', h i hi']

theorem SameOutside.widen {lo hi lo' hi' : Nat} (h : SameOutside lo hi m m') (hlo : lo' ≤ lo)
    (hhi : hi ≤ hi') : SameOutside lo' hi' m m' := by
  intro i hi''
  apply h
  omega

theorem sameOutside_store (m : Mem) (a : Nat) (bs : List UInt8) :
    SameOutside a (a + bs.length) m (store m a bs) := by
  intro i hi
  exact store_outside hi

@[simp] theorem length_toLE (n x : Nat) : (toLE n x).length = n := by
  induction n generalizing x with
  | zero => rfl
  | succ n ih => simp [toLE, ih]

theorem ofLE_lt (bs : List UInt8) : ofLE bs < 256 ^ bs.length := by
  induction bs with
  | nil => decide
  | cons b bs ih =>
    have hb := b.toNat_lt
    rw [ofLE, List.length_cons, Nat.pow_succ]
    omega

theorem ofLE_toLE (n x : Nat) (h : x < 256 ^ n) : ofLE (toLE n x) = x := by
  induction n generalizing x with
  | zero =>
    rw [Nat.pow_zero] at h
    have hx : x = 0 := by omega
    rw [hx]
    rfl
  | succ n ih =>
    rw [Nat.pow_succ] at h
    have hdiv := ih (x / 256) (by omega)
    rw [toLE, ofLE, hdiv, UInt8.toNat_ofNat']
    omega

end Bytes
