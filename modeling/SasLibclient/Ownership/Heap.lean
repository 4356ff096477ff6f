import Mathlib.Data.Finset.Card
import Mathlib.Data.List.Perm.Basic
import Mathlib.Data.Finset.Insert

/-!
# Blocks and their owners

A heap hands out addresses, each at most once, and knows which are live.
`Owns h l` says that the live blocks are those of the list `l`, each once: a
block of the list can be freed, and after that the rest of the list is owned.
`Dangling h a` is a block that was freed; nothing makes it live again.
-/

namespace Ownership

structure Heap where
  next : Nat
  live : Finset Nat

namespace Heap

def empty : Heap := ⟨0, ∅⟩

/-- A new block, at the address `next`. -/
def alloc (h : Heap) : Heap := ⟨h.next + 1, insert h.next h.live⟩

def free (a : Nat) (h : Heap) : Heap := ⟨h.next, h.live.erase a⟩

end Heap

/-- The live blocks, in a list. -/
structure Owns (h : Heap) (l : List Nat) : Prop where
  nodup : l.Nodup
  live : ∀ a, a ∈ h.live ↔ a ∈ l
  lt : ∀ a ∈ l, a < h.next

/-- A block that was freed. -/
structure Dangling (h : Heap) (a : Nat) : Prop where
  lt : a < h.next
  dead : a ∉ h.live

variable {h : Heap} {a b : Nat} {l l' : List Nat}

theorem Owns.empty : Owns .empty [] := ⟨List.nodup_nil, by simp [Heap.empty], by simp⟩

theorem Owns.perm (ho : Owns h l) (hp : l.Perm l') : Owns h l' where
  nodup := hp.nodup_iff.mp ho.nodup
  live := fun a => (ho.live a).trans hp.mem_iff
  lt := fun a ha => ho.lt a (hp.mem_iff.mpr ha)

theorem Owns.alloc (ho : Owns h l) : Owns h.alloc (h.next :: l) where
  nodup := List.nodup_cons.mpr ⟨fun hmem => Nat.lt_irrefl _ (ho.lt _ hmem), ho.nodup⟩
  live := by
    intro a
    rw [Heap.alloc, Finset.mem_insert, ho.live, List.mem_cons]
  lt := by
    intro a ha
    rcases List.mem_cons.mp ha with rfl | hmem
    · exact Nat.lt_succ_self _
    · exact Nat.lt_succ_of_lt (ho.lt a hmem)

theorem Owns.mem (ho : Owns h (a :: l)) : a ∈ h.live := (ho.live a).mpr List.mem_cons_self

theorem Owns.free (ho : Owns h (a :: l)) : Owns (h.free a) l where
  nodup := (List.nodup_cons.mp ho.nodup).2
  live := by
    intro b
    rw [Heap.free, Finset.mem_erase, ho.live, List.mem_cons]
    constructor
    · rintro ⟨hne, heq | hmem⟩
      · exact absurd heq hne
      · exact hmem
    · intro hmem
      refine ⟨?_, Or.inr hmem⟩
      rintro rfl
      exact (List.nodup_cons.mp ho.nodup).1 hmem
  lt := fun b hb => ho.lt b (List.mem_cons_of_mem _ hb)

theorem Owns.dangling (ho : Owns h (a :: l)) : Dangling (h.free a) a :=
  ⟨ho.lt a List.mem_cons_self, by simp [Heap.free]⟩

theorem Owns.card (ho : Owns h l) : h.live.card = l.length := by
  have hset : h.live = l.toFinset := by
    ext a
    rw [ho.live, List.mem_toFinset]
  rw [hset, List.toFinset_card_of_nodup ho.nodup]

theorem Dangling.alloc (hd : Dangling h a) : Dangling h.alloc a := by
  refine ⟨Nat.lt_succ_of_lt hd.lt, ?_⟩
  rw [Heap.alloc, Finset.mem_insert]
  rintro (rfl | hlive)
  · exact Nat.lt_irrefl _ hd.lt
  · exact hd.dead hlive

theorem Dangling.free (hd : Dangling h a) (b : Nat) : Dangling (h.free b) a := by
  refine ⟨hd.lt, ?_⟩
  rw [Heap.free, Finset.mem_erase]
  exact fun hlive => hd.dead hlive.2

end Ownership
