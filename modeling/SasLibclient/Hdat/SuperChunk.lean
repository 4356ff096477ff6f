import Mathlib.Data.Nat.Bitwise
import SasLibclient.Bytes.Memory

/-!
# Chunks (`chunk_extern.h`, `hdat/super_chunk.hpp`)

A chunk is a buffer with two regions: the fixed-length section grows upwards
from its first byte, the variable-length section downwards from its last.
`ptr` gives a byte to every address from `m_ptr` on, also to those outside the
buffer, so that an access past the end has a meaning in the model. Asserts are
compiled out.
-/

namespace SasLibclient

open Bytes

inductive ColumnType where
  | int64
  | int32
  | double
  | variable
  | fixed
  | time
  | date
  | dateTime
  | unsupported
  deriving DecidableEq, Repr

structure Column where
  type : ColumnType
  /-- an `int64_t` -/
  size : Int
  name : String
  deriving DecidableEq, Repr

/-- `numColumns`, the length of the list, is a `uint32_t`. -/
structure RowSchema where
  columnInfo : List Column
  numColumns_lt : columnInfo.length < 2 ^ 32

structure Chunk where
  ptr : Mem
  size : UInt64
  rowCount : UInt64
  consumedSize : UInt64
  variableOffset : UInt64
  id : UInt64
  partitionId : UInt32

def newChunk (ptr : Mem) (size id : UInt64) (partition : UInt32) : Chunk where
  ptr := ptr
  size := size
  rowCount := 0
  consumedSize := 0
  variableOffset := 0
  id := id
  partitionId := partition

def defaultAlignmentSize : UInt64 := 8

def sizeofAligned8 (len : UInt64) : UInt64 :=
  (len + defaultAlignmentSize - 1) &&& ~~~(defaultAlignmentSize - 1)

structure SuperChunk where
  chunk : Chunk
  offset : UInt64

namespace SuperChunk

/-- The constructor. -/
def create (chunk : Chunk) : SuperChunk := ⟨chunk, 0⟩

def incrVariableOffset (len : UInt64) (s : SuperChunk) : SuperChunk :=
  { s with chunk := { s.chunk with variableOffset := s.chunk.variableOffset + len } }

def incrRowCount (s : SuperChunk) : SuperChunk :=
  { s with chunk := { s.chunk with rowCount := s.chunk.rowCount + 1 } }

/-- `memcpy` of `src`, whose length is `len`. -/
def writeAt (offset : UInt64) (src : List UInt8) (s : SuperChunk) : SuperChunk :=
  if src.length = 0 then
    s
  else
    { s with
      chunk := { s.chunk with
        ptr := store s.chunk.ptr offset.toNat src
        consumedSize := s.chunk.consumedSize + UInt64.ofNat src.length } }

def write (src : List UInt8) (s : SuperChunk) : SuperChunk :=
  let s' := s.writeAt s.offset src
  { s' with offset := s'.offset + UInt64.ofNat src.length }

/-- `fill` is the fill character, `none` when none is needed. -/
def pad (len : UInt64) (fill : Option UInt8) (s : SuperChunk) : SuperChunk where
  chunk :=
    { s.chunk with
      ptr :=
        match fill with
        | some c => store s.chunk.ptr s.offset.toNat (List.replicate len.toNat c)
        | none => s.chunk.ptr
      consumedSize := s.chunk.consumedSize + len }
  offset := s.offset + len

/-- `*((T *)(m_ptr + m_offset)) = val` for a type of `n` bytes. -/
def writeTyped (n : Nat) (val : Nat) (s : SuperChunk) : SuperChunk where
  chunk :=
    { s.chunk with
      ptr := store s.chunk.ptr s.offset.toNat (toLE n val)
      consumedSize := s.chunk.consumedSize + UInt64.ofNat n }
  offset := s.offset + UInt64.ofNat n

def write8Typed (val : UInt64) (s : SuperChunk) : SuperChunk := s.writeTyped 8 val.toNat

def write4Typed (val : UInt32) (s : SuperChunk) : SuperChunk := s.writeTyped 4 val.toNat

def read8 (s : SuperChunk) : UInt64 × SuperChunk :=
  (UInt64.ofNat (ofLE (load s.chunk.ptr s.offset.toNat 8)), { s with offset := s.offset + 8 })

def read4 (s : SuperChunk) : UInt32 × SuperChunk :=
  (UInt32.ofNat (ofLE (load s.chunk.ptr s.offset.toNat 4)), { s with offset := s.offset + 4 })

/-- The address of the field and the state after it, `none` when the section
ends before it. -/
def readAligned8 (len : UInt64) (s : SuperChunk) : Option (UInt64 × SuperChunk) :=
  if s.chunk.size - s.offset < sizeofAligned8 len then
    none
  else
    some (s.offset, { s with offset := s.offset + sizeofAligned8 len })

end SuperChunk

/-! ## Alignment -/

theorem land_not_seven (n : Nat) (h : n < 2 ^ 64) : n &&& (2 ^ 64 - 8) = n / 8 * 8 := by
  apply Nat.eq_of_testBit_eq
  intro i
  have hseven : Nat.testBit 7 i = decide (i < 3) := Nat.testBit_two_pow_sub_one 3 i
  have hmask : Nat.testBit (2 ^ 64 - 8) i = (decide (i < 64) && !decide (i < 3)) := by
    rw [← hseven]
    exact Nat.testBit_two_pow_sub_succ (x := 7) (n := 64) (by decide) i
  have hright : n / 8 * 8 = (n >>> 3) <<< 3 := by
    rw [Nat.shiftLeft_eq, Nat.shiftRight_eq_div_pow]
  rw [Nat.testBit_and, hmask, hright, Nat.testBit_shiftLeft, Nat.testBit_shiftRight]
  rcases Nat.lt_or_ge i 3 with hi | hi
  · simp [hi]
  · have hshift : 3 + (i - 3) = i := by omega
    rcases Nat.lt_or_ge i 64 with hi' | hi'
    · simp [hi, hi', hshift]
    · have hlarge : 2 ^ 64 ≤ 2 ^ i := Nat.pow_le_pow_right (by decide) hi'
      have hbit : n.testBit i = false := Nat.testBit_lt_two_pow (by omega)
      simp [hbit, hshift]

theorem toNat_sizeofAligned8 (len : UInt64) :
    (sizeofAligned8 len).toNat = (len.toNat + 7) % 2 ^ 64 / 8 * 8 := by
  have hadd : len + defaultAlignmentSize - 1 = len + 7 := by
    show len + 8 - 1 = len + 7
    rw [UInt64.sub_eq_add_neg, UInt64.add_assoc]
    rfl
  have hmask : (~~~(defaultAlignmentSize - 1)).toNat = 2 ^ 64 - 8 := rfl
  rw [sizeofAligned8, hadd, UInt64.toNat_and, hmask, land_not_seven _ (UInt64.toNat_lt _),
    UInt64.toNat_add]
  rfl

end SasLibclient
