import SasLibclient.Hdat.ChunkReader

/-!
# Bounds of the reads on arbitrary chunks

A malformed chunk has arbitrary bytes. `CanRead` adds the payload's start and
length modulo 2^64, and `sizeofAligned8` rounds the largest lengths to zero, so
some operations return true for bytes outside the chunk. `reads_in_bounds_iff`
says exactly which ones.
-/

namespace SasLibclient

open Bytes

inductive ReadOp where
  | float
  | int64
  | int32
  | variable
  | fixed (len : UInt64)
  deriving DecidableEq, Repr

namespace SuperChunkReader

def run : ReadOp → SuperChunkReader → ReadResult
  | .float, r => r.readFloat
  | .int64, r => r.readInt64
  | .int32, r => r.readInt32
  | .variable, r => r.readVariable
  | .fixed len, r => r.readFixed len

/-- The operations of a sequence, each with the state it starts from. -/
def trace : List ReadOp → SuperChunkReader → List (SuperChunkReader × ReadOp)
  | [], _ => []
  | op :: ops, r => (r, op) :: trace ops (r.run op).reader

/-- `m_size` -/
def size (r : SuperChunkReader) : Nat := r.currentChunk.chunk.size.toNat

/-- `m_offset` -/
def offset (r : SuperChunkReader) : Nat := r.currentChunk.offset.toNat

end SuperChunkReader

/-- The operation looks only at bytes of the chunk, and a pointer and length
that it returns as not null are a part of the chunk. -/
structure StaysInside (r : SuperChunkReader) (op : ReadOp) : Prop where
  accesses : ∀ a ∈ (r.run op).accesses, a.start + a.count ≤ r.size
  pointer : ∀ p len, (r.run op).out = some (.pointer (some p) len, false) →
    p.toNat + len.toNat ≤ r.size

/-- The 64-bit numbers at the offset and behind it: the position of a payload
from the end of the chunk, and its length. -/
def storedPosition (r : SuperChunkReader) : UInt64 := r.currentChunk.read8.1

def storedLength (r : SuperChunkReader) : UInt64 := r.currentChunk.read8.2.read8.1

/-- When an operation keeps to the chunk: a payload that passes `CanRead` does
so without overflow; a fixed field is shorter than `2^64 - 7`, or the bytes
that are compared lie in the chunk and are all zeros or all spaces. -/
def Harmless (r : SuperChunkReader) : ReadOp → Prop
  | .variable =>
    let start := r.currentChunk.chunk.size - storedPosition r
    r.canRead r.currentChunk.offset 16 = true →
      start.toNat + (storedLength r).toNat < 2 ^ 64 ∨ r.canRead start (storedLength r) = false
  | .fixed len =>
    let count := len.toNat % 2 ^ 32
    len.toNat < 2 ^ 64 - 7 ∨
      r.offset + count ≤ r.size ∧
        (AllBytes r.currentChunk.chunk.ptr 0 r.offset count ∨
          AllBytes r.currentChunk.chunk.ptr 32 r.offset count)
  | _ => True

/-! ## One operation -/

structure ReaderInv (r : SuperChunkReader) : Prop where
  size_lt : r.size < 2 ^ 63
  offset_le : r.offset ≤ r.size

variable {r : SuperChunkReader}

theorem canRead_iff (r : SuperChunkReader) (offset len : UInt64) :
    r.canRead offset len = true ↔ (offset.toNat + len.toNat) % 2 ^ 64 ≤ r.size := by
  unfold SuperChunkReader.canRead SuperChunkReader.size
  rw [decide_eq_true_eq, UInt64.le_iff_toNat_le, UInt64.toNat_add]

/-- In the fixed-length section `CanRead` cannot overflow. -/
theorem ReaderInv.canRead (h : ReaderInv r) (len : UInt64) (hlen : len.toNat ≤ 16) :
    r.canRead r.currentChunk.offset len = true ↔ r.offset + len.toNat ≤ r.size := by
  have hsize := h.size_lt
  have hoffset := h.offset_le
  rw [canRead_iff]
  show (r.offset + len.toNat) % 2 ^ 64 ≤ r.size ↔ _
  rw [Nat.mod_eq_of_lt (by omega)]

theorem ReaderInv.space (h : ReaderInv r) :
    (r.currentChunk.chunk.size - r.currentChunk.offset).toNat = r.size - r.offset := by
  rw [UInt64.toNat_sub_of_le _ _ (UInt64.le_iff_toNat_le.mpr h.offset_le)]
  rfl

theorem ReaderInv.offset_add (h : ReaderInv r) {len : UInt64} (hfit : r.offset + len.toNat ≤ r.size) :
    (r.currentChunk.offset + len).toNat = r.offset + len.toNat := by
  have hsize := h.size_lt
  rw [UInt64.toNat_add]
  show (r.offset + len.toNat) % 2 ^ 64 = _
  rw [Nat.mod_eq_of_lt (by omega)]

/-- `ReadFixed` succeeds when the aligned length is left in the chunk. -/
theorem ReaderInv.aligned_fits (h : ReaderInv r) (len : UInt64) :
    r.currentChunk.chunk.size - r.currentChunk.offset < sizeofAligned8 len ↔
      ¬ r.offset + (sizeofAligned8 len).toNat ≤ r.size := by
  have hoffset := h.offset_le
  rw [UInt64.lt_iff_toNat_lt, h.space]
  omega

/-- What passes `CanRead` at the offset can be skipped. -/
theorem ReaderInv.advance (h : ReaderInv r) (len : UInt64) (hlen : len.toNat ≤ 16)
    (hcan : r.canRead r.currentChunk.offset len = true) :
    (r.currentChunk.offset + len).toNat ≤ r.size := by
  have hfit := (h.canRead len hlen).mp hcan
  rw [h.offset_add hfit]
  exact hfit

/-- **Every operation keeps the offset in the chunk.** -/
theorem ReaderInv.run (h : ReaderInv r) (op : ReadOp) : ReaderInv (r.run op).reader := by
  have hfail : ∀ error accesses, ReaderInv (r.fail error accesses).reader :=
    fun _ _ => ⟨h.size_lt, h.offset_le⟩
  cases op with
  | float =>
    show ReaderInv r.readFloat.reader
    unfold SuperChunkReader.readFloat
    split
    · exact hfail _ _
    · rename_i hcan
      exact ⟨h.size_lt, h.advance 8 (by decide) (by simpa using hcan)⟩
  | int64 =>
    show ReaderInv r.readInt64.reader
    unfold SuperChunkReader.readInt64
    split
    · exact hfail _ _
    · rename_i hcan
      exact ⟨h.size_lt, h.advance 8 (by decide) (by simpa using hcan)⟩
  | int32 =>
    show ReaderInv r.readInt32.reader
    unfold SuperChunkReader.readInt32
    split
    · exact hfail _ _
    · rename_i hcan
      refine ⟨h.size_lt, ?_⟩
      show (r.currentChunk.offset + 4 + 4).toNat ≤ r.size
      rw [UInt64.add_assoc]
      exact h.advance 8 (by decide) (by simpa using hcan)
  | «variable» =>
    show ReaderInv r.readVariable.reader
    unfold SuperChunkReader.readVariable
    split
    · exact hfail _ _
    · rename_i hcan
      have hle : (r.currentChunk.offset + 8 + 8).toNat ≤ r.size := by
        rw [UInt64.add_assoc]
        exact h.advance 16 (by decide) (by simpa using hcan)
      dsimp only
      split
      · exact ⟨h.size_lt, hle⟩
      · split
        · exact ⟨h.size_lt, hle⟩
        · exact ⟨h.size_lt, hle⟩
  | fixed len =>
    show ReaderInv (r.readFixed len).reader
    unfold SuperChunkReader.readFixed SuperChunk.readAligned8
    split
    · exact h
    · by_cases hfits : r.currentChunk.chunk.size - r.currentChunk.offset < sizeofAligned8 len
      · rw [if_pos hfits]
        exact h
      · rw [if_neg hfits]
        rw [h.aligned_fits, not_not] at hfits
        refine ⟨h.size_lt, ?_⟩
        show (r.currentChunk.offset + sizeofAligned8 len).toNat ≤ r.size
        rw [h.offset_add hfits]
        exact hfits

/-- An operation that looks at nothing and returns no pointer. -/
theorem StaysInside.of_nothing {op : ReadOp} {out : Option (ReadOut × Bool)}
    {r' : SuperChunkReader} (hrun : r.run op = ⟨out, [], r'⟩)
    (hout : ∀ p len, out ≠ some (.pointer (some p) len, false)) : StaysInside r op := by
  constructor
  · intro a ha
    rw [hrun] at ha
    cases ha
  · intro p len hp
    rw [hrun] at hp
    exact absurd hp (hout p len)

theorem ReaderInv.number_inside (h : ReaderInv r) {op : ReadOp} {n : Nat} (hn : n ≤ 8)
    {error : String} {v : ReadOut} {isnull : Bool} {r' : SuperChunkReader}
    (hrun : r.run op =
      if !r.canRead r.currentChunk.offset 8 then r.fail error []
      else ⟨some (v, isnull), [r.nextBytes n], r'⟩)
    (hv : ∀ p len, v ≠ .pointer p len) : StaysInside r op := by
  cases hcan : r.canRead r.currentChunk.offset 8 with
  | false =>
    rw [hcan] at hrun
    exact .of_nothing hrun (by simp)
  | true =>
    have hfit := (h.canRead 8 (by decide)).mp hcan
    have h8 : (8 : UInt64).toNat = 8 := rfl
    rw [hcan] at hrun
    constructor
    · intro a ha
      rw [hrun] at ha
      rw [List.mem_singleton.mp ha]
      show r.offset + n ≤ r.size
      omega
    · intro p len hout
      rw [hrun] at hout
      exact absurd (Prod.mk.inj (Option.some.inj hout)).1 (hv _ _)

/-- `ReadVariable` stays inside the chunk exactly when the check of its payload
does not overflow. -/
theorem ReaderInv.variable_inside_iff (h : ReaderInv r) :
    StaysInside r .variable ↔ Harmless r .variable := by
  have hrun : r.run .variable =
      if !r.canRead r.currentChunk.offset 16 then
        r.fail "no space available to read Variable length and offset" []
      else if storedLength r = 0 then
        ⟨some (.pointer none (storedLength r), true), [r.nextBytes 16],
          { r with currentChunk := r.currentChunk.read8.2.read8.2 }⟩
      else if !r.canRead (r.currentChunk.chunk.size - storedPosition r) (storedLength r) then
        SuperChunkReader.fail { r with currentChunk := r.currentChunk.read8.2.read8.2 }
          "no space available to read Variable" [r.nextBytes 16]
      else
        ⟨some (.pointer (some (r.currentChunk.chunk.size - storedPosition r)) (storedLength r), false),
          [r.nextBytes 16], { r with currentChunk := r.currentChunk.read8.2.read8.2 }⟩ := rfl
  cases hcan : r.canRead r.currentChunk.offset 16 with
  | false =>
    rw [hcan] at hrun
    constructor
    · intro _ hcan'
      rw [hcan] at hcan'
      cases hcan'
    · intro _
      exact .of_nothing hrun (by simp)
  | true =>
    rw [hcan] at hrun
    have haccess : ∀ a ∈ [r.nextBytes 16], a.start + a.count ≤ r.size := by
      intro a ha
      rw [List.mem_singleton.mp ha]
      exact (h.canRead 16 (by decide)).mp hcan
    by_cases hzero : storedLength r = 0
    · rw [if_neg (by simp), if_pos hzero] at hrun
      constructor
      · intro _ _
        left
        rw [hzero]
        exact UInt64.toNat_lt _
      · intro _
        refine ⟨by rw [hrun]; exact haccess, ?_⟩
        intro p len hout
        rw [hrun] at hout
        cases hout
    · rw [if_neg (by simp), if_neg hzero] at hrun
      cases hpay : r.canRead (r.currentChunk.chunk.size - storedPosition r) (storedLength r) with
      | false =>
        rw [hpay] at hrun
        constructor
        · intro _ _
          exact Or.inr hpay
        · intro _
          refine ⟨by rw [hrun]; exact haccess, ?_⟩
          intro p len hout
          rw [hrun] at hout
          cases hout
      | true =>
        have hmod := (canRead_iff _ _ _).mp hpay
        have hsize := h.size_lt
        rw [hpay] at hrun
        constructor
        · intro hinside _
          left
          have := hinside.pointer _ _ (by rw [hrun]; rfl)
          omega
        · intro hharmless
          refine ⟨by rw [hrun]; exact haccess, ?_⟩
          intro p len hout
          rw [hrun] at hout
          cases hout
          rcases hharmless hcan with hlt | hno
          · rw [Nat.mod_eq_of_lt hlt] at hmod
            exact hmod
          · rw [hpay] at hno
            cases hno

theorem ReaderInv.fixed_fits_inside_iff (h : ReaderInv r) {len : UInt64} (hzero : len ≠ 0)
    (hfits : ¬ r.currentChunk.chunk.size - r.currentChunk.offset < sizeofAligned8 len) :
    StaysInside r (.fixed len) ↔ Harmless r (.fixed len) := by
  have hlt := len.toNat_lt
  have hsize := h.size_lt
  have hrun : r.run (.fixed len) =
      ⟨some (.pointer (some r.currentChunk.offset) len,
          (isNullBuffer r.currentChunk.chunk.ptr r.offset (UInt32.ofNat len.toNat)).1),
        [⟨r.offset, (isNullBuffer r.currentChunk.chunk.ptr r.offset
          (UInt32.ofNat len.toNat)).2⟩],
        { r with currentChunk :=
          { r.currentChunk with offset := r.currentChunk.offset + sizeofAligned8 len } }⟩ := by
    show r.readFixed len = _
    unfold SuperChunkReader.readFixed SuperChunk.readAligned8
    rw [if_neg hzero, if_neg hfits]
    rfl
  have hfit : r.offset + (sizeofAligned8 len).toNat ≤ r.size := by
    rw [h.aligned_fits, not_not] at hfits
    exact hfits
  rw [toNat_sizeofAligned8] at hfit
  have hcount := isNullBuffer_count_le r.currentChunk.chunk.ptr r.offset
    (UInt32.ofNat len.toNat)
  have hnull := nullCount_le hzero
  constructor
  · intro hinside
    by_cases hsmall : len.toNat < 2 ^ 64 - 7
    · exact Or.inl hsmall
    · right
      have hlarge := nullCount_of_large (Nat.le_of_not_lt hsmall)
      -- a field that is not null would be longer than the chunk
      have htrue : (isNullBuffer r.currentChunk.chunk.ptr r.offset
          (UInt32.ofNat len.toNat)).1 = true := by
        by_contra hno
        have := hinside.pointer r.currentChunk.offset len (by
          rw [hrun]
          simpa using hno)
        omega
      have hbytes := isNullBuffer_true.mp htrue
      have hacc := hinside.accesses _ (by rw [hrun]; exact List.mem_singleton.mpr rfl)
      dsimp only at hacc
      rw [isNullBuffer_count htrue, hlarge] at hacc
      rw [hlarge] at hbytes
      exact ⟨hacc, hbytes⟩
  · intro hharmless
    by_cases hsmall : len.toNat < 2 ^ 64 - 7
    · have halign : len.toNat ≤ (len.toNat + 7) % 2 ^ 64 / 8 * 8 := by omega
      constructor
      · intro a ha
        rw [hrun] at ha
        rw [List.mem_singleton.mp ha]
        dsimp only
        omega
      · intro p len' hout
        rw [hrun] at hout
        obtain ⟨hpointer, _⟩ := Prod.mk.inj (Option.some.inj hout)
        obtain ⟨hp, rfl⟩ := ReadOut.pointer.inj hpointer
        obtain rfl := Option.some.inj hp
        show r.offset + len.toNat ≤ r.size
        omega
    · rcases hharmless with hlt' | ⟨hspace, hbytes⟩
      · exact absurd hlt' hsmall
      · have hlarge := nullCount_of_large (Nat.le_of_not_lt hsmall)
        rw [← hlarge] at hspace hbytes
        have htrue := isNullBuffer_true.mpr hbytes
        constructor
        · intro a ha
          rw [hrun] at ha
          rw [List.mem_singleton.mp ha]
          dsimp only
          rw [isNullBuffer_count htrue]
          exact hspace
        · intro p len' hout
          rw [hrun, htrue] at hout
          cases hout

/-- `ReadFixed` stays inside the chunk exactly when the length is not rounded
to zero, or the bytes it compares are in the chunk and null. -/
theorem ReaderInv.fixed_inside_iff (h : ReaderInv r) (len : UInt64) :
    StaysInside r (.fixed len) ↔ Harmless r (.fixed len) := by
  by_cases hzero : len = 0
  · have hrun : r.run (.fixed len) = ⟨some (.pointer none len, true), [], r⟩ := if_pos hzero
    constructor
    · intro _
      left
      rw [hzero]
      decide
    · intro _
      exact .of_nothing hrun (by simp)
  · by_cases hfits : r.currentChunk.chunk.size - r.currentChunk.offset < sizeofAligned8 len
    · -- the field does not fit, and its length was not rounded to zero
      have hrun : r.run (.fixed len) = ⟨none, [], r⟩ := by
        show r.readFixed len = _
        unfold SuperChunkReader.readFixed SuperChunk.readAligned8
        rw [if_neg hzero, if_pos hfits]
      constructor
      · intro _
        left
        have hpos := UInt64.lt_iff_toNat_lt.mp hfits
        have hlt := len.toNat_lt
        rw [toNat_sizeofAligned8] at hpos
        omega
      · intro _
        exact .of_nothing hrun (by simp)
    · exact h.fixed_fits_inside_iff hzero hfits

theorem ReaderInv.stays_inside_iff (h : ReaderInv r) (op : ReadOp) :
    StaysInside r op ↔ Harmless r op := by
  cases op with
  | float => exact iff_of_true (h.number_inside (n := 8) (by decide) rfl (by simp)) trivial
  | int64 => exact iff_of_true (h.number_inside (n := 8) (by decide) rfl (by simp)) trivial
  | int32 => exact iff_of_true (h.number_inside (n := 4) (by decide) rfl (by simp)) trivial
  | «variable» => exact h.variable_inside_iff
  | fixed len => exact h.fixed_inside_iff len

theorem ReaderInv.trace (h : ReaderInv r) (ops : List ReadOp) :
    ∀ s ∈ r.trace ops, ReaderInv s.1 := by
  induction ops generalizing r with
  | nil =>
    intro s hs
    cases hs
  | cons op ops ih =>
    intro s hs
    rcases List.mem_cons.mp hs with rfl | hs
    · exact h
    · exact ih (h.run op) s hs

/-- **Exactly when the reads of a chunk stay inside it.** -/
theorem reads_in_bounds_iff (chunk : Chunk) (hsize : chunk.size.toNat < 2 ^ 63) (error : String)
    (ops : List ReadOp) :
    (∀ s ∈ (SuperChunkReader.reset chunk error).trace ops, StaysInside s.1 s.2) ↔
      ∀ s ∈ (SuperChunkReader.reset chunk error).trace ops, Harmless s.1 s.2 := by
  have hstart : ReaderInv (SuperChunkReader.reset chunk error) := ⟨hsize, Nat.zero_le _⟩
  have htrace := hstart.trace ops
  constructor
  · intro h s hs
    exact ((htrace s hs).stays_inside_iff s.2).mp (h s hs)
  · intro h s hs
    exact ((htrace s hs).stays_inside_iff s.2).mpr (h s hs)

/-- A chunk of 32 bytes with one variable field: its position is 16 bytes from
the end, its length 2^64 - 16. -/
def malformedChunk : Chunk :=
  newChunk (store (fun _ => 0) 0 (toLE 8 16 ++ toLE 8 (2 ^ 64 - 16))) 32 0 0

theorem malformedChunk_read :
    ((SuperChunkReader.reset malformedChunk "").run .variable).out =
      some (.pointer (some 16) 0xfffffffffffffff0, false) := by
  decide +kernel

/-- **A read outside the chunk**: the sum that `CanRead` checks is zero. -/
theorem read_variable_leaves_chunk :
    malformedChunk.size.toNat < 2 ^ 63 ∧
      ∃ s ∈ (SuperChunkReader.reset malformedChunk "").trace [.variable], ¬ StaysInside s.1 s.2 := by
  refine ⟨by decide +kernel, _, List.mem_singleton.mpr rfl, fun hinside => ?_⟩
  have hle : (16 : UInt64).toNat + (0xfffffffffffffff0 : UInt64).toNat ≤ malformedChunk.size.toNat :=
    hinside.pointer _ _ malformedChunk_read
  exact absurd hle (by decide +kernel)

theorem reads_in_bounds_iff_malformed :
    ¬ ∀ s ∈ (SuperChunkReader.reset malformedChunk "").trace [.variable], Harmless s.1 s.2 := by
  intro h
  have hinside := (reads_in_bounds_iff malformedChunk (by decide +kernel) "" [.variable]).mpr h _
    (List.mem_singleton.mpr rfl)
  have hle : (16 : UInt64).toNat + (0xfffffffffffffff0 : UInt64).toNat ≤ malformedChunk.size.toNat :=
    hinside.pointer _ _ malformedChunk_read
  exact absurd hle (by decide +kernel)

end SasLibclient
