import SasLibclient.Hdat.ChunkWriter

/-!
# `SuperChunkReader` (`hdat/chunk_reader.cpp`, `utils::IsNullBuffer`)

Each operation also reports the bytes of the chunk it looks at, as ranges of
addresses from `m_ptr` on.
-/

namespace SasLibclient

open Bytes

/-- The bytes `[start, start + count)`. -/
structure Access where
  start : Nat
  count : Nat
  deriving DecidableEq, Repr

/-- The loop of `IsNullBuffer`, with the number of bytes it compares. -/
def sameBytes (m : Mem) (firstChar : UInt8) : Nat → Nat → Bool × Nat
  | _, 0 => (true, 0)
  | a, n + 1 =>
    if m a ≠ firstChar then
      (false, 1)
    else
      ((sameBytes m firstChar (a + 1) n).1, (sameBytes m firstChar (a + 1) n).2 + 1)

/-- `size` is an `int`; the loop runs until its counter is zero, also from a
negative start. -/
def isNullBuffer (m : Mem) (buff : Nat) (size : UInt32) : Bool × Nat :=
  let firstChar := m buff
  if firstChar ≠ 32 ∧ firstChar ≠ 0 then
    (false, 1)
  else
    ((sameBytes m firstChar (buff + 1) (size - 1).toNat).1,
      (sameBytes m firstChar (buff + 1) (size - 1).toNat).2 + 1)

/-- `isnan` of the double with these bits. -/
def isNan (bits : UInt64) : Bool := bits &&& 0x7fffffffffffffff > 0x7ff0000000000000

/-- The value an operation returns: a number, or a pointer into the chunk
(`none` when it is left as it was) and a length. -/
inductive ReadOut where
  | float (bits : UInt64)
  | int64 (val : UInt64)
  | int32 (val : UInt32)
  | pointer (out : Option UInt64) (len : UInt64)
  deriving DecidableEq, Repr

structure SuperChunkReader where
  currentChunk : SuperChunk
  error : String

/-- `out` is `none` when the operation returns false; otherwise it has the
value and `isnull`. -/
structure ReadResult where
  out : Option (ReadOut × Bool)
  accesses : List Access
  reader : SuperChunkReader

namespace SuperChunkReader

/-- `Reset`; the error text of an earlier chunk stays. -/
def reset (chunk : Chunk) (error : String) : SuperChunkReader := ⟨SuperChunk.create chunk, error⟩

def canRead (r : SuperChunkReader) (offset len : UInt64) : Bool :=
  offset + len ≤ r.currentChunk.chunk.size

/-- The next `n` bytes of the fixed-length section. -/
def nextBytes (r : SuperChunkReader) (n : Nat) : Access := ⟨r.currentChunk.offset.toNat, n⟩

def fail (r : SuperChunkReader) (error : String) (accesses : List Access) : ReadResult :=
  ⟨none, accesses, { r with error := error }⟩

def readFloat (r : SuperChunkReader) : ReadResult :=
  if !r.canRead r.currentChunk.offset 8 then
    r.fail "no space available to read Float" []
  else
    let (out, s) := r.currentChunk.read8
    ⟨some (.float out, isNan out), [r.nextBytes 8], { r with currentChunk := s }⟩

def readInt64 (r : SuperChunkReader) : ReadResult :=
  if !r.canRead r.currentChunk.offset 8 then
    r.fail "no space available to read Int64" []
  else
    let (out, s) := r.currentChunk.read8
    ⟨some (.int64 out, out == int64Null), [r.nextBytes 8], { r with currentChunk := s }⟩

def readInt32 (r : SuperChunkReader) : ReadResult :=
  if !r.canRead r.currentChunk.offset 8 then
    r.fail "no space available to read Int32" []
  else
    let (out, s) := r.currentChunk.read4
    ⟨some (.int32 out, out == int32Null), [r.nextBytes 4], { r with currentChunk := s.pad 4 none }⟩

def readVariable (r : SuperChunkReader) : ReadResult :=
  if !r.canRead r.currentChunk.offset 16 then
    r.fail "no space available to read Variable length and offset" []
  else
    let (stored, s) := r.currentChunk.read8
    let (len, s) := s.read8
    let r' := { r with currentChunk := s }
    if len = 0 then
      ⟨some (.pointer none len, true), [r.nextBytes 16], r'⟩
    else
      let offset := s.chunk.size - stored
      if !r'.canRead offset len then
        r'.fail "no space available to read Variable" [r.nextBytes 16]
      else
        ⟨some (.pointer (some offset) len, false), [r.nextBytes 16], r'⟩

def readFixed (len : UInt64) (r : SuperChunkReader) : ReadResult :=
  if len = 0 then
    ⟨some (.pointer none len, true), [], r⟩
  else
    match r.currentChunk.readAligned8 len with
    | none => ⟨none, [], r⟩
    | some (out, s) =>
      let (isnull, count) := isNullBuffer s.chunk.ptr out.toNat (UInt32.ofNat len.toNat)
      ⟨some (.pointer (some out) len, isnull), [⟨out.toNat, count⟩], { r with currentChunk := s }⟩

end SuperChunkReader

/-! ## `IsNullBuffer` -/

/-- All bytes from `a` to `a + n` are `b`. -/
def AllBytes (m : Mem) (b : UInt8) (a n : Nat) : Prop := ∀ i < n, m (a + i) = b

theorem allBytes_succ {m : Mem} {b : UInt8} {a n : Nat} (h : m a = b) :
    AllBytes m b a (n + 1) ↔ AllBytes m b (a + 1) n := by
  constructor
  · intro hall i hi
    have := hall (i + 1) (by omega)
    rw [Nat.add_comm i 1, ← Nat.add_assoc] at this
    exact this
  · intro hall i hi
    cases i with
    | zero => exact h
    | succ i =>
      have := hall i (by omega)
      rw [Nat.add_assoc, Nat.add_comm 1 i] at this
      exact this

theorem sameBytes_count_le (m : Mem) (b : UInt8) (a n : Nat) : (sameBytes m b a n).2 ≤ n := by
  induction n generalizing a with
  | zero => exact Nat.le_refl 0
  | succ n ih =>
    unfold sameBytes
    split
    · exact Nat.succ_le_succ (Nat.zero_le n)
    · exact Nat.succ_le_succ (ih (a + 1))

theorem sameBytes_true {m : Mem} {b : UInt8} {a n : Nat} :
    (sameBytes m b a n).1 = true ↔ AllBytes m b a n := by
  induction n generalizing a with
  | zero => simp [sameBytes, AllBytes]
  | succ n ih =>
    unfold sameBytes
    split
    · rename_i hne
      constructor
      · intro h
        cases h
      · intro hall
        exact absurd (hall 0 (Nat.succ_pos n)) hne
    · rename_i heq
      rw [ne_eq, not_not] at heq
      show (sameBytes m b (a + 1) n).1 = true ↔ _
      rw [ih]
      exact (allBytes_succ heq).symm

theorem sameBytes_count {m : Mem} {b : UInt8} {a n : Nat} (h : (sameBytes m b a n).1 = true) :
    (sameBytes m b a n).2 = n := by
  induction n generalizing a with
  | zero => rfl
  | succ n ih =>
    unfold sameBytes at h ⊢
    split at h
    · cases h
    · rename_i heq
      rw [if_neg heq]
      exact congrArg (· + 1) (ih h)

/-- The bytes that `IsNullBuffer` may compare. -/
def nullCount (size : UInt32) : Nat := (size - 1).toNat + 1

theorem isNullBuffer_count_le (m : Mem) (a : Nat) (size : UInt32) :
    (isNullBuffer m a size).2 ≤ nullCount size := by
  unfold isNullBuffer nullCount
  dsimp only
  split
  · omega
  · have := sameBytes_count_le m (m a) (a + 1) (size - 1).toNat
    show (sameBytes m (m a) (a + 1) (size - 1).toNat).2 + 1 ≤ _
    omega

/-- A field is null when all of it is zeros or all of it is spaces. -/
theorem isNullBuffer_true {m : Mem} {a : Nat} {size : UInt32} :
    (isNullBuffer m a size).1 = true ↔
      AllBytes m 0 a (nullCount size) ∨ AllBytes m 32 a (nullCount size) := by
  have hfirst : ∀ b, AllBytes m b a (nullCount size) → m a = b := by
    intro b h
    exact h 0 (Nat.succ_pos _)
  unfold isNullBuffer
  dsimp only
  split
  · rename_i hne
    constructor
    · intro h
      cases h
    · rintro (h | h)
      · exact absurd (hfirst 0 h) hne.2
      · exact absurd (hfirst 32 h) hne.1
  · rename_i hchar
    show (sameBytes m (m a) (a + 1) (size - 1).toNat).1 = true ↔ _
    rw [sameBytes_true, ← allBytes_succ rfl]
    constructor
    · intro h
      by_cases h32 : m a = 32
      · exact Or.inr (h32 ▸ h)
      · by_cases h0 : m a = 0
        · exact Or.inl (h0 ▸ h)
        · exact absurd ⟨h32, h0⟩ hchar
    · rintro (h | h)
      · rw [hfirst 0 h]
        exact h
      · rw [hfirst 32 h]
        exact h

theorem isNullBuffer_count {m : Mem} {a : Nat} {size : UInt32}
    (h : (isNullBuffer m a size).1 = true) : (isNullBuffer m a size).2 = nullCount size := by
  unfold isNullBuffer at h ⊢
  dsimp only at h ⊢
  split at h
  · cases h
  · rename_i hchar
    rw [if_neg hchar]
    exact congrArg (· + 1) (sameBytes_count h)

theorem nullCount_le {len : UInt64} (h : len ≠ 0) :
    nullCount (UInt32.ofNat len.toNat) ≤ len.toNat := by
  have hpos : len.toNat ≠ 0 := fun e => h (UInt64.toNat_inj.mp e)
  unfold nullCount
  rw [UInt32.toNat_sub, UInt32.toNat_ofNat']
  have hone : (1 : UInt32).toNat = 1 := rfl
  rw [hone]
  omega

theorem nullCount_of_large {len : UInt64} (h : 2 ^ 64 - 7 ≤ len.toNat) :
    nullCount (UInt32.ofNat len.toNat) = len.toNat % 2 ^ 32 := by
  have hlt := len.toNat_lt
  unfold nullCount
  rw [UInt32.toNat_sub, UInt32.toNat_ofNat']
  have hone : (1 : UInt32).toNat = 1 := rfl
  rw [hone]
  omega

end SasLibclient
