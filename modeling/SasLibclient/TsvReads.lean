import SasLibclient.Hdat.ReaderBounds
import SasLibclient.TsvTableWriter

/-!
# What the read operations do to the chunk

A reader changes only its offset, except that `ReadInt32` skips its padding with
`Pad`, which counts the four bytes as consumed. `reads_keep_chunk_iff` says when
the chunk is the same after a sequence of operations, and after `ChunkToTSV`.
-/

namespace SasLibclient

open Bytes

/-- The offset after an operation; what does not fit leaves it. -/
def ReadOp.next (size offset : UInt64) : ReadOp → UInt64
  | .float | .int64 | .int32 => if offset + 8 ≤ size then offset + 8 else offset
  | .variable => if offset + 16 ≤ size then offset + 16 else offset
  | .fixed len =>
    if len = 0 ∨ size - offset < sizeofAligned8 len then offset else offset + sizeofAligned8 len

/-- The `ReadInt32` operations of a sequence that fit. -/
def int32Reads (size : UInt64) : UInt64 → List ReadOp → Nat
  | _, [] => 0
  | offset, op :: ops =>
    (if op = .int32 ∧ offset + 8 ≤ size then 1 else 0) + int32Reads size (op.next size offset) ops

/-- A chunk in which `count` more bytes are consumed. -/
def Chunk.consume (chunk : Chunk) (count : UInt64) : Chunk :=
  { chunk with consumedSize := chunk.consumedSize + count }

@[simp] theorem Chunk.size_consume (chunk : Chunk) (count : UInt64) :
    (chunk.consume count).size = chunk.size := rfl

theorem Chunk.consume_zero (chunk : Chunk) : chunk.consume 0 = chunk := by
  simp [Chunk.consume]

theorem Chunk.consume_consume (chunk : Chunk) (a b : UInt64) :
    (chunk.consume a).consume b = chunk.consume (a + b) := by
  simp [Chunk.consume, UInt64.add_assoc]

theorem Chunk.consume_eq_iff (chunk : Chunk) (count : UInt64) :
    chunk.consume count = chunk ↔ count = 0 := by
  constructor
  · intro h
    have hsum : chunk.consumedSize + count = chunk.consumedSize :=
      congrArg Chunk.consumedSize h
    exact UInt64.add_eq_left.mp hsum
  · rintro rfl
    exact chunk.consume_zero

namespace SuperChunkReader

/-- The reader after a sequence of operations. -/
def runs : List ReadOp → SuperChunkReader → SuperChunkReader
  | [], r => r
  | op :: ops, r => runs ops (r.run op).reader

variable {r : SuperChunkReader}

theorem runs_append (ops ops' : List ReadOp) (r : SuperChunkReader) :
    runs (ops ++ ops') r = runs ops' (runs ops r) := by
  induction ops generalizing r with
  | nil => rfl
  | cons op ops ih => exact ih _

theorem currentChunk_number {error : String} {out : Option (ReadOut × Bool)} {n : Nat} :
    (if !r.canRead r.currentChunk.offset 8 then r.fail error []
      else ⟨out, [r.nextBytes n],
        { r with currentChunk := { r.currentChunk with offset := r.currentChunk.offset + 8 } }⟩
        : ReadResult).reader.currentChunk =
      ⟨r.currentChunk.chunk, if r.currentChunk.offset + 8 ≤ r.currentChunk.chunk.size
        then r.currentChunk.offset + 8 else r.currentChunk.offset⟩ := by
  by_cases hfits : r.currentChunk.offset + 8 ≤ r.currentChunk.chunk.size
  · simp [canRead, hfits]
  · simp [canRead, hfits, fail]

/-- **One operation**: the offset goes on, and a `ReadInt32` that fits adds 4 to
`consumed_size`. -/
theorem currentChunk_run (op : ReadOp) (r : SuperChunkReader) :
    (r.run op).reader.currentChunk =
      ⟨r.currentChunk.chunk.consume
          (if op = .int32 ∧ r.currentChunk.offset + 8 ≤ r.currentChunk.chunk.size then 4 else 0),
        op.next r.currentChunk.chunk.size r.currentChunk.offset⟩ := by
  cases op with
  | float =>
    simp only [reduceCtorEq, false_and, if_false, Chunk.consume_zero]
    exact currentChunk_number
  | int64 =>
    simp only [reduceCtorEq, false_and, if_false, Chunk.consume_zero]
    exact currentChunk_number
  | int32 =>
    by_cases hfits : r.currentChunk.offset + 8 ≤ r.currentChunk.chunk.size
    · have hsum : r.currentChunk.offset + 4 + 4 = r.currentChunk.offset + 8 := by
        rw [UInt64.add_assoc]
        rfl
      simp [run, readInt32, canRead, hfits, SuperChunk.read4, SuperChunk.pad, ReadOp.next,
        Chunk.consume, hsum]
    · simp [run, readInt32, canRead, hfits, fail, ReadOp.next, Chunk.consume_zero]
  | «variable» =>
    simp only [reduceCtorEq, false_and, if_false, Chunk.consume_zero]
    by_cases hfits : r.currentChunk.offset + 16 ≤ r.currentChunk.chunk.size
    · have hsum : r.currentChunk.offset + 8 + 8 = r.currentChunk.offset + 16 := by
        rw [UInt64.add_assoc]
        rfl
      simp only [run, readVariable, canRead, hfits, SuperChunk.read8, ReadOp.next, decide_true,
        Bool.not_true, Bool.false_eq_true, if_false, if_true, hsum]
      split
      · rfl
      · split
        · rfl
        · rfl
    · simp [run, readVariable, canRead, hfits, fail, ReadOp.next]
  | fixed len =>
    simp only [reduceCtorEq, false_and, if_false, Chunk.consume_zero]
    by_cases hzero : len = 0
    · simp [run, readFixed, ReadOp.next, hzero]
    · by_cases hspace : r.currentChunk.chunk.size - r.currentChunk.offset < sizeofAligned8 len
      · simp [run, readFixed, SuperChunk.readAligned8, ReadOp.next, hzero, hspace]
      · simp [run, readFixed, SuperChunk.readAligned8, ReadOp.next, hzero, hspace]

/-- **A sequence of operations** adds 4 to `consumed_size` for every `ReadInt32`
that fits, and changes nothing else of the chunk. -/
theorem chunk_runs (ops : List ReadOp) (r : SuperChunkReader) :
    (runs ops r).currentChunk.chunk =
      r.currentChunk.chunk.consume (UInt64.ofNat
        (4 * int32Reads r.currentChunk.chunk.size r.currentChunk.offset ops)) := by
  induction ops generalizing r with
  | nil => exact (Chunk.consume_zero _).symm
  | cons op ops ih =>
    have hstep := currentChunk_run op r
    rw [runs, ih, hstep, Chunk.size_consume, Chunk.consume_consume, int32Reads, Nat.mul_add,
      UInt64.ofNat_add]
    congr 2
    split
    · rfl
    · rfl

end SuperChunkReader

/-- A number of `ReadInt32` operations that `consumed_size` does not show. -/
theorem ofNat_four_mul_eq_zero_iff (n : Nat) : UInt64.ofNat (4 * n) = 0 ↔ 2 ^ 62 ∣ n := by
  rw [← UInt64.toNat_inj, UInt64.toNat_ofNat']
  show 4 * n % 2 ^ 64 = 0 ↔ _
  omega

/-! ## `ChunkToTSV` -/

/-- The read operation of a column; `none` when the type is not supported. -/
def Column.readOp (column : Column) : Option ReadOp :=
  match column.type with
  | .int64 | .time | .dateTime => some .int64
  | .int32 | .date => some .int32
  | .double => some .float
  | .fixed => some (.fixed (UInt64.ofInt column.size))
  | .variable => some .variable
  | .unsupported => none

theorem Column.readOp_eq_none {column : Column} : column.readOp = none ↔ column.type = .unsupported := by
  unfold Column.readOp
  cases column.type <;> simp

theorem Column.readColumn_eq {column : Column} {op : ReadOp} (h : column.readOp = some op)
    (r : SuperChunkReader) : r.readColumn column = r.run op := by
  unfold Column.readOp at h
  unfold SuperChunkReader.readColumn
  cases htype : column.type <;> rw [htype] at h <;> cases h <;> rfl

/-- The operations that the loops perform on columns in this order: up to one
that returns false, or to a column of an unsupported type. -/
def SuperChunkReader.performed : List Column → SuperChunkReader → List ReadOp
  | [], _ => []
  | column :: columns, r =>
    match column.readOp with
    | none => []
    | some op =>
      op :: if (r.run op).out.isSome then performed columns (r.run op).reader else []

/-- The operations of `ChunkToTSV`. -/
def SuperChunkReader.tsvOps (schema : RowSchema) (rowCount : Int) (r : SuperChunkReader) :
    List ReadOp :=
  r.performed (List.replicate rowCount.toNat schema.columnInfo).flatten

/-- The reader that a loop leaves, whatever it returns. -/
def readerAfter {α : Type} : Except SuperChunkReader (α × SuperChunkReader) → SuperChunkReader
  | .ok (_, r) => r
  | .error r => r

/-- The operations on the columns behind a loop. -/
def performedAfter {α : Type} (columns : List Column) :
    Except SuperChunkReader (α × SuperChunkReader) → List ReadOp
  | .ok (_, r) => r.performed columns
  | .error _ => []

section Loops

variable {α β : Type} {W : TsvWorld} {columns columns' : List Column} {r r' : SuperChunkReader}

/-- What a loop does to the reader on columns in this order. -/
structure Performs (columns : List Column) (r : SuperChunkReader)
    (result : Except SuperChunkReader (α × SuperChunkReader)) : Prop where
  reader : readerAfter result = r.runs (r.performed columns)
  append : ∀ rest, r.performed (columns ++ rest) =
    r.performed columns ++ performedAfter rest result

theorem performs_nil (a : α) (r : SuperChunkReader) : Performs [] r (.ok (a, r)) :=
  ⟨rfl, fun _ => rfl⟩

theorem Performs.andThen {a : α} (h : Performs columns r (.ok (a, r')))
    {result : Except SuperChunkReader (β × SuperChunkReader)} (h' : Performs columns' r' result) :
    Performs (columns ++ columns') r result := by
  have hreader : r' = r.runs (r.performed columns) := h.reader
  constructor
  · rw [h.append, SuperChunkReader.runs_append, ← hreader]
    exact h'.reader
  · intro rest
    rw [List.append_assoc, h.append, h.append]
    show _ ++ r'.performed (columns' ++ rest) = _ ++ r'.performed columns' ++ _
    rw [h'.append, List.append_assoc]

theorem Performs.stop (h : Performs (α := α) columns r (.error r')) (columns' : List Column) :
    Performs (α := β) (columns ++ columns') r (.error r') := by
  have hstop : ∀ rest, r.performed (columns ++ rest) = r.performed columns := by
    intro rest
    rw [h.append]
    exact List.append_nil _
  constructor
  · rw [hstop]
    exact h.reader
  · intro rest
    rw [List.append_assoc, hstop, hstop]
    exact (List.append_nil _).symm

theorem performs_tsvField (W : TsvWorld) (column : Column) (r : SuperChunkReader) :
    Performs [column] r (W.tsvField column r) := by
  unfold TsvWorld.tsvField
  cases hop : column.readOp with
  | none =>
    rw [if_pos (Column.readOp_eq_none.mp hop)]
    constructor
    · simp [readerAfter, SuperChunkReader.runs, SuperChunkReader.performed, hop]
    · simp [performedAfter, SuperChunkReader.performed, hop]
  | some op =>
    have htype : column.type ≠ .unsupported := by
      intro htype
      rw [Column.readOp_eq_none.mpr htype] at hop
      cases hop
    rw [if_neg htype, Column.readColumn_eq hop]
    cases hout : (r.run op).out with
    | none =>
      constructor
      · simp [readerAfter, SuperChunkReader.runs, SuperChunkReader.performed, hop, hout]
      · simp [performedAfter, SuperChunkReader.performed, hop, hout]
    | some out =>
      constructor
      · simp [readerAfter, SuperChunkReader.runs, SuperChunkReader.performed, hop, hout]
      · simp [performedAfter, SuperChunkReader.performed, hop, hout]

theorem performs_tsvColumns (W : TsvWorld) (columns : List Column) (first : Bool)
    (r : SuperChunkReader) : Performs columns r (W.tsvColumns columns first r) := by
  induction columns generalizing first r with
  | nil => exact performs_nil [] r
  | cons column columns ih =>
    have hfield := performs_tsvField W column r
    rw [TsvWorld.tsvColumns]
    cases hresult : W.tsvField column r with
    | error r₁ =>
      rw [hresult] at hfield
      exact hfield.stop columns
    | ok result =>
      obtain ⟨text, r₁⟩ := result
      rw [hresult] at hfield
      have hboth := hfield.andThen (ih false r₁)
      dsimp only
      cases hrest : W.tsvColumns columns false r₁ with
      | error r₂ =>
        rw [hrest] at hboth
        exact ⟨hboth.reader, hboth.append⟩
      | ok result =>
        rw [hrest] at hboth
        exact ⟨hboth.reader, hboth.append⟩

theorem performs_tsvRows (W : TsvWorld) (columns : List Column) (n : Nat) (first : Bool)
    (r : SuperChunkReader) :
    Performs (List.replicate n columns).flatten r (W.tsvRows columns n first r) := by
  induction n generalizing first r with
  | zero => exact performs_nil [] r
  | succ n ih =>
    have hrow := performs_tsvColumns W columns true r
    rw [TsvWorld.tsvRows, List.replicate_succ, List.flatten_cons]
    cases hresult : W.tsvColumns columns true r with
    | error r₁ =>
      rw [hresult] at hrow
      exact hrow.stop _
    | ok result =>
      obtain ⟨text, r₁⟩ := result
      rw [hresult] at hrow
      have hboth := hrow.andThen (ih false r₁)
      dsimp only
      cases hrest : W.tsvRows columns n false r₁ with
      | error r₂ =>
        rw [hrest] at hboth
        exact ⟨hboth.reader, hboth.append⟩
      | ok result =>
        rw [hrest] at hboth
        exact ⟨hboth.reader, hboth.append⟩

/-- **`ChunkToTSV`** is a sequence of read operations. -/
theorem readerAfter_chunkToTSV (W : TsvWorld) (schema : RowSchema) (rowCount : Int)
    (r : SuperChunkReader) :
    readerAfter (W.chunkToTSV schema rowCount r) = r.runs (r.tsvOps schema rowCount) :=
  (performs_tsvRows W schema.columnInfo rowCount.toNat true r).reader

end Loops

/-- **Exactly when reading leaves the chunk as it was**: the `ReadInt32`
operations that fit are a multiple of 2^62, so that what they add to
`consumed_size` is zero modulo 2^64. -/
theorem reads_keep_chunk_iff (r : SuperChunkReader) :
    (∀ ops, (r.runs ops).currentChunk.chunk = r.currentChunk.chunk ↔
      2 ^ 62 ∣ int32Reads r.currentChunk.chunk.size r.currentChunk.offset ops) ∧
    (∀ (W : TsvWorld) (schema : RowSchema) (rowCount : Int),
      (readerAfter (W.chunkToTSV schema rowCount r)).currentChunk.chunk = r.currentChunk.chunk ↔
        2 ^ 62 ∣ int32Reads r.currentChunk.chunk.size r.currentChunk.offset
          (r.tsvOps schema rowCount)) := by
  have hops : ∀ ops, (r.runs ops).currentChunk.chunk = r.currentChunk.chunk ↔
      2 ^ 62 ∣ int32Reads r.currentChunk.chunk.size r.currentChunk.offset ops := by
    intro ops
    rw [SuperChunkReader.chunk_runs, Chunk.consume_eq_iff, ofNat_four_mul_eq_zero_iff]
  refine ⟨hops, ?_⟩
  intro W schema rowCount
  rw [readerAfter_chunkToTSV]
  exact hops _

/-- In a chunk of less than 2^63 bytes the offset only grows, up to its size. -/
theorem ReadOp.next_spec {size offset : UInt64} (hsize : size.toNat < 2 ^ 63)
    (hoffset : offset.toNat ≤ size.toNat) (op : ReadOp) :
    offset.toNat ≤ (op.next size offset).toNat ∧ (op.next size offset).toNat ≤ size.toNat ∧
      (op = .int32 ∧ offset + 8 ≤ size → (op.next size offset).toNat = offset.toNat + 8) := by
  have hadd : ∀ len : UInt64, len.toNat ≤ 2 ^ 63 → (offset + len).toNat = offset.toNat + len.toNat := by
    intro len hlen
    rw [UInt64.toNat_add, Nat.mod_eq_of_lt (by omega)]
  have h8 : (8 : UInt64).toNat = 8 := rfl
  have h16 : (16 : UInt64).toNat = 16 := rfl
  have hfits : ∀ len : UInt64, offset + len ≤ size → len.toNat ≤ 2 ^ 63 →
      offset.toNat + len.toNat ≤ size.toNat := by
    intro len hle hlen
    rw [UInt64.le_iff_toNat_le, hadd len hlen] at hle
    exact hle
  cases op with
  | float | int64 | int32 =>
    unfold ReadOp.next
    dsimp only
    split
    · rename_i hle
      have := hfits 8 hle (by decide)
      rw [hadd 8 (by decide)]
      omega
    · rename_i hle
      exact ⟨Nat.le_refl _, hoffset, fun h => absurd h.2 hle⟩
  | «variable» =>
    unfold ReadOp.next
    dsimp only
    split
    · rename_i hle
      have := hfits 16 hle (by decide)
      rw [hadd 16 (by decide)]
      exact ⟨by omega, by omega, fun h => nomatch h.1⟩
    · exact ⟨Nat.le_refl _, hoffset, fun h => nomatch h.1⟩
  | fixed len =>
    unfold ReadOp.next
    dsimp only
    split
    · exact ⟨Nat.le_refl _, hoffset, fun h => nomatch h.1⟩
    · rename_i hspace
      have hle : (sizeofAligned8 len).toNat ≤ size.toNat - offset.toNat := by
        have hspace := (not_or.mp hspace).2
        rw [UInt64.lt_iff_toNat_lt, UInt64.toNat_sub_of_le _ _ (UInt64.le_iff_toNat_le.mpr hoffset)]
          at hspace
        omega
      rw [hadd _ (by omega)]
      exact ⟨by omega, by omega, fun h => nomatch h.1⟩

theorem int32Reads_le {size offset : UInt64} (hsize : size.toNat < 2 ^ 63)
    (hoffset : offset.toNat ≤ size.toNat) (ops : List ReadOp) :
    8 * int32Reads size offset ops + offset.toNat ≤ size.toNat := by
  induction ops generalizing offset with
  | nil => simpa [int32Reads] using hoffset
  | cons op ops ih =>
    obtain ⟨hle, hend, hint32⟩ := ReadOp.next_spec hsize hoffset op
    have hrest := ih hend
    rw [int32Reads]
    split
    · rename_i hread
      have := hint32 hread
      omega
    · omega

/-- In such a chunk the condition says that no `ReadInt32` fits. -/
theorem int32Reads_eq_zero {size offset : UInt64} (hsize : size.toNat < 2 ^ 63)
    (hoffset : offset.toNat ≤ size.toNat) {ops : List ReadOp}
    (hdvd : 2 ^ 62 ∣ int32Reads size offset ops) : int32Reads size offset ops = 0 := by
  have hcount := int32Reads_le hsize hoffset ops
  omega

/-- A chunk with one row, the number 7 in a column of type `Int32`. -/
def oneInt32 : Chunk where
  ptr := fun a => [7, 0, 0, 0, 0, 0, 0, 0].getD a 0
  size := 8
  rowCount := 1
  consumedSize := 8
  variableOffset := 0
  id := 0
  partitionId := 0

/-- **Writing a chunk changes it**: 12 of its 8 bytes are consumed afterwards. -/
theorem chunkToTSV_changes_chunk :
    ¬ ∀ (W : TsvWorld) (schema : RowSchema) (rowCount : Int) (chunk : Chunk) (error : String),
      (readerAfter (W.chunkToTSV schema rowCount (.reset chunk error))).currentChunk.chunk =
        chunk := by
  intro h
  have hsame := h oneDouble ⟨[⟨.int32, 4, "n"⟩], by decide⟩ 1 oneInt32 ""
  have hconsumed : (12 : UInt64) = 8 := congrArg Chunk.consumedSize hsame
  cases hconsumed

end SasLibclient
