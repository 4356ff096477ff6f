import Mathlib.Algebra.Group.Int.Defs
import SasLibclient.Bytes.Memory
import SasLibclient.Loops.Pieces

/-!
# `ss_local_infile_read` (`avro_table_writer.cpp`, `tsv_table_writer.cpp`)

The server asks for the data of LOAD DATA in pieces. `AvroTableWriter` copies
them from a buffer, `TsvTableWriter` reads them from a stringstream; both cut
the source as `Pieces` does.
-/

namespace SasLibclient

open Bytes

/-- `m_ptr` is the memory from that pointer on; the other fields are `int64_t`. -/
structure AvroBuffer where
  ptr : Mem
  size : Int
  currentPos : Int

def intOfInt64 (n : Int) : Int := n.bmod (2 ^ 32)

/-- The return value and the bytes that are stored in `buf`. -/
abbrev InfilePiece := Int × List UInt8

namespace AvroTableWriter

/-- `buf_len` is compared as an `int64_t`; the length of `memcpy` is a `size_t`. -/
def ssLocalInfileRead (bufLen : UInt32) (sourceBuf : AvroBuffer) : InfilePiece × AvroBuffer :=
  let nBytes := intOfInt64 (
    if (bufLen.toNat : Int) ≤ sourceBuf.size - sourceBuf.currentPos then bufLen.toNat
    else sourceBuf.size - sourceBuf.currentPos)
  ((nBytes, load sourceBuf.ptr sourceBuf.currentPos.toNat (nBytes % 2 ^ 64).toNat),
    { sourceBuf with currentPos := sourceBuf.currentPos + nBytes })

end AvroTableWriter

/-- A stringstream: the text that was written to it, the position of the next
character, the flags, and the `gcount` of the last read. -/
structure StringStream where
  content : List UInt8
  position : Nat
  eofbit : Bool
  failbit : Bool
  badbit : Bool
  gcount : Nat

namespace StringStream

def ofContent (content : List UInt8) : StringStream := ⟨content, 0, false, false, false, 0⟩

def good (ss : StringStream) : Bool := !ss.eofbit && !ss.failbit && !ss.badbit

/-- `istream::read`: the sentry sets `failbit` on a stream that is not good; a
read that meets the end sets `eofbit` and `failbit`. -/
def read (n : Nat) (ss : StringStream) : List UInt8 × StringStream :=
  if ss.good then
    let chars := (ss.content.drop ss.position).take n
    let short := decide (chars.length < n)
    (chars,
      { ss with
        position := ss.position + chars.length
        eofbit := ss.eofbit || short
        failbit := ss.failbit || short
        gcount := chars.length })
  else
    ([], { ss with failbit := true, gcount := 0 })

end StringStream

namespace TsvTableWriter

def ssLocalInfileRead (bufLen : UInt32) (ss : StringStream) : InfilePiece × StringStream :=
  let (chars, ss) := ss.read bufLen.toNat
  ((if ss.badbit then -1 else intOfInt64 ss.gcount, chars), ss)

end TsvTableWriter

/-! ## One call -/

/-- The requests of the server. -/
def InfileRequest (bufLen : UInt32) : Prop := 1 ≤ bufLen.toNat ∧ bufLen.toNat < 2 ^ 31

def replyWith (bytes : List UInt8) : InfilePiece := (bytes.length, bytes)

theorem intOfInt64_of_lt {n : Nat} (h : n < 2 ^ 31) : intOfInt64 n = n := by
  unfold intOfInt64
  rw [Int.bmod_def]
  omega

theorem load_take (m : Mem) (a n k : Nat) : (load m a n).take k = load m a (min k n) := by
  apply List.ext_getElem?
  intro i
  rw [List.getElem?_take, load_getElem?, load_getElem?]
  split
  · split
    · rw [if_pos (by omega)]
    · rw [if_neg (by omega)]
  · rw [if_neg (by omega)]

theorem load_drop (m : Mem) (a n k : Nat) : (load m a n).drop k = load m (a + k) (n - k) := by
  apply List.ext_getElem?
  intro i
  rw [List.getElem?_drop, load_getElem?, load_getElem?]
  split
  · rw [if_pos (by omega), Nat.add_assoc]
  · rw [if_neg (by omega)]

/-- The bytes from `m_current_pos` to `m_size` are left. -/
def AvroBuffer.Left (m : Mem) (size : Nat) (sourceBuf : AvroBuffer) (rest : List UInt8) : Prop :=
  ∃ pos ≤ size, sourceBuf = ⟨m, size, pos⟩ ∧ rest = load m pos (size - pos)

structure StringStream.Left (ss : StringStream) (rest : List UInt8) : Prop where
  text : rest = ss.content.drop ss.position
  flags : ss.eofbit = ss.failbit ∧ ss.badbit = false
  ended : ss.eofbit = true → rest = []

section Avro

variable {m : Mem} {size pos : Nat} {bufLen : UInt32}

/-- The buffer returns as many bytes as are asked for, or all that are left. -/
theorem avro_read (hpos : pos ≤ size) (hlen : InfileRequest bufLen) :
    AvroTableWriter.ssLocalInfileRead bufLen ⟨m, size, pos⟩ =
      (replyWith (load m pos (min bufLen.toNat (size - pos))),
        ⟨m, size, (pos + min bufLen.toNat (size - pos) : Nat)⟩) := by
  obtain ⟨_, hmax⟩ := hlen
  have hmin : (if (bufLen.toNat : Int) ≤ (size : Int) - pos then (bufLen.toNat : Int)
      else (size : Int) - pos) = (min bufLen.toNat (size - pos) : Nat) := by
    split <;> omega
  have hlt : min bufLen.toNat (size - pos) < 2 ^ 31 := by omega
  have hcount : (((min bufLen.toNat (size - pos) : Nat) : Int) % 2 ^ 64).toNat =
      min bufLen.toNat (size - pos) := by omega
  simp only [AvroTableWriter.ssLocalInfileRead, hmin, intOfInt64_of_lt hlt, hcount, replyWith,
    length_load, Int.toNat_natCast, Int.natCast_add]

/-- **The buffer** cuts its bytes as they are asked for. -/
theorem avro_serves (m : Mem) (size : Nat) :
    Pieces.Serves AvroTableWriter.ssLocalInfileRead UInt32.toNat InfileRequest replyWith
      (AvroBuffer.Left m size) := by
  constructor
  · rintro bufLen _ _ hlen ⟨pos, hpos, rfl, rfl⟩
    rw [avro_read hpos hlen, load_take]
  · rintro bufLen _ _ hlen ⟨pos, hpos, rfl, rfl⟩
    rw [avro_read hpos hlen, load_drop]
    rcases Nat.le_total bufLen.toNat (size - pos) with hle | hle
    · refine ⟨pos + bufLen.toNat, by omega, by rw [Nat.min_eq_left hle], ?_⟩
      rw [Nat.sub_sub]
    · refine ⟨size, Nat.le_refl _, ?_, ?_⟩
      · rw [Nat.min_eq_right hle, Nat.add_sub_cancel' hpos]
      · rw [Nat.sub_eq_zero_of_le hle, Nat.sub_self]
        rfl

end Avro

/-- What a stream returns, and that `badbit` is never set. -/
theorem StringStream.Left.read {ss : StringStream} {rest : List UInt8} (h : ss.Left rest) (n : Nat) :
    (ss.read n).1 = rest.take n ∧ (ss.read n).2.gcount = (rest.take n).length ∧
      (ss.read n).2.Left (rest.drop n) := by
  obtain ⟨rfl, ⟨hflags, hbad⟩, hended⟩ := h
  cases heof : ss.eofbit with
  | false =>
    have hgood : ss.good = true := by simp [StringStream.good, ← hflags, heof, hbad]
    rw [StringStream.read, if_pos hgood]
    refine ⟨rfl, rfl, ?_, ?_, ?_⟩
    · dsimp only
      rw [List.drop_drop, List.length_take]
      rcases Nat.le_total n (ss.content.drop ss.position).length with hle | hle
      · rw [Nat.min_eq_left hle]
      · rw [Nat.min_eq_right hle]
        rw [List.length_drop] at hle ⊢
        rw [List.drop_eq_nil_of_le (by omega), List.drop_eq_nil_of_le (by omega)]
    · dsimp only
      rw [hflags]
      exact ⟨rfl, hbad⟩
    · intro hshort
      -- a short read took all that was left
      have hlt : ((ss.content.drop ss.position).take n).length < n := by
        simpa [heof] using hshort
      rw [List.length_take] at hlt
      exact List.drop_eq_nil_of_le (by omega)
  | true =>
    have hgood : ¬ ss.good = true := by simp [StringStream.good, heof]
    rw [StringStream.read, if_neg hgood, hended heof]
    refine ⟨by simp, by simp, by rw [List.drop_nil]; exact (hended heof).symm, ?_,
      fun _ => List.drop_nil⟩
    exact ⟨heof, hbad⟩

/-- **The stream** cuts its text as it is asked for. -/
theorem tsv_serves :
    Pieces.Serves TsvTableWriter.ssLocalInfileRead UInt32.toNat InfileRequest replyWith
      StringStream.Left := by
  constructor
  · intro bufLen ss rest hlen h
    obtain ⟨hchars, hcount, hleft⟩ := h.read bufLen.toNat
    have hlt : (rest.take bufLen.toNat).length < 2 ^ 31 := by
      have := hlen.2
      rw [List.length_take]
      omega
    have hcall : (TsvTableWriter.ssLocalInfileRead bufLen ss).1 =
        (if (ss.read bufLen.toNat).2.badbit then -1
          else intOfInt64 (ss.read bufLen.toNat).2.gcount, (ss.read bufLen.toNat).1) := rfl
    rw [hcall, hleft.flags.2, hchars, hcount, intOfInt64_of_lt hlt]
    rfl
  · intro bufLen ss rest hlen h
    exact (h.read bufLen.toNat).2.2

/-! ## All calls of LOAD DATA -/

section Streaming

variable (ptr : Mem) (size : Int) (requests : Nat → UInt32)

/-- The buffer before call `i` of a LOAD DATA statement. -/
def avroBuffer (i : Nat) : AvroBuffer :=
  Pieces.state AvroTableWriter.ssLocalInfileRead requests ⟨ptr, size, 0⟩ i

def avroPiece (i : Nat) : InfilePiece :=
  Pieces.answer AvroTableWriter.ssLocalInfileRead requests ⟨ptr, size, 0⟩ i

def tsvPiece (content : List UInt8) (requests : Nat → UInt32) (i : Nat) : InfilePiece :=
  Pieces.answer TsvTableWriter.ssLocalInfileRead requests (.ofContent content) i

def streamed (pieces : Nat → InfilePiece) (n : Nat) : List UInt8 :=
  ((List.range n).map fun i => (pieces i).2).flatten

end Streaming

theorem streamed_eq_taken {pieces : Nat → InfilePiece} {lens : Nat → Nat} {source : List UInt8}
    (h : ∀ i, pieces i = replyWith (Pieces.piece lens source i)) (n : Nat) :
    streamed pieces n = Pieces.taken lens source n := by
  have hbytes : (fun i => (pieces i).2) = Pieces.piece lens source := by
    funext i
    rw [h i]
    rfl
  rw [streamed, hbytes]
  rfl

/-- **The callbacks stream the source**: the answers are parts of it in order, all
of it after finitely many calls, none is empty before, and the stream gives the
same answers as the buffer. -/
theorem infile_streams_source (ptr : Mem) (size : Int) (hsize : 0 ≤ size)
    (requests : Nat → UInt32) (hrequests : ∀ i, InfileRequest (requests i)) :
    let source := load ptr 0 size.toNat
    let piece := avroPiece ptr size requests
    (∀ n, streamed piece n <+: source) ∧
    (∃ n, ∀ k, n ≤ k → streamed piece k = source) ∧
    (∀ i, ((piece i).2.length : Int) = (piece i).1 ∧ 0 ≤ (piece i).1 ∧
      (piece i).1 ≤ (requests i).toNat ∧ ((piece i).1 = 0 ↔ streamed piece i = source)) ∧
    (∀ i, 0 ≤ (avroBuffer ptr size requests i).currentPos ∧
      (avroBuffer ptr size requests i).currentPos ≤ (avroBuffer ptr size requests i).size ∧
      (avroBuffer ptr size requests i).size = size) ∧
    (∀ i, tsvPiece source requests i = piece i ∧ (tsvPiece source requests i).1 ≠ -1) := by
  intro source piece
  obtain ⟨total, rfl⟩ := Int.eq_ofNat_of_zero_le hsize
  have hstart : AvroBuffer.Left ptr total ⟨ptr, total, 0⟩ source := ⟨0, Nat.zero_le _, rfl, rfl⟩
  have htext : (StringStream.ofContent source).Left source :=
    ⟨rfl, ⟨rfl, rfl⟩, fun heof => nomatch heof⟩
  have hpiece : ∀ i, piece i = replyWith (Pieces.piece (fun i => (requests i).toNat) source i) :=
    (avro_serves ptr total).answer_eq hrequests hstart
  have htsv : ∀ i, tsvPiece source requests i =
      replyWith (Pieces.piece (fun i => (requests i).toNat) source i) :=
    tsv_serves.answer_eq hrequests htext
  have hlens : ∀ i, 1 ≤ (requests i).toNat := fun i => (hrequests i).1
  refine ⟨?_, ⟨source.length, ?_⟩, ?_, ?_, ?_⟩
  · intro n
    rw [streamed_eq_taken hpiece]
    exact ⟨_, Pieces.taken_append_rest _ source n⟩
  · intro k hk
    rw [streamed_eq_taken hpiece]
    exact Pieces.taken_eq_iff.mpr (Pieces.rest_eq_nil hlens hk)
  · intro i
    have hlength : (Pieces.piece (fun i => (requests i).toNat) source i).length ≤
        (requests i).toNat := List.length_take_le _ _
    rw [streamed_eq_taken hpiece, hpiece i, Pieces.taken_eq_iff, ← Pieces.piece_eq_nil_iff (hlens i)]
    refine ⟨rfl, Int.natCast_nonneg _, Int.ofNat_le.mpr hlength, ?_⟩
    show ((Pieces.piece _ source i).length : Int) = 0 ↔ _
    rw [Int.natCast_eq_zero, List.length_eq_zero_iff]
  · intro i
    obtain ⟨pos, hpos, hbuffer, _⟩ := (avro_serves ptr total).state_left hrequests hstart i
    have hstate : avroBuffer ptr total requests i = ⟨ptr, total, pos⟩ := hbuffer
    rw [hstate]
    exact ⟨Int.natCast_nonneg _, Int.ofNat_le.mpr hpos, rfl⟩
  · intro i
    rw [htsv i, hpiece i]
    refine ⟨rfl, ?_⟩
    have hnonneg : (0 : Int) ≤ (replyWith (Pieces.piece (fun i => (requests i).toNat) source i)).1 :=
      Int.natCast_nonneg _
    omega

theorem infile_streams_source_twoAndOne :
    (0 : Int) ≤ 3 ∧ InfileRequest 2 ∧
      ∃ n, ∀ k, n ≤ k → streamed (avroPiece (fun a => UInt8.ofNat a) 3 fun _ => 2) k = [0, 1, 2] :=
  ⟨by decide, ⟨by decide, by decide⟩, (infile_streams_source (fun a => UInt8.ofNat a) 3 (by decide)
    (fun _ => 2) fun _ => ⟨by decide, by decide⟩).2.1⟩

end SasLibclient
