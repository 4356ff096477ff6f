import SasLibclient.Hdat.RowsConsumed

/-!
# The C functions of the writer (`hdat/chunk_writer.cpp`, `hdat_write_extern.h`)

Each function writes one field when there is enough space for it, and says
whether it did. `WriteVariable` keeps the space that it needs in an `int`, so
that the check is about another number once `len + 16` does not fit into 31
bits. `calls_respect_iff` says for which calls the check is right all the same.
-/

namespace SasLibclient

open Bytes

/-- `WriteFloatNumeric`, on the bits of the `double`. -/
def SuperChunkWriter.writeFloatNumeric (val : UInt64) : SuperChunkWriter → SuperChunkWriter :=
  onChunk fun s => s.write8Typed val

namespace WriterCalls

/-- What the functions have in common. -/
def whenEnough (requested : UInt64) (write : SuperChunkWriter → SuperChunkWriter)
    (writer : SuperChunkWriter) : Bool × SuperChunkWriter :=
  if !writer.hasEnoughSpace requested then
    (false, writer)
  else
    (true, write writer)

def writeInt64 (val : UInt64) : SuperChunkWriter → Bool × SuperChunkWriter :=
  whenEnough defaultAlignmentSize fun writer => writer.writeInt64Numeric val

/-- `val` is an `int64_t`. -/
def writeInt32 (val : UInt64) : SuperChunkWriter → Bool × SuperChunkWriter :=
  whenEnough defaultAlignmentSize fun writer => writer.writeInt32Numeric val.toUInt32

def writeDouble (val : UInt64) : SuperChunkWriter → Bool × SuperChunkWriter :=
  whenEnough defaultAlignmentSize fun writer => writer.writeFloatNumeric val

/-- The sizes are `int64_t`. -/
def writeFixed (val : List UInt8) (dataSize fieldSize : Int) (padWithZero : Bool) :
    SuperChunkWriter → Bool × SuperChunkWriter :=
  whenEnough (sizeofAligned8 (UInt64.ofInt fieldSize)) fun writer =>
    writer.writeFixed val (UInt64.ofInt dataSize) (UInt64.ofInt fieldSize) padWithZero

/-- `space_needed` is an `int`, which the parameter of `HasEnoughSpace` makes a
`uint64_t` again. -/
def spaceNeeded (len : UInt64) : UInt64 :=
  UInt64.ofInt (((len + 2 * defaultAlignmentSize).toNat : Int).bmod (2 ^ 32))

def writeVariable (val : List UInt8) (len : UInt64) : SuperChunkWriter → Bool × SuperChunkWriter :=
  whenEnough (spaceNeeded len) fun writer => writer.writeVariable val len

end WriterCalls

/-- A call of one of the functions. -/
inductive WriterCall where
  | writeInt64 (val : UInt64)
  | writeInt32 (val : UInt64)
  | writeDouble (val : UInt64)
  | writeFixed (val : List UInt8) (dataSize fieldSize : Int) (padWithZero : Bool)
  | writeVariable (val : List UInt8) (len : UInt64)
  | writeRowEnd

namespace WriterCall

/-- What the call returns, and the writer after it; `WriteRowEnd` returns
nothing. -/
def run : WriterCall → SuperChunkWriter → Bool × SuperChunkWriter
  | .writeInt64 val, w => WriterCalls.writeInt64 val w
  | .writeInt32 val, w => WriterCalls.writeInt32 val w
  | .writeDouble val, w => WriterCalls.writeDouble val w
  | .writeFixed val dataSize fieldSize padWithZero, w =>
    WriterCalls.writeFixed val dataSize fieldSize padWithZero w
  | .writeVariable val len, w => WriterCalls.writeVariable val len w
  | .writeRowEnd, w => (true, w.writeRowEnd)

/-- The arguments of `WriteFixed`: the data is no longer than the field. -/
def Valid : WriterCall → Prop
  | .writeFixed _ dataSize fieldSize _ => 0 ≤ dataSize ∧ dataSize ≤ fieldSize ∧ fieldSize < 2 ^ 63
  | _ => True

/-- The bytes that the call needs. -/
def needed : WriterCall → Nat
  | .writeInt64 _ => 8
  | .writeInt32 _ => 8
  | .writeDouble _ => 8
  | .writeFixed _ _ fieldSize _ => (fieldSize.toNat + 7) / 8 * 8
  | .writeVariable _ len => len.toNat + 16
  | .writeRowEnd => 0

end WriterCall

/-- `m_size - offset - variable_offset` -/
def SuperChunkWriter.free (w : SuperChunkWriter) : Int :=
  w.currentChunk.chunk.size.toNat - w.currentChunk.offset.toNat -
    w.currentChunk.chunk.variableOffset.toNat

/-- Only bytes between the two sections are written. -/
def SuperChunkWriter.WritesFree (w w' : SuperChunkWriter) : Prop :=
  SameOutside w.currentChunk.offset.toNat
    (w.currentChunk.chunk.size.toNat - w.currentChunk.chunk.variableOffset.toNat)
    w.currentChunk.chunk.ptr w'.currentChunk.chunk.ptr

/-- The call returns `true` exactly when its bytes fit, a call that returns
`false` changes nothing, the sections do not meet, and neither a byte outside the
chunk nor one of an earlier field is written. -/
structure Respects (call : WriterCall) (w : SuperChunkWriter) : Prop where
  returned : (call.run w).1 = true ↔ (call.needed : Int) ≤ w.free
  unchanged : (call.run w).1 = false → (call.run w).2 = w
  fits : (call.run w).2.currentChunk.used ≤ (call.run w).2.currentChunk.chunk.size.toNat
  written : w.WritesFree (call.run w).2

/-- Whether the check of `WriteVariable` decides as `len + 16` would: it does
below 31 bits. Beyond, the low 32 bits of `len + 16` count when they are below
31 bits, and nothing fits when they are not. -/
def CheckSuffices (len : UInt64) (free : Int) : Prop :=
  len.toNat + 16 < 2 ^ 31 ∨
    if (len.toNat + 16) % 2 ^ 32 < 2 ^ 31 then
      free < ((len.toNat + 16) % 2 ^ 32 : Nat) ∨ (len.toNat + 16 : Int) ≤ free
    else
      free < len.toNat + 16

/-- The condition on a call and the state before it. -/
def WriterCall.Suffices : WriterCall → SuperChunkWriter → Prop
  | .writeVariable _ len, w => CheckSuffices len w.free
  | _, _ => True

/-- A property of every call of a sequence, in the state it starts from. -/
def EveryCall (P : WriterCall → SuperChunkWriter → Prop) :
    List WriterCall → SuperChunkWriter → Prop
  | [], _ => True
  | call :: calls, w => P call w ∧ EveryCall P calls (call.run w).2

/-! ## The numbers -/

open SuperChunkWriter

variable {w w' : SuperChunkWriter}

theorem SuperChunkWriter.Sound.free_eq (h : Sound w) :
    w.free = (w.chunkSize.toNat : Int) - w.currentChunk.used := by
  rw [h.chunkSize, SuperChunkWriter.free, SuperChunk.used]
  push_cast
  omega

theorem toNat_spaceNeeded (len : UInt64) :
    (WriterCalls.spaceNeeded len).toNat =
      if (len.toNat + 16) % 2 ^ 32 < 2 ^ 31 then
        (len.toNat + 16) % 2 ^ 32
      else
        2 ^ 64 - 2 ^ 32 + (len.toNat + 16) % 2 ^ 32 := by
  have hsixteen : (2 * defaultAlignmentSize).toNat = 16 := rfl
  rw [WriterCalls.spaceNeeded, UInt64.toNat_add, hsixteen, UInt64.ofInt, UInt64.toNat_ofNat',
    Int.bmod]
  split <;> split <;> omega

/-- **The check of `WriteVariable`**, in a chunk of less than 63 bits. -/
theorem checkSuffices_iff (h : Sound w) (hsize : w.chunkSize.toNat < 2 ^ 63) (len : UInt64) :
    CheckSuffices len w.free ↔
      (w.currentChunk.used + (WriterCalls.spaceNeeded len).toNat ≤ w.chunkSize.toNat ↔
        w.currentChunk.used + (len.toNat + 16) ≤ w.chunkSize.toNat) := by
  have hfits := h.fits
  rw [CheckSuffices, h.free_eq, toNat_spaceNeeded]
  split
  · omega
  · omega

/-! ## What is written -/

theorem sameOutside_writeTyped (n val : Nat) (s : SuperChunk) :
    SameOutside s.offset.toNat (s.offset.toNat + n) s.chunk.ptr (s.writeTyped n val).chunk.ptr := by
  have h := sameOutside_store s.chunk.ptr s.offset.toNat (toLE n val)
  rw [length_toLE] at h
  exact h

theorem sameOutside_writeAt (offset : UInt64) (src : List UInt8) (s : SuperChunk) :
    SameOutside offset.toNat (offset.toNat + src.length) s.chunk.ptr
      (s.writeAt offset src).chunk.ptr := by
  rw [SuperChunk.writeAt_ptr]
  exact sameOutside_store s.chunk.ptr offset.toNat src

theorem sameOutside_pad (len : UInt64) (c : UInt8) (s : SuperChunk) :
    SameOutside s.offset.toNat (s.offset.toNat + len.toNat) s.chunk.ptr
      (s.pad len (some c)).chunk.ptr := by
  have h := sameOutside_store s.chunk.ptr s.offset.toNat (List.replicate len.toNat c)
  rw [List.length_replicate] at h
  exact h

section Room

variable (hs : Sound w)
include hs

theorem writesFree_typed {n : Nat} (val : Nat) (f : SuperChunk → SuperChunk)
    (hf : (f w.currentChunk).chunk.ptr = (w.currentChunk.writeTyped n val).chunk.ptr)
    (hroom : w.currentChunk.used + n ≤ w.chunkSize.toNat) : w.WritesFree (w.onChunk f) := by
  have h := sameOutside_writeTyped n val w.currentChunk
  rw [← hf] at h
  rw [hs.chunkSize, SuperChunk.used] at hroom
  exact h.widen (Nat.le_refl _) (by omega)

theorem writesFree_writeFixed (val : List UInt8) {dataSize fieldSize : UInt64} (padWithZero : Bool)
    (hle : dataSize ≤ sizeofAligned8 fieldSize)
    (hroom : w.currentChunk.used + (sizeofAligned8 fieldSize).toNat ≤ w.chunkSize.toNat) :
    w.WritesFree (w.writeFixed val dataSize fieldSize padWithZero) := by
  have hlt := w.currentChunk.chunk.size.toNat_lt
  have hdata := UInt64.le_iff_toNat_le.mp hle
  rw [hs.chunkSize, SuperChunk.used] at hroom
  have hwrite := sameOutside_writeAt w.currentChunk.offset (bytesAt val dataSize.toNat)
    w.currentChunk
  rw [length_bytesAt] at hwrite
  have hoffset : (w.currentChunk.write (bytesAt val dataSize.toNat)).offset.toNat =
      w.currentChunk.offset.toNat + dataSize.toNat := by
    rw [SuperChunk.write_offset, length_bytesAt]
    exact toNat_add_ofNat (k := w.currentChunk.chunk.size.toNat) (by omega) hlt
  have hpad := sameOutside_pad (sizeofAligned8 fieldSize - dataSize)
    (if padWithZero then 0 else 32) (w.currentChunk.write (bytesAt val dataSize.toNat))
  rw [hoffset, UInt64.toNat_sub_of_le _ _ hle] at hpad
  exact (hwrite.widen (Nat.le_refl _) (by omega)).trans (hpad.widen (by omega) (by omega))

theorem writesFree_writeVariable (val : List UInt8) (len : UInt64)
    (hroom : w.currentChunk.used + (len.toNat + 16) ≤ w.chunkSize.toNat) :
    w.WritesFree (w.writeVariable val len) := by
  have hlt := w.currentChunk.chunk.size.toNat_lt
  rw [hs.chunkSize, SuperChunk.used] at hroom
  let s₁ := w.currentChunk.incrVariableOffset len
  let s₂ := s₁.write8Typed s₁.chunk.variableOffset
  let s₃ := s₂.write8Typed len
  have hstart : s₁.offset.toNat = w.currentChunk.offset.toNat := rfl
  have hoffset : s₂.offset.toNat = w.currentChunk.offset.toNat + 8 :=
    toNat_add_ofNat (k := w.currentChunk.chunk.size.toNat) (by omega) hlt
  have hvariable : s₃.chunk.variableOffset.toNat =
      w.currentChunk.chunk.variableOffset.toNat + len.toNat := by
    have h := toNat_add_ofNat (a := w.currentChunk.chunk.variableOffset) (n := len.toNat)
      (k := w.currentChunk.chunk.size.toNat) (by omega) hlt
    rw [UInt64.ofNat_toNat] at h
    exact h
  have hplace : (w.chunkSize - s₃.chunk.variableOffset).toNat = w.currentChunk.chunk.size.toNat -
      (w.currentChunk.chunk.variableOffset.toNat + len.toNat) := by
    rw [UInt64.toNat_sub_of_le, hs.chunkSize, hvariable]
    rw [UInt64.le_iff_toNat_le, hs.chunkSize, hvariable]
    omega
  have hfirst := sameOutside_writeTyped 8 s₁.chunk.variableOffset.toNat s₁
  have hsecond := sameOutside_writeTyped 8 len.toNat s₂
  have hpayload := sameOutside_writeAt (w.chunkSize - s₃.chunk.variableOffset)
    (bytesAt val len.toNat) s₃
  rw [hstart] at hfirst
  rw [hoffset] at hsecond
  rw [hplace, length_bytesAt] at hpayload
  exact ((hfirst.widen (Nat.le_refl _) (by omega)).trans
    (hsecond.widen (by omega) (by omega))).trans (hpayload.widen (by omega) (by omega))

end Room

/-! ## The calls -/

/-- The first half of every function is the check, the second half a write that
grows the chunk by what the call needs. -/
theorem respects_iff_of_whenEnough {call : WriterCall} {requested : UInt64}
    {write : SuperChunkWriter → SuperChunkWriter} (fixed var : Nat) (hs : Sound w)
    (hrun : call.run w = WriterCalls.whenEnough requested write w)
    (hneeded : fixed + var = call.needed)
    (hgrows : w.currentChunk.used + call.needed ≤ w.chunkSize.toNat → Grows w (write w) fixed var)
    (hfree : w.currentChunk.used + call.needed ≤ w.chunkSize.toNat → w.WritesFree (write w)) :
    Respects call w ↔ (w.currentChunk.used + requested.toNat ≤ w.chunkSize.toNat ↔
      w.currentChunk.used + call.needed ≤ w.chunkSize.toNat) := by
  have hcheck := hs.hasEnoughSpace_iff requested
  have hroom : (call.needed : Int) ≤ w.free ↔
      w.currentChunk.used + call.needed ≤ w.chunkSize.toNat := by
    rw [hs.free_eq]
    omega
  have hfits := hs.fits
  constructor
  · intro h
    rw [← hcheck, ← hroom, ← h.returned, hrun, WriterCalls.whenEnough]
    cases w.hasEnoughSpace requested <;> simp
  · intro hiff
    rw [← hcheck] at hiff
    cases henough : w.hasEnoughSpace requested with
    | false =>
      have hresult : call.run w = (false, w) := by
        rw [hrun, WriterCalls.whenEnough, henough]
        rfl
      rw [henough] at hiff
      constructor
      · rw [hresult, hroom, ← hiff]
      · intro _
        rw [hresult]
      · rw [hresult, ← hs.chunkSize]
        exact hfits
      · rw [hresult]
        exact SameOutside.refl _ _ _
    | true =>
      have hresult : call.run w = (true, write w) := by
        rw [hrun, WriterCalls.whenEnough, henough]
        rfl
      have henoughNeeded := hiff.mp henough
      have hsound := ((hgrows henoughNeeded).toNat hs (by rw [hneeded]; exact henoughNeeded)).1
      constructor
      · rw [hresult, hroom]
        exact ⟨fun _ => henoughNeeded, fun _ => rfl⟩
      · intro hfalse
        rw [hresult] at hfalse
        cases hfalse
      · rw [hresult, ← hsound.chunkSize]
        exact hsound.fits
      · rw [hresult]
        exact hfree henoughNeeded

theorem respects_of_whenEnough {call : WriterCall} {requested : UInt64}
    {write : SuperChunkWriter → SuperChunkWriter} (fixed var : Nat) (hs : Sound w)
    (hrun : call.run w = WriterCalls.whenEnough requested write w)
    (hneeded : fixed + var = call.needed) (hrequested : requested.toNat = call.needed)
    (hgrows : w.currentChunk.used + call.needed ≤ w.chunkSize.toNat → Grows w (write w) fixed var)
    (hfree : w.currentChunk.used + call.needed ≤ w.chunkSize.toNat → w.WritesFree (write w)) :
    Respects call w := by
  rw [respects_iff_of_whenEnough fixed var hs hrun hneeded hgrows hfree, hrequested]

/-- **One call**, from every sound writer. -/
theorem respects_iff {call : WriterCall} (hs : Sound w) (hsize : w.chunkSize.toNat < 2 ^ 63)
    (hvalid : call.Valid) : Respects call w ↔ call.Suffices w := by
  cases call with
  | writeInt64 val =>
    refine iff_of_true ?_ trivial
    exact respects_of_whenEnough 8 0 hs rfl rfl rfl
      (fun _ => grows_write8Typed w val) (writesFree_typed hs val.toNat _ rfl)
  | writeInt32 val =>
    refine iff_of_true ?_ trivial
    refine respects_of_whenEnough 8 0 hs rfl rfl rfl
      (fun _ => grows_write4Typed w val.toUInt32) ?_
    intro hroom
    exact writesFree_typed (n := 4) hs val.toUInt32.toNat _ rfl
      (Nat.le_trans (by simp [WriterCall.needed]) hroom)
  | writeDouble val =>
    refine iff_of_true ?_ trivial
    exact respects_of_whenEnough 8 0 hs rfl rfl rfl
      (fun _ => grows_write8Typed w val) (writesFree_typed hs val.toNat _ rfl)
  | writeFixed val dataSize fieldSize padWithZero =>
    obtain ⟨h0, hle, hlt⟩ := hvalid
    have haligned := toNat_sizeofAligned8_size (Int.le_trans h0 hle) hlt
    have hsmaller := ofInt_le_sizeofAligned8 h0 hle hlt
    refine iff_of_true ?_ trivial
    refine respects_of_whenEnough _ 0 hs rfl haligned haligned
      (fun _ => grows_writeFixed w val padWithZero hsmaller) ?_
    intro hroom
    apply writesFree_writeFixed hs val padWithZero hsmaller
    rw [haligned]
    exact hroom
  | writeVariable val len =>
    have hcheck := checkSuffices_iff hs hsize len
    have hrun : (WriterCall.writeVariable val len).run w = WriterCalls.whenEnough
        (WriterCalls.spaceNeeded len) (fun writer => writer.writeVariable val len) w := rfl
    refine Iff.trans ?_ hcheck.symm
    exact respects_iff_of_whenEnough 16 len.toNat hs hrun
      (Nat.add_comm 16 len.toNat) (fun _ => grows_writeVariable w val len)
      (writesFree_writeVariable hs val len)
  | writeRowEnd =>
    refine iff_of_true ?_ trivial
    have hfits := hs.fits
    constructor
    · refine iff_of_true rfl ?_
      rw [hs.free_eq]
      simp only [WriterCall.needed]
      omega
    · intro hfalse
      cases hfalse
    · rw [hs.chunkSize] at hfits
      exact hfits
    · exact SameOutside.refl _ _ _

/-- The size of the chunk is the same. -/
structure SameSize (w w' : SuperChunkWriter) : Prop where
  chunkSize : w'.chunkSize = w.chunkSize
  size : w'.currentChunk.chunk.size = w.currentChunk.chunk.size

theorem sameSize_whenEnough {requested : UInt64} {write : SuperChunkWriter → SuperChunkWriter}
    (h : SameSize w (write w)) : SameSize w (WriterCalls.whenEnough requested write w).2 := by
  unfold WriterCalls.whenEnough
  split
  · exact ⟨rfl, rfl⟩
  · exact h

theorem SuperChunkWriter.Grows.sameSize {fixed var : Nat} (h : Grows w w' fixed var) :
    SameSize w w' :=
  ⟨h.chunkSize, congrArg Prod.fst h.chunk.header⟩

theorem sameSize_run (call : WriterCall) (w : SuperChunkWriter) : SameSize w (call.run w).2 := by
  cases call with
  | writeInt64 val => exact sameSize_whenEnough ⟨rfl, rfl⟩
  | writeInt32 val => exact sameSize_whenEnough ⟨rfl, rfl⟩
  | writeDouble val => exact sameSize_whenEnough ⟨rfl, rfl⟩
  | writeFixed val dataSize fieldSize padWithZero =>
    exact sameSize_whenEnough ⟨rfl, SuperChunk.writeAt_size _ _ _⟩
  | writeVariable val len =>
    have hrun : (WriterCall.writeVariable val len).run w = WriterCalls.whenEnough
        (WriterCalls.spaceNeeded len) (fun writer => writer.writeVariable val len) w := rfl
    rw [hrun]
    exact sameSize_whenEnough (grows_writeVariable w val len).sameSize
  | writeRowEnd => exact ⟨rfl, rfl⟩

theorem Respects.sound {call : WriterCall} (h : Respects call w) (hs : Sound w) :
    Sound (call.run w).2 := by
  have hsize := sameSize_run call w
  have hsame : (call.run w).2.chunkSize = (call.run w).2.currentChunk.chunk.size := by
    rw [hsize.chunkSize, hsize.size, hs.chunkSize]
  exact ⟨hsame, by rw [hsame]; exact h.fits⟩

/-- **All calls of a sequence.** -/
theorem everyCall_respects_iff {calls : List WriterCall} (hs : Sound w)
    (hsize : w.chunkSize.toNat < 2 ^ 63) (hvalid : ∀ call ∈ calls, call.Valid) :
    EveryCall Respects calls w ↔ EveryCall WriterCall.Suffices calls w := by
  induction calls generalizing w with
  | nil => exact Iff.rfl
  | cons call calls ih =>
    obtain ⟨hcall, hrest⟩ := List.forall_mem_cons.mp hvalid
    have hiff := respects_iff hs hsize hcall
    have hnext : Respects call w →
        (EveryCall Respects calls (call.run w).2 ↔
          EveryCall WriterCall.Suffices calls (call.run w).2) := by
      intro h
      exact ih (h.sound hs) (by rw [(sameSize_run call w).chunkSize]; exact hsize) hrest
    constructor
    · rintro ⟨h, hcalls⟩
      exact ⟨hiff.mp h, (hnext h).mp hcalls⟩
    · rintro ⟨h, hcalls⟩
      exact ⟨hiff.mpr h, (hnext (hiff.mpr h)).mpr hcalls⟩

/-- **The space check**, for every sequence of calls on a fresh chunk. -/
theorem calls_respect_iff (ptr : Mem) (size id : UInt64) (partition : UInt32) (schema : RowSchema)
    (hsize : size.toNat < 2 ^ 63) (calls : List WriterCall) (hvalid : ∀ call ∈ calls, call.Valid) :
    EveryCall Respects calls (SuperChunkWriter.reset (newChunk ptr size id partition) schema) ↔
      EveryCall WriterCall.Suffices calls
        (SuperChunkWriter.reset (newChunk ptr size id partition) schema) :=
  everyCall_respects_iff (Sound.reset (Nat.zero_le _) schema) hsize hvalid

/-- A text of `2 ^ 32 - 16` bytes passes the check of every chunk. -/
theorem writeVariable_overflows :
    ¬ EveryCall Respects [.writeVariable [] 4294967280]
      (SuperChunkWriter.reset (newChunk (fun _ => 0) 16 0 0) ⟨[⟨.variable, 0, "text"⟩], by decide⟩) := by
  rintro ⟨h, -⟩
  have hs : Sound (SuperChunkWriter.reset (newChunk (fun _ => 0) 16 0 0)
      ⟨[⟨.variable, 0, "text"⟩], by decide⟩) := Sound.reset (Nat.zero_le _) _
  have hneeded : (WriterCalls.spaceNeeded 4294967280).toNat = 0 := toNat_spaceNeeded 4294967280
  have henough := (hs.hasEnoughSpace_iff (WriterCalls.spaceNeeded 4294967280)).mpr (by
    rw [hneeded]
    decide)
  have htrue := h.returned.mp (by
    simp only [WriterCall.run, WriterCalls.writeVariable, WriterCalls.whenEnough, henough,
      Bool.not_true, Bool.false_eq_true, if_false])
  exact absurd htrue (by decide)

/-- A number, a text, the end of the row, and a text that does not fit. -/
theorem calls_respect_iff_numberAndText :
    EveryCall Respects
      [.writeInt64 7, .writeVariable [104, 105] 2, .writeRowEnd, .writeVariable [] 2147483631]
      (SuperChunkWriter.reset (newChunk (fun _ => 0) 64 0 0)
        ⟨[⟨.int64, 8, "id"⟩, ⟨.variable, 0, "text"⟩], by decide⟩) := by
  refine (calls_respect_iff (fun _ => 0) 64 0 0 _ (by decide) _ ?_).mpr ⟨trivial, ?_, trivial, ?_, trivial⟩
  · simp [WriterCall.Valid]
  · exact Or.inl (by decide)
  · exact Or.inl (by decide)

end SasLibclient
