import SasLibclient.Hdat.ChunkWriter

/-!
# The layout of a chunk

The fields of the fixed-length section lie behind each other from the first
byte on; the payload of a variable field is found by its distance from the end
of the chunk. `Layout` says that a chunk holds a list of fields, and each
`Write` operation adds one field to it: what it stores is below the old payloads
and above the old fields, so that these keep their bytes.
-/

namespace SasLibclient

open Bytes

/-- The value of a field. -/
inductive Field where
  | int64 (val : UInt64)
  | int32 (val : UInt32)
  | double (bits : UInt64)
  | fixed (bytes : List UInt8)
  | «variable» (bytes : List UInt8)
  deriving DecidableEq, Repr

/-- The length of a field in the fixed-length section. -/
def Field.width : Field → Nat
  | .fixed bytes => (bytes.length + 7) / 8 * 8
  | .variable _ => 16
  | _ => 8

/-- The field lies at offset `o` of a chunk of `size` bytes, its payload among
the last `var` bytes. -/
def FieldAt (m : Mem) (size var o : Nat) : Field → Prop
  | .int64 val => ofLE (load m o 8) = val.toNat
  | .int32 val => ofLE (load m o 4) = val.toNat
  | .double bits => ofLE (load m o 8) = bits.toNat
  | .fixed bytes => load m o bytes.length = bytes
  | .variable bytes => ∃ pos, pos ≤ var ∧ bytes.length ≤ pos ∧ ofLE (load m o 8) = pos ∧
      ofLE (load m (o + 8) 8) = bytes.length ∧ load m (size - pos) bytes.length = bytes

/-- The fields lie behind each other from offset `o` on. -/
def FieldsAt (m : Mem) (size var : Nat) : Nat → List Field → Prop
  | _, [] => True
  | o, f :: fs => FieldAt m size var o f ∧ FieldsAt m size var (o + f.width) fs

def widths (fs : List Field) : Nat := (fs.map Field.width).sum

variable {m m' : Mem} {size var var' o : Nat} {f : Field} {fs gs : List Field}

@[simp] theorem widths_nil : widths [] = 0 := rfl

@[simp] theorem widths_cons (f : Field) (fs : List Field) :
    widths (f :: fs) = f.width + widths fs := rfl

@[simp] theorem widths_append (fs gs : List Field) : widths (fs ++ gs) = widths fs + widths gs := by
  simp [widths]

/-- A field is kept by a memory with the same bytes at its place and in the
variable-length section. -/
theorem FieldAt.congr (h : FieldAt m size var o f) (hvar : var ≤ var')
    (hfield : ∀ i, o ≤ i → i < o + f.width → m' i = m i)
    (hpayload : ∀ i, size - var ≤ i → i < size → m' i = m i) (hsize : var ≤ size) :
    FieldAt m' size var' o f := by
  cases f with
  | int64 val =>
    show ofLE (load m' o 8) = val.toNat
    rw [load_congr (n := 8) hfield]
    exact h
  | double bits =>
    show ofLE (load m' o 8) = bits.toNat
    rw [load_congr (n := 8) hfield]
    exact h
  | int32 val =>
    show ofLE (load m' o 4) = val.toNat
    rw [load_congr fun i hle hlt => hfield i hle (by simp only [Field.width]; omega)]
    exact h
  | fixed bytes =>
    show load m' o bytes.length = bytes
    rw [load_congr fun i hle hlt => hfield i hle (by simp only [Field.width]; omega)]
    exact h
  | «variable» bytes =>
    obtain ⟨pos, hpos, hlen, hp, hl, hbytes⟩ := h
    have hwidth : (Field.variable bytes).width = 16 := rfl
    refine ⟨pos, by omega, hlen, ?_, ?_, ?_⟩
    · rw [load_congr fun i hle hlt => hfield i hle (by omega)]
      exact hp
    · rw [load_congr fun i hle hlt => hfield i (by omega) (by omega)]
      exact hl
    · rw [load_congr fun i hle hlt => hpayload i (by omega) (by omega)]
      exact hbytes

theorem FieldsAt.congr (h : FieldsAt m size var o fs) (hvar : var ≤ var')
    (hfields : ∀ i, o ≤ i → i < o + widths fs → m' i = m i)
    (hpayload : ∀ i, size - var ≤ i → i < size → m' i = m i) (hsize : var ≤ size) :
    FieldsAt m' size var' o fs := by
  induction fs generalizing o with
  | nil => trivial
  | cons f fs ih =>
    obtain ⟨hf, hfs⟩ := h
    rw [widths_cons] at hfields
    constructor
    · exact hf.congr hvar (fun i hle hlt => hfields i hle (by omega)) hpayload hsize
    · exact ih hfs fun i hle hlt => hfields i (by omega) (by omega)

theorem FieldsAt.append (h : FieldsAt m size var o fs)
    (h' : FieldsAt m size var (o + widths fs) gs) : FieldsAt m size var o (fs ++ gs) := by
  induction fs generalizing o with
  | nil => exact h'
  | cons f fs ih =>
    obtain ⟨hf, hfs⟩ := h
    refine ⟨hf, ih hfs ?_⟩
    rw [widths_cons, ← Nat.add_assoc] at h'
    exact h'

theorem FieldsAt.split (h : FieldsAt m size var o (fs ++ gs)) :
    FieldsAt m size var o fs ∧ FieldsAt m size var (o + widths fs) gs := by
  induction fs generalizing o with
  | nil => exact ⟨trivial, h⟩
  | cons f fs ih =>
    obtain ⟨hf, hrest⟩ := h
    obtain ⟨hfs, hgs⟩ := ih hrest
    rw [widths_cons, ← Nat.add_assoc]
    exact ⟨⟨hf, hfs⟩, hgs⟩

/-! ## The layout during the writes -/

/-- The chunk holds the fields, and its two sections do not overlap. -/
structure Layout (s : SuperChunk) (fs : List Field) : Prop where
  fields : FieldsAt s.chunk.ptr s.chunk.size.toNat s.chunk.variableOffset.toNat 0 fs
  offset : s.offset.toNat = widths fs
  fits : s.offset.toNat + s.chunk.variableOffset.toNat ≤ s.chunk.size.toNat

theorem Layout.extend {s s' : SuperChunk} (h : Layout s fs)
    (hsize : s'.chunk.size = s.chunk.size)
    (hoffset : s'.offset.toNat = s.offset.toNat + f.width)
    (hvar : s.chunk.variableOffset.toNat ≤ s'.chunk.variableOffset.toNat)
    (hfits : s'.offset.toNat + s'.chunk.variableOffset.toNat ≤ s.chunk.size.toNat)
    (hkeep : ∀ i, i < s.offset.toNat ∨
      (s.chunk.size.toNat - s.chunk.variableOffset.toNat ≤ i ∧ i < s.chunk.size.toNat) →
      s'.chunk.ptr i = s.chunk.ptr i)
    (hfield : FieldAt s'.chunk.ptr s.chunk.size.toNat s'.chunk.variableOffset.toNat
      s.offset.toNat f) : Layout s' (fs ++ [f]) where
  fields := by
    have hold := h.offset
    have hfit := h.fits
    rw [hsize]
    refine FieldsAt.append (h.fields.congr hvar ?_ ?_ (by omega)) ?_
    · intro i _ hlt
      exact hkeep i (Or.inl (by omega))
    · intro i hle hlt
      exact hkeep i (Or.inr ⟨hle, hlt⟩)
    · rw [Nat.zero_add, ← hold]
      exact ⟨hfield, trivial⟩
  offset := by
    rw [hoffset, h.offset, widths_append, widths_cons, widths_nil, Nat.add_zero]
  fits := by
    rw [hsize]
    exact hfits

/-! ## The operations of `SuperChunk` -/

theorem store_nil (m : Mem) (a : Nat) : store m a [] = m := by
  funext i
  exact store_outside (by simp only [List.length_nil]; omega)

theorem toNat_add_ofNat {a : UInt64} {n k : Nat} (h : a.toNat + n ≤ k) (hk : k < 2 ^ 64) :
    (a + UInt64.ofNat n).toNat = a.toNat + n := by
  rw [UInt64.toNat_add, UInt64.toNat_ofNat', Nat.mod_eq_of_lt (a := n) (by omega),
    Nat.mod_eq_of_lt (by omega)]

namespace SuperChunk

theorem writeAt_ptr (offset : UInt64) (src : List UInt8) (s : SuperChunk) :
    (s.writeAt offset src).chunk.ptr = store s.chunk.ptr offset.toNat src := by
  unfold writeAt
  split
  · rename_i h
    rw [List.length_eq_zero_iff.mp h, store_nil]
  · rfl

@[simp] theorem writeAt_size (offset : UInt64) (src : List UInt8) (s : SuperChunk) :
    (s.writeAt offset src).chunk.size = s.chunk.size := by
  unfold writeAt; split <;> rfl

@[simp] theorem writeAt_variableOffset (offset : UInt64) (src : List UInt8) (s : SuperChunk) :
    (s.writeAt offset src).chunk.variableOffset = s.chunk.variableOffset := by
  unfold writeAt; split <;> rfl

@[simp] theorem writeAt_offset (offset : UInt64) (src : List UInt8) (s : SuperChunk) :
    (s.writeAt offset src).offset = s.offset := by
  unfold writeAt; split <;> rfl

theorem write_ptr (src : List UInt8) (s : SuperChunk) :
    (s.write src).chunk.ptr = store s.chunk.ptr s.offset.toNat src :=
  writeAt_ptr s.offset src s

theorem write_offset (src : List UInt8) (s : SuperChunk) :
    (s.write src).offset = s.offset + UInt64.ofNat src.length := by
  simp [write]

end SuperChunk

/-- A field that is stored as bytes at the offset and leaves the variable-length
section alone. -/
theorem Layout.store_field {s s' : SuperChunk} (h : Layout s fs) (bytes : List UInt8)
    (hptr : s'.chunk.ptr = store s.chunk.ptr s.offset.toNat bytes)
    (hsize : s'.chunk.size = s.chunk.size)
    (hvar : s'.chunk.variableOffset = s.chunk.variableOffset)
    (hoffset : s'.offset = s.offset + UInt64.ofNat f.width)
    (hspace : s.offset.toNat + s.chunk.variableOffset.toNat + f.width ≤ s.chunk.size.toNat)
    (hlen : bytes.length ≤ f.width)
    (hfield : FieldAt (store s.chunk.ptr s.offset.toNat bytes) s.chunk.size.toNat
      s.chunk.variableOffset.toNat s.offset.toNat f) : Layout s' (fs ++ [f]) := by
  have hlt := s.chunk.size.toNat_lt
  have hnew : s'.offset.toNat = s.offset.toNat + f.width := by
    rw [hoffset]
    exact toNat_add_ofNat (k := s.chunk.size.toNat) (by omega) hlt
  refine h.extend hsize hnew (by rw [hvar]) (by rw [hnew, hvar]; omega) (fun i hi => ?_)
    (by rw [hptr, hvar]; exact hfield)
  rw [hptr]
  exact store_outside (by omega)

section Steps

variable {s : SuperChunk}

theorem load_store_take (m : Mem) (a : Nat) (bs : List UInt8) {n : Nat} (hn : n ≤ bs.length) :
    load (store m a bs) a n = bs.take n := by
  have hload := load_store m a bs
  obtain ⟨k, hk⟩ := Nat.exists_eq_add_of_le hn
  rw [hk, load_add] at hload
  calc load (store m a bs) a n
      = (load (store m a bs) a n ++ load (store m a bs) (a + n) k).take n :=
        (List.take_left' (length_load _ _ _)).symm
    _ = bs.take n := by rw [hload]

theorem Layout.write8 (h : Layout s fs) {val : UInt64}
    (hf : f = .int64 val ∨ f = .double val)
    (hspace : s.offset.toNat + s.chunk.variableOffset.toNat + f.width ≤ s.chunk.size.toNat)
    {bytes : List UInt8} (hlen : bytes.length = 8) (hval : ofLE bytes = val.toNat) :
    Layout (s.write bytes) (fs ++ [f]) := by
  have hwidth : f.width = 8 := by rcases hf with rfl | rfl <;> rfl
  refine h.store_field bytes (SuperChunk.write_ptr bytes s) (SuperChunk.writeAt_size ..)
    (SuperChunk.writeAt_variableOffset ..) ?_ hspace (by omega) ?_
  · rw [SuperChunk.write_offset, hlen, hwidth]
  · have hload : ofLE (load (store s.chunk.ptr s.offset.toNat bytes) s.offset.toNat 8) =
        val.toNat := by
      rw [← hlen, load_store, hval]
    rcases hf with rfl | rfl
    · exact hload
    · exact hload

theorem Layout.write4 (h : Layout s fs) {val : UInt32}
    (hspace : s.offset.toNat + s.chunk.variableOffset.toNat + 8 ≤ s.chunk.size.toNat)
    {bytes : List UInt8} (hlen : bytes.length = 4) (hval : ofLE bytes = val.toNat) :
    Layout ((s.write bytes).pad 4 none) (fs ++ [.int32 val]) := by
  refine h.store_field bytes (SuperChunk.write_ptr bytes s) (SuperChunk.writeAt_size ..)
    (SuperChunk.writeAt_variableOffset ..) ?_ hspace ?_ ?_
  · show (s.write bytes).offset + 4 = s.offset + 8
    rw [SuperChunk.write_offset, hlen, UInt64.add_assoc]
    rfl
  · rw [hlen]
    show 4 ≤ 8
    decide
  · show ofLE (load (store s.chunk.ptr s.offset.toNat bytes) s.offset.toNat 4) = val.toNat
    rw [← hlen, load_store, hval]

/-- Stores behind each other are one store. -/
theorem store_store (m : Mem) (a : Nat) (bs cs : List UInt8) :
    store (store m a bs) (a + bs.length) cs = store m a (bs ++ cs) := by
  funext i
  rcases Nat.lt_or_ge i a with hlt | hge
  · rw [store_outside (by omega), store_outside (by omega), store_outside (by omega)]
  · obtain ⟨k, rfl⟩ := Nat.exists_eq_add_of_le hge
    rcases Nat.lt_or_ge k bs.length with hk | hk
    · rw [store_outside (by omega), store_inside hk, store_inside (by simp; omega),
        List.getElem_append_left hk]
    · obtain ⟨j, rfl⟩ := Nat.exists_eq_add_of_le hk
      rcases Nat.lt_or_ge j cs.length with hj | hj
      · rw [← Nat.add_assoc, store_inside hj, Nat.add_assoc, store_inside (by simp; omega),
          List.getElem_append_right (by omega)]
        congr 1
        omega
      · rw [store_outside (by omega), store_outside (by omega),
          store_outside (by simp only [List.length_append]; omega)]

theorem Layout.writeFixed (h : Layout s fs) {bytes : List UInt8} {n : Nat} {aligned : UInt64}
    (c : UInt8) (hn : bytes.length ≤ n) (haligned : aligned.toNat = (n + 7) / 8 * 8)
    (hspace : s.offset.toNat + s.chunk.variableOffset.toNat + (n + 7) / 8 * 8 ≤
      s.chunk.size.toNat) :
    Layout ((s.write bytes).pad (aligned - UInt64.ofNat bytes.length) (some c))
      (fs ++ [.fixed (bytes ++ List.replicate (n - bytes.length) c)]) := by
  have hlt := s.chunk.size.toNat_lt
  have hbytes : (UInt64.ofNat bytes.length).toNat = bytes.length := by
    rw [UInt64.toNat_ofNat', Nat.mod_eq_of_lt (by omega)]
  have hrest : (aligned - UInt64.ofNat bytes.length).toNat = (n + 7) / 8 * 8 - bytes.length := by
    rw [UInt64.toNat_sub_of_le _ _ (UInt64.le_iff_toNat_le.mpr (by omega)), haligned, hbytes]
  have hwidth : (Field.fixed (bytes ++ List.replicate (n - bytes.length) c)).width =
      (n + 7) / 8 * 8 := by
    have hlen : bytes.length + (n - bytes.length) = n := by omega
    simp only [Field.width, List.length_append, List.length_replicate, hlen]
  refine h.store_field (bytes ++ List.replicate ((n + 7) / 8 * 8 - bytes.length) c) ?_
    (SuperChunk.writeAt_size ..) (SuperChunk.writeAt_variableOffset ..) ?_ (by rw [hwidth]; omega)
    ?_ ?_
  · show store (s.write bytes).chunk.ptr (s.write bytes).offset.toNat
      (List.replicate (aligned - UInt64.ofNat bytes.length).toNat c) = _
    rw [SuperChunk.write_ptr, SuperChunk.write_offset, hrest,
      toNat_add_ofNat (k := s.chunk.size.toNat) (by omega) hlt, store_store]
  · show (s.write bytes).offset + (aligned - UInt64.ofNat bytes.length) = _
    rw [SuperChunk.write_offset, hwidth, ← haligned, UInt64.ofNat_toNat, UInt64.add_assoc,
      UInt64.add_comm _ (aligned - _), UInt64.sub_add_cancel]
  · rw [hwidth, List.length_append, List.length_replicate]
    omega
  · have hlen : (bytes ++ List.replicate (n - bytes.length) c).length = n := by
      rw [List.length_append, List.length_replicate]
      omega
    show load _ _ (bytes ++ List.replicate (n - bytes.length) c).length = _
    rw [hlen, load_store_take _ _ _ (by rw [List.length_append, List.length_replicate]; omega),
      List.take_append, List.take_of_length_le hn, List.take_replicate,
      Nat.min_eq_left (by omega)]

/-- A payload, and its position and length in the fixed-length section. -/
theorem Layout.writeVariable (h : Layout s fs) {bytes : List UInt8} {len : UInt64}
    (hlen : bytes.length = len.toNat)
    (hspace : s.offset.toNat + s.chunk.variableOffset.toNat + 16 + len.toNat ≤
      s.chunk.size.toNat) :
    let s₁ := s.incrVariableOffset len
    let s₂ := (s₁.write8Typed s₁.chunk.variableOffset).write8Typed len
    Layout (s₂.writeAt (s.chunk.size - s₂.chunk.variableOffset) bytes) (fs ++ [.variable bytes]) := by
  intro s₁ s₂
  have hlt := s.chunk.size.toNat_lt
  have hvar : s₂.chunk.variableOffset.toNat = s.chunk.variableOffset.toNat + len.toNat := by
    show (s.chunk.variableOffset + len).toNat = _
    rw [UInt64.toNat_add, Nat.mod_eq_of_lt (by omega)]
  have hstart : (s.chunk.size - s₂.chunk.variableOffset).toNat =
      s.chunk.size.toNat - (s.chunk.variableOffset.toNat + len.toNat) := by
    rw [UInt64.toNat_sub_of_le _ _ (UInt64.le_iff_toNat_le.mpr (by omega)), hvar]
  have hnext : (s.offset + UInt64.ofNat 8).toNat = s.offset.toNat + 8 :=
    toNat_add_ofNat (k := s.chunk.size.toNat) (by omega) hlt
  have hoffset : (s.offset + UInt64.ofNat 8 + UInt64.ofNat 8).toNat = s.offset.toNat + 16 := by
    rw [toNat_add_ofNat (k := s.chunk.size.toNat) (by omega) hlt, hnext]
  have hptr : (s₂.writeAt (s.chunk.size - s₂.chunk.variableOffset) bytes).chunk.ptr =
      store (store (store s.chunk.ptr s.offset.toNat (toLE 8 s₂.chunk.variableOffset.toNat))
        (s.offset.toNat + 8) (toLE 8 len.toNat))
        (s.chunk.size.toNat - (s.chunk.variableOffset.toNat + len.toNat)) bytes := by
    rw [SuperChunk.writeAt_ptr, hstart, ← hnext]
    rfl
  refine h.extend (SuperChunk.writeAt_size ..) ?_ ?_ ?_ ?_ ?_
  · rw [SuperChunk.writeAt_offset]
    exact hoffset
  · rw [SuperChunk.writeAt_variableOffset, hvar]
    omega
  · rw [SuperChunk.writeAt_variableOffset, SuperChunk.writeAt_offset, hvar]
    show (s.offset + UInt64.ofNat 8 + UInt64.ofNat 8).toNat + _ ≤ _
    rw [hoffset]
    omega
  · intro i hi
    rw [hptr, store_outside (by omega), store_outside (by rw [length_toLE]; omega),
      store_outside (by rw [length_toLE]; omega)]
  · rw [SuperChunk.writeAt_variableOffset, hptr]
    refine ⟨s₂.chunk.variableOffset.toNat, Nat.le_refl _, by omega, ?_, ?_, ?_⟩
    · rw [load_store_of_disjoint (by omega), load_store_of_disjoint (by omega)]
      have hload := load_store s.chunk.ptr s.offset.toNat (toLE 8 s₂.chunk.variableOffset.toNat)
      rw [length_toLE] at hload
      rw [hload, ofLE_toLE _ _ (UInt64.toNat_lt _)]
    · rw [load_store_of_disjoint (by omega)]
      have hload := load_store (store s.chunk.ptr s.offset.toNat
        (toLE 8 s₂.chunk.variableOffset.toNat)) (s.offset.toNat + 8) (toLE 8 len.toNat)
      rw [length_toLE] at hload
      rw [hload, ofLE_toLE _ _ (UInt64.toNat_lt _), hlen]
    · rw [hvar, load_store]

end Steps

end SasLibclient
