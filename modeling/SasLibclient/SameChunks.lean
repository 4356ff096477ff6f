import SasLibclient.ResultTableReader

/-!
# Reading the same rows again

What memory holds before a chunk is written does not decide which rows the
chunk gets. So two readers that fetch the same rows and have chunks of the same
size put the same rows into the chunks of the same number, also when one of
them fails later on.
-/

namespace SasLibclient

open Bytes

/-! ## The contents of the memory -/

def SuperChunk.withMem (m : Mem) (s : SuperChunk) : SuperChunk :=
  { s with chunk := { s.chunk with ptr := m } }

def SuperChunkWriter.withMem (m : Mem) (w : SuperChunkWriter) : SuperChunkWriter :=
  { w with currentChunk := w.currentChunk.withMem m }

/-- Apart from the memory, the effect does not depend on the memory. -/
def Blind (f : SuperChunk → SuperChunk) : Prop :=
  ∀ s m, ∃ m', f (s.withMem m) = (f s).withMem m'

section Blind

variable {f g : SuperChunk → SuperChunk}

theorem Blind.comp (hf : Blind f) (hg : Blind g) : Blind fun s => g (f s) := by
  intro s m
  obtain ⟨m₁, h₁⟩ := hf s m
  obtain ⟨m₂, h₂⟩ := hg (f s) m₁
  refine ⟨m₂, ?_⟩
  show g (f (s.withMem m)) = _
  rw [h₁, h₂]

theorem blind_writeAt (offset : UInt64) (src : List UInt8) :
    Blind (SuperChunk.writeAt offset src) := by
  intro s m
  by_cases hsrc : src.length = 0
  · refine ⟨m, ?_⟩
    rw [SuperChunk.writeAt, SuperChunk.writeAt, if_pos hsrc, if_pos hsrc]
  · refine ⟨store m offset.toNat src, ?_⟩
    rw [SuperChunk.writeAt, SuperChunk.writeAt, if_neg hsrc, if_neg hsrc]
    rfl

theorem blind_write (src : List UInt8) : Blind (SuperChunk.write src) := by
  intro s m
  obtain ⟨m', h⟩ := blind_writeAt s.offset src s m
  refine ⟨m', ?_⟩
  have hoffset : (s.withMem m).offset = s.offset := rfl
  rw [SuperChunk.write, SuperChunk.write, hoffset, h]
  rfl

theorem blind_pad (len : UInt64) (fill : Option UInt8) : Blind (SuperChunk.pad len fill) := by
  intro s m
  cases fill with
  | none => exact ⟨m, rfl⟩
  | some c => exact ⟨store m s.offset.toNat (List.replicate len.toNat c), rfl⟩

theorem blind_writeTyped (n val : Nat) : Blind (SuperChunk.writeTyped n val) :=
  fun s m => ⟨store m s.offset.toNat (toLE n val), rfl⟩

theorem blind_write8Typed (val : UInt64) : Blind (SuperChunk.write8Typed val) :=
  blind_writeTyped 8 val.toNat

theorem blind_incrVariableOffset (len : UInt64) : Blind (SuperChunk.incrVariableOffset len) :=
  fun _ m => ⟨m, rfl⟩

theorem Blind.dependent {f : UInt64 → SuperChunk → SuperChunk} (hf : ∀ v, Blind (f v)) :
    Blind fun s => f s.chunk.variableOffset s :=
  fun s m => hf s.chunk.variableOffset s m

end Blind

section Rows

variable {w : SuperChunkWriter} {column : Column} {cell : Cell}

theorem onChunk_withMem {f : SuperChunk → SuperChunk} (hf : Blind f) (w : SuperChunkWriter)
    (m : Mem) : ∃ m', (w.withMem m).onChunk f = (w.onChunk f).withMem m' := by
  obtain ⟨m', h⟩ := hf w.currentChunk m
  refine ⟨m', ?_⟩
  have hchunk : (w.withMem m).recordColumn.currentChunk = w.currentChunk.withMem m := rfl
  rw [SuperChunkWriter.onChunk, SuperChunkWriter.onChunk, hchunk, h]
  rfl

theorem writeVariable_withMem (value : List UInt8) (len : UInt64) (w : SuperChunkWriter)
    (m : Mem) : ∃ m', (w.withMem m).writeVariable value len =
      (w.writeVariable value len).withMem m' := by
  have hoffset : Blind fun s => s.write8Typed s.chunk.variableOffset :=
    Blind.dependent blind_write8Typed
  have hbytes : Blind fun s =>
      s.writeAt (w.chunkSize - s.chunk.variableOffset) (bytesAt value len.toNat) :=
    Blind.dependent fun v => blind_writeAt (w.chunkSize - v) _
  exact onChunk_withMem ((((blind_incrVariableOffset len).comp hoffset).comp
    (blind_write8Typed len)).comp hbytes) w m

theorem writeConverted_withMem {α : Type} (converted : Except S2ClientError α)
    (write : α → SuperChunk → SuperChunk) (hwrite : ∀ v, Blind (write v)) (w : SuperChunkWriter)
    (m : Mem) : ∃ m',
      SuperChunkWriter.writeConverted converted (fun v => (w.withMem m).onChunk (write v)) =
        (SuperChunkWriter.writeConverted converted fun v => w.onChunk (write v)).map
          (SuperChunkWriter.withMem m') := by
  cases converted with
  | error e => exact ⟨m, rfl⟩
  | ok v =>
    obtain ⟨m', h⟩ := onChunk_withMem (hwrite v) w m
    exact ⟨m', congrArg Except.ok h⟩

theorem writeColumn_withMem (column : Column) (cell : Cell) (w : SuperChunkWriter) (m : Mem) :
    ∃ m', (w.withMem m).writeColumn column cell =
      (w.writeColumn column cell).map (SuperChunkWriter.withMem m') := by
  -- a column that cannot fail
  have hok : ∀ {f : SuperChunk → SuperChunk}, Blind f →
      ∃ m', (.ok ((w.withMem m).onChunk f) : Except WriteError SuperChunkWriter) =
        (.ok (w.onChunk f) : Except WriteError SuperChunkWriter).map
          (SuperChunkWriter.withMem m') := by
    intro f hf
    obtain ⟨m', h⟩ := onChunk_withMem hf w m
    exact ⟨m', congrArg Except.ok h⟩
  have hpadded : ∀ v, Blind fun s => (SuperChunk.write4Typed v s).pad 4 none :=
    fun v => (blind_writeTyped 4 v.toNat).comp (blind_pad 4 none)
  unfold SuperChunkWriter.writeColumn
  split
  · exact hok (blind_write8Typed _)
  · exact hok (blind_write _)
  · exact hok (hpadded _)
  · exact hok ((blind_write _).comp (blind_pad 4 none))
  · exact hok (blind_write8Typed _)
  · exact writeConverted_withMem _ SuperChunk.write8Typed blind_write8Typed w m
  · exact hok (hpadded _)
  · exact writeConverted_withMem _ (fun v s => (s.write4Typed v).pad 4 none) hpadded w m
  · exact hok (blind_write8Typed _)
  · exact hok (blind_write8Typed _)
  · exact hok (blind_write8Typed _)
  · exact hok (blind_write _)
  · exact hok (blind_pad _ _)
  · exact hok ((blind_write _).comp (blind_pad _ _))
  · obtain ⟨m', h⟩ := writeVariable_withMem [] 0 w m
    exact ⟨m', congrArg Except.ok h⟩
  · rename_i value _ _
    obtain ⟨m', h⟩ := writeVariable_withMem value cell.length w m
    exact ⟨m', congrArg Except.ok h⟩
  · exact ⟨m, rfl⟩

theorem writeColumns_withMem (columns : List Column) (row : List Cell) (w : SuperChunkWriter)
    (m : Mem) : ∃ m', SuperChunkWriter.writeColumns columns row (w.withMem m) =
      (SuperChunkWriter.writeColumns columns row w).map (SuperChunkWriter.withMem m') := by
  induction columns generalizing row w m with
  | nil => exact ⟨m, rfl⟩
  | cons column columns ih =>
    obtain ⟨m₁, hcolumn⟩ := writeColumn_withMem column (row.headD ⟨none, 0⟩) w m
    rw [SuperChunkWriter.writeColumns, SuperChunkWriter.writeColumns, hcolumn]
    cases hwrite : w.writeColumn column (row.headD ⟨none, 0⟩) with
    | error e => exact ⟨m, rfl⟩
    | ok w₁ => exact ih row.tail w₁ m₁

/-- **`WriteRow` does not depend on the memory.** -/
theorem writeRow_withMem (row : List Cell) (w : SuperChunkWriter) (m : Mem) :
    ∃ m', (w.withMem m).writeRow row =
      (w.writeRow row).map fun result => (result.1, result.2.withMem m') := by
  have hspace : ∀ size, (w.withMem m).hasEnoughSpace size = w.hasEnoughSpace size := fun _ => rfl
  have hcount : (w.withMem m).currentChunk.chunk.rowCount = w.currentChunk.chunk.rowCount := rfl
  have hschema : (w.withMem m).rowSchema = w.rowSchema := rfl
  unfold SuperChunkWriter.writeRow
  dsimp only
  rw [hschema, hspace, hcount]
  by_cases hfull : (!w.hasEnoughSpace (rowSize w.rowSchema row)) = true
  · rw [if_pos hfull, if_pos hfull]
    split
    · exact ⟨m, rfl⟩
    · exact ⟨m, rfl⟩
  · rw [if_neg hfull, if_neg hfull]
    obtain ⟨m', h⟩ := writeColumns_withMem w.rowSchema.columnInfo row w m
    rw [h]
    cases SuperChunkWriter.writeColumns w.rowSchema.columnInfo row w with
    | error e => exact ⟨m, rfl⟩
    | ok w' => exact ⟨m', rfl⟩

end Rows

/-! ## The chunks of two readers -/

/-- The fetches get the rows one after the other: all of them, or those before a
failing fetch. -/
def FetchesOf (rows : List (List Cell)) (fetches : List Fetch) : Prop :=
  fetches = rows.map .row ∨ ∃ n e, fetches = (rows.take n).map .row ++ [.fail e]

theorem Response.fetchesOf (response : Response) (binary : Bool) :
    FetchesOf (response.cells binary) (response.fetches binary) := by
  unfold Response.fetches
  split
  · exact Or.inl rfl
  · exact Or.inr ⟨_, _, rfl⟩

section Fetches

variable {rows rows' : List (List Cell)} {row : List Cell} {fetches : List Fetch}

theorem FetchesOf.of_nil (h : FetchesOf rows []) : rows = [] := by
  rcases h with h | ⟨n, e, h⟩
  · exact List.map_eq_nil_iff.mp h.symm
  · simp at h

theorem FetchesOf.of_row (h : FetchesOf rows (.row row :: fetches)) :
    ∃ rows', rows = row :: rows' ∧ FetchesOf rows' fetches := by
  rcases h with h | ⟨n, e, h⟩
  · cases rows with
    | nil => cases h
    | cons first rows =>
      simp only [List.map_cons, List.cons.injEq, Fetch.row.injEq] at h
      exact ⟨rows, by rw [h.1], Or.inl h.2⟩
  · cases rows with
    | nil => simp at h
    | cons first rows =>
      cases n with
      | zero => simp at h
      | succ n =>
        simp only [List.take_succ_cons, List.map_cons, List.cons_append, List.cons.injEq,
          Fetch.row.injEq] at h
        exact ⟨rows, by rw [h.1], Or.inr ⟨n, e, h.2⟩⟩

theorem FetchesOf.of_append (h : FetchesOf rows (rows'.map .row ++ fetches)) :
    ∃ more, rows = rows' ++ more ∧ FetchesOf more fetches := by
  induction rows' generalizing rows with
  | nil => exact ⟨rows, rfl, h⟩
  | cons row rows' ih =>
    obtain ⟨rest, rfl, hrest⟩ := h.of_row
    obtain ⟨more, rfl, hmore⟩ := ih hrest
    exact ⟨more, rfl, hmore⟩

end Fetches

namespace S2Connection

variable {conn₁ conn₂ conn₁' conn₂' : S2Connection} {rows rows₁ rows₂ : List (List Cell)}
  {w w₁ w₂ : SuperChunkWriter} {m : Mem} {n k : Nat}

theorem Ready.lastFetchedRow_eq (hready : conn₁.Ready) (h : FetchesOf rows conn₁.rest) :
    conn₁.lastFetchedRow = rows.head? := by
  cases hlast : conn₁.lastFetchedRow with
  | none =>
    rw [hready.rest_eq_nil hlast] at h
    rw [h.of_nil]
    rfl
  | some row =>
    rw [rest_of_row hlast] at h
    obtain ⟨rows', rfl, _⟩ := h.of_row
    rfl

theorem nextChunkLoop_of_no_row (h : conn₁.lastFetchedRow = none) :
    nextChunkLoop n w conn₁ = .ok ([], w, conn₁) := by
  cases n with
  | zero => rfl
  | succ n => rw [nextChunkLoop, h]

theorem nextChunkLoop_of_row {row : List Cell} (hrow : conn₁.lastFetchedRow = some row)
    (h : nextChunkLoop (n + 1) w conn₁ = .ok (rows₁, w₁, conn₁')) :
    (w.writeRow row = .ok (false, w) ∧ rows₁ = []) ∨
    ∃ w' b conn' rows', w.writeRow row = .ok (true, w') ∧ conn₁.advance = .ok (b, conn') ∧
      nextChunkLoop n w' conn' = .ok (rows', w₁, conn₁') ∧ rows₁ = row :: rows' := by
  rw [nextChunkLoop] at h
  simp only [hrow] at h
  split at h
  · cases h
  · rename_i w' hwrite
    obtain ⟨rfl, _⟩ := Prod.mk.inj (Except.ok.inj h)
    exact Or.inl ⟨SuperChunkWriter.writeRow_false hwrite ▸ hwrite, rfl⟩
  · rename_i w' hwrite
    split at h
    · cases h
    · rename_i b conn' hadvance
      split at h
      · cases h
      · rename_i rows' w'' conn'' hloop
        simp only [Except.ok.injEq, Prod.mk.injEq] at h
        obtain ⟨rfl, rfl, rfl⟩ := h
        exact Or.inr ⟨w', b, conn', rows', hwrite, hadvance, hloop, rfl⟩

/-- **Two loops of `NextChunk`** over the same rows write the same rows. -/
theorem nextChunkLoop_same (hready₁ : conn₁.Ready) (hready₂ : conn₂.Ready)
    (hfetches₁ : FetchesOf rows conn₁.rest) (hfetches₂ : FetchesOf rows conn₂.rest)
    (hn : conn₁.rest.length ≤ n) (hk : conn₂.rest.length ≤ k)
    (h₁ : nextChunkLoop n w conn₁ = .ok (rows₁, w₁, conn₁'))
    (h₂ : nextChunkLoop k (w.withMem m) conn₂ = .ok (rows₂, w₂, conn₂')) : rows₁ = rows₂ := by
  have hlast₁ := hready₁.lastFetchedRow_eq hfetches₁
  have hlast₂ := hready₂.lastFetchedRow_eq hfetches₂
  induction rows generalizing n k w m rows₁ rows₂ conn₁ conn₂ with
  | nil =>
    rw [nextChunkLoop_of_no_row hlast₁] at h₁
    rw [nextChunkLoop_of_no_row hlast₂] at h₂
    rw [← (Prod.mk.inj (Except.ok.inj h₁)).1, ← (Prod.mk.inj (Except.ok.inj h₂)).1]
  | cons row rows ih =>
    rw [rest_of_row hlast₁] at hfetches₁ hn
    rw [rest_of_row hlast₂] at hfetches₂ hk
    obtain ⟨rest₁, hrest₁, hpending₁⟩ := hfetches₁.of_row
    obtain ⟨rest₂, hrest₂, hpending₂⟩ := hfetches₂.of_row
    obtain ⟨_, rfl⟩ := List.cons.inj hrest₁
    obtain ⟨_, rfl⟩ := List.cons.inj hrest₂
    obtain ⟨n, rfl⟩ := Nat.exists_eq_add_of_le' (Nat.le_trans (Nat.succ_le_succ (Nat.zero_le _)) hn)
    obtain ⟨k, rfl⟩ := Nat.exists_eq_add_of_le' (Nat.le_trans (Nat.succ_le_succ (Nat.zero_le _)) hk)
    rw [List.length_cons] at hn hk
    obtain ⟨m', hwrite⟩ := writeRow_withMem row w m
    -- both writers accept the row, or neither does
    rcases nextChunkLoop_of_row hlast₁ h₁ with ⟨hfull₁, rfl⟩ | ⟨w', b, c₁, r₁, hok₁, ha₁, hl₁, rfl⟩
    · rw [hfull₁] at hwrite
      rcases nextChunkLoop_of_row hlast₂ h₂ with ⟨_, rfl⟩ | ⟨_, _, _, _, hok₂, _⟩
      · rfl
      · rw [hwrite] at hok₂
        cases hok₂
    · rw [hok₁] at hwrite
      rcases nextChunkLoop_of_row hlast₂ h₂ with ⟨hfull₂, _⟩ | ⟨w'', _, c₂, r₂, hok₂, ha₂, hl₂, rfl⟩
      · rw [hwrite] at hfull₂
        cases hfull₂
      · rw [hwrite] at hok₂
        obtain ⟨_, rfl⟩ := Prod.mk.inj (Except.ok.inj hok₂)
        obtain ⟨hr₁, hp₁⟩ := advance_spec ha₁
        obtain ⟨hr₂, hp₂⟩ := advance_spec ha₂
        rw [← hp₁] at hpending₁ hn
        rw [← hp₂] at hpending₂ hk
        rw [ih hr₁ hr₂ hpending₁ hpending₂ (by omega) (by omega) hl₁ hl₂
          (hr₁.lastFetchedRow_eq hpending₁) (hr₂.lastFetchedRow_eq hpending₂)]

end S2Connection

namespace ResultTableReader

variable {r r₁ r₂ : ResultTableReader} {rowSchema : RowSchema} {conn conn₁ conn₂ : S2Connection}
  {n k id : Nat} {rows : List (List Cell)} {v v₁ v₂ : ReadChunk}

/-- Where a chunk of the loop comes from: this turn, or a later one. -/
theorem readLoop_cases (h : v ∈ (r.readLoop rowSchema (n + 1) id conn).1) :
    ∃ ptr chunkRows chunk conn', conn.hasNextRow = true ∧
      conn.nextChunk (newChunk ptr r.chunkSize (UInt64.ofNat (chunkIdOf id)) r.partition) rowSchema =
        .ok (chunkRows, chunk, conn') ∧
      (v = ⟨chunk, id, chunkRows⟩ ∨ v ∈ (r.readLoop rowSchema n (id + 1) conn').1) := by
  rw [readLoop] at h
  split at h
  · simp at h
  · rename_i hnext
    split at h
    · simp at h
    · rename_i ptr hmalloc
      split at h
      · simp at h
      · rename_i chunkRows chunk conn' hchunk
        split at h
        · simp at h
        · exact ⟨ptr, chunkRows, chunk, conn', by simpa using hnext, hchunk, List.mem_cons.mp h⟩

theorem le_turn_of_mem_readLoop (h : v ∈ (r.readLoop rowSchema n id conn).1) :
    id ≤ v.turn := by
  induction n generalizing id conn with
  | zero => simp [readLoop] at h
  | succ n ih =>
    obtain ⟨_, _, _, conn', _, _, rfl | hlater⟩ := readLoop_cases h
    · exact Nat.le_refl id
    · exact Nat.le_trans (Nat.le_succ id) (ih hlater)

/-- **Two loops of `Read`** over the same rows put the same rows into the chunks
of the same number. -/
theorem readLoop_same (hsize : r₁.chunkSize = r₂.chunkSize) (hpartition : r₁.partition = r₂.partition)
    (hready₁ : conn₁.Ready) (hready₂ : conn₂.Ready)
    (hfetches₁ : FetchesOf rows conn₁.rest) (hfetches₂ : FetchesOf rows conn₂.rest)
    (h₁ : v₁ ∈ (r₁.readLoop rowSchema n id conn₁).1)
    (h₂ : v₂ ∈ (r₂.readLoop rowSchema k id conn₂).1) (hid : v₁.turn = v₂.turn) :
    v₁.rows = v₂.rows := by
  induction n generalizing k id conn₁ conn₂ rows with
  | zero => simp [readLoop] at h₁
  | succ n ih =>
    cases k with
    | zero => simp [readLoop] at h₂
    | succ k =>
      obtain ⟨ptr₁, chunkRows₁, chunk₁, conn₁', _, hchunk₁, hv₁⟩ := readLoop_cases h₁
      obtain ⟨ptr₂, chunkRows₂, chunk₂, conn₂', _, hchunk₂, hv₂⟩ := readLoop_cases h₂
      have hfilled₁ := S2Connection.nextChunk_spec hready₁ rfl hchunk₁
      have hfilled₂ := S2Connection.nextChunk_spec hready₂ rfl hchunk₂
      -- the chunks of this turn have the same rows
      have hrows : chunkRows₁ = chunkRows₂ := by
        unfold S2Connection.nextChunk at hchunk₁ hchunk₂
        split at hchunk₁
        · cases hchunk₁
        · rename_i hloop₁
          split at hchunk₂
          · cases hchunk₂
          · rename_i hloop₂
            obtain ⟨rfl, _⟩ := Prod.mk.inj (Except.ok.inj hchunk₁)
            obtain ⟨rfl, _⟩ := Prod.mk.inj (Except.ok.inj hchunk₂)
            rw [← hsize, ← hpartition] at hloop₂
            exact S2Connection.nextChunkLoop_same (m := ptr₂) hready₁ hready₂ hfetches₁ hfetches₂
              (Nat.le_refl _) (Nat.le_refl _) hloop₁ hloop₂
      subst hrows
      rw [hfilled₁.rest] at hfetches₁
      rw [hfilled₂.rest] at hfetches₂
      obtain ⟨more, rfl, hmore₁⟩ := hfetches₁.of_append
      obtain ⟨more', hmore, hmore₂⟩ := hfetches₂.of_append
      obtain rfl := List.append_cancel_left hmore
      rcases hv₁ with rfl | hlater₁
      · rcases hv₂ with rfl | hlater₂
        · rfl
        · have hle := le_turn_of_mem_readLoop hlater₂
          dsimp only at hid
          omega
      · rcases hv₂ with rfl | hlater₂
        · have hle := le_turn_of_mem_readLoop hlater₁
          dsimp only at hid
          omega
        · exact ih hfilled₁.ready hfilled₂.ready hmore₁ hmore₂ hlater₁ hlater₂

/-- The chunks that the reader of a partition pushes come from the loop. -/
theorem exists_readLoop_of_push {response : Response} {partition : UInt32} {size : UInt64}
    {malloc : Nat → Option Mem}
    (h : .push v ∈ (createReader response (some rowSchema) partition size malloc).read) :
    ∃ r conn n, r.chunkSize = size ∧ r.partition = partition ∧ conn.Ready ∧
      FetchesOf (response.cells true) conn.rest ∧
      v ∈ (ResultTableReader.readLoop r rowSchema n 0 conn).1 := by
  unfold read at h
  simp only [createReader, if_true, prepareRead, S2Connection.connect, S2Connection.prepare] at h
  cases hstart : response.startError with
  | some e =>
    simp only [hstart] at h
    rw [readLoop_of_no_row rfl] at h
    split at h <;> simp at h
  | none =>
    simp only [hstart] at h
    by_cases hfields : response.fields.length = 0
    · simp only [hfields, ne_eq, not_true, if_false] at h
      rw [readLoop_of_no_row rfl] at h
      simp at h
    · simp only [hfields, ne_eq, not_false_iff, if_true] at h
      cases hadvance : S2Connection.advance ⟨response, true, none, response.fetches true⟩ with
      | error e =>
        simp only [hadvance] at h
        cases e with
        | invalidArgument what => simp at h
        | badAlloc => simp at h
        | s2 e =>
          simp only at h
          rw [readLoop_of_no_row rfl] at h
          split at h <;> simp at h
      | ok result =>
        obtain ⟨b, conn⟩ := result
        obtain ⟨hready, hrest⟩ := S2Connection.advance_spec hadvance
        simp only [hadvance] at h
        refine ⟨⟨conn, true, partition, size, some rowSchema, true, .none, malloc⟩, conn,
          conn.rest.length, rfl, rfl, hready, ?_, ?_⟩
        · rw [hrest]
          exact response.fetchesOf true
        · simpa [S2ClientError.none] using h

/-- **Two readers of the same rows**, each with its own memory, put the same rows
into the chunks of the same number. -/
theorem createReader_same {response₁ response₂ : Response} {partition : UInt32} {size : UInt64}
    {malloc₁ malloc₂ : Nat → Option Mem} (hcells : response₁.cells true = response₂.cells true)
    (h₁ : .push v₁ ∈ (createReader response₁ (some rowSchema) partition size malloc₁).read)
    (h₂ : .push v₂ ∈ (createReader response₂ (some rowSchema) partition size malloc₂).read)
    (hid : v₁.turn = v₂.turn) : v₁.rows = v₂.rows := by
  obtain ⟨r₁, conn₁, n, hsize₁, hpartition₁, hready₁, hfetches₁, hv₁⟩ := exists_readLoop_of_push h₁
  obtain ⟨r₂, conn₂, k, hsize₂, hpartition₂, hready₂, hfetches₂, hv₂⟩ := exists_readLoop_of_push h₂
  rw [← hcells] at hfetches₂
  exact readLoop_same (hsize₁.trans hsize₂.symm) (hpartition₁.trans hpartition₂.symm) hready₁
    hready₂ hfetches₁ hfetches₂ hv₁ hv₂ hid

end ResultTableReader

end SasLibclient
