import SasLibclient.ConnectionFetches

/-!
# The life of a connection

Every method keeps a connection `Healthy` or leaves it `Broken`; a `Broken` one
faults at the latest in the destructor. `session_frees`: a whole session frees
what it allocated, each block once, and leaves only the results of
`mysql_use_result` and the single rows that the writer refused by an exception;
or it faults, and then something was refused.
-/

namespace SasLibclient

open Ownership

namespace ConnectionMemory

variable {W : World} {s s' : ConnectionState} {u : List Nat} {k : Nat} {α : Type}
  {F : ConnectionState → Prop}

/-- Between two calls. -/
def Sane (s : ConnectionState) : Prop := Healthy s ∨ Broken s

theorem Healthy.asked (h : Healthy s) (W : World) (call : LibraryCall) (hcall : Harmless call) :
    Healthy (asked W call s) := by
  obtain ⟨u, hheld⟩ := h.held
  exact ⟨⟨u, hheld.harmless W call hcall⟩, h.fits, h.opened⟩

theorem Broken.asked (h : Broken s) (W : World) (call : LibraryCall) :
    Broken (ConnectionMemory.asked W call s) :=
  ⟨h.refused.asked call, h.torn.of_heap rfl rfl fun _ hd => hd⟩

theorem create_healthy : Healthy .create := by
  refine Healthy.of_fits (u := []) ⟨?_, ?_, rfl, ?_⟩ rfl fun hrow => absurd rfl hrow
  · exact Owns.empty
  · exact fun a ha => nomatch ha
  · rintro ⟨answer, hmem, -⟩
    cases hmem

/-! ## Statements and results -/

theorem check_bind (call : LibraryCall) (hcall : Harmless call) (h : Healthy s)
    {f : Unit → Method α} {Q : α → ConnectionState → Prop}
    (hf : Healthy (asked W call s) → (f () (asked W call s)).Post Q Thrown F) :
    ((check W call >>= f) s).Post Q Thrown F := by
  refine Outcome.Post.bind (Q := fun _ s' => s' = asked W call s) ?_ fun _ s' hs' => ?_
  · rw [check, ask_bind]
    cases (W s.clock).ok with
    | true => exact rfl
    | false => exact Or.inl (h.asked W call hcall)
  · subst hs'
    exact hf (h.asked W call hcall)

theorem stmtInit_post (h : Held 0 u s) (hrow : s.lastFetchedRow = none)
    (hcolumns : s.lastColumnsNum = 0) (hstmt : s.stmt = none) :
    (stmtInit W s).Post (fun _ s' => Healthy s' ∧ s'.stmt ≠ none ∧ s'.lastFetchedRow = none ∧
      s'.useBinaryProtocol = s.useBinaryProtocol) Thrown F := by
  have hasked := h.harmless W .stmtInit trivial
  have hfits : ∀ stmt heap, Fits { asked W .stmtInit s with stmt := stmt, heap := heap } := by
    intro stmt heap
    simpa [Fits, asked, hrow] using hcolumns
  rw [stmtInit, ask_bind]
  cases (W s.clock).ok with
  | true =>
    refine ⟨Healthy.of_fits (u := u) (hasked.of_heap (h.owns.alloc.perm ?_) rfl rfl rfl)
      (hfits (some s.heap.next) _) fun hne => absurd hrow hne, Option.some_ne_none _, hrow, rfl⟩
    refine List.perm_iff_count.mpr fun b => ?_
    simp only [blocks, asked, hstmt, List.count_append, List.count_cons, Option.toList_none,
      Option.toList_some, List.count_nil]
    omega
  | false =>
    refine Or.inl (Healthy.of_fits (u := u) (hasked.of_heap ?_ rfl rfl rfl)
      (hfits none _) fun hne => absurd hrow hne)
    have hblocks : blocks { asked W .stmtInit s with stmt := none } u = blocks s u := by
      simp only [blocks, asked, hstmt]
    exact hblocks ▸ h.owns

theorem Healthy.cleanupStatement (h : Healthy s) :
    ∃ u s', ConnectionMemory.cleanupStatement true s = .ret () s' ∧
      Freed u { s with stmt := none } s' := by
  obtain ⟨u, hheld⟩ := h.held
  obtain ⟨heap, hclean, hcleared⟩ := cleanupStatement_free hheld h.fits
  exact ⟨u, _, hclean, hcleared, rfl, rfl, rfl, rfl, rfl, rfl⟩

theorem prepare_post (h : Healthy s) (execute prefetch : Bool) :
    (prepare W execute prefetch s).Post
      (fun _ s' => Healthy s' ∧ (prefetch = false → Opened s')) Thrown Refused := by
  obtain ⟨u, s₁, hclean, hfreed⟩ := h.cleanupStatement
  rw [prepare, Prog.bind_of_ret hclean, modify_bind]
  have hheld : Held 0 u { s₁ with useBinaryProtocol := true } :=
    hfreed.held.of_heap hfreed.held.owns rfl rfl rfl
  refine (stmtInit_post hheld hfreed.row hfreed.columns hfreed.stmt).bind fun _ s₂ h₂ => ?_
  obtain ⟨hhealthy, hstmt, -, hbinary⟩ := h₂
  have hopened : Opened s₂ := by
    rw [Opened, if_pos hbinary]
    exact hstmt
  refine check_bind .stmtPrepare trivial hhealthy fun hhealthy => ?_
  split
  · refine check_bind .stmtExecute trivial hhealthy fun hhealthy => ?_
    rw [ask_bind]
    have hhealthy := hhealthy.asked W .fieldCount trivial
    split
    · split
      · refine (advance_post hhealthy hopened).bind fun _ s₃ h₃ => ?_
        exact ⟨h₃.1, fun hfalse => absurd hfalse (by simp [*])⟩
      · exact ⟨hhealthy, fun _ => hopened⟩
    · exact ⟨hhealthy, fun _ => hopened⟩
  · exact ⟨hhealthy, fun _ => hopened⟩

theorem Broken.prepare (h : Broken s) (execute prefetch : Bool) {Q : Bool → ConnectionState → Prop}
    {X : ReadException → ConnectionState → Prop} :
    (ConnectionMemory.prepare W execute prefetch s).Post Q X Refused :=
  h.cleanupStatement.bind (Q := fun _ _ => False) fun _ _ hfalse => hfalse.elim

theorem useResult_post (h : Held 0 u s) (hrow : s.lastFetchedRow = none)
    (hcolumns : s.lastColumnsNum = 0) (htext : s.useBinaryProtocol = false) :
    (useResult W s).Post
      (fun _ s' => Healthy s' ∧ Opened s' ∧ s'.useBinaryProtocol = false) Thrown F := by
  have hfits : ∀ res heap, Fits { asked W .useResult s with res := res, heap := heap } := by
    intro res heap
    simpa [Fits, asked, hrow] using hcolumns
  have haccepted : ¬ Refused (asked W .useResult s) :=
    fun hr => (refused_asked.mp hr).elim h.accepted fun hrefusal => hrefusal.2
  rw [useResult, ask_bind]
  cases hok : (W s.clock).ok with
  | true =>
    refine ⟨Healthy.of_fits (u := s.heap.next :: u) ⟨?_, ?_, ?_, haccepted⟩
      (hfits (some s.heap.next) _) fun hne => absurd hrow hne, ?_, htext⟩
    · refine h.owns.alloc.perm (List.perm_iff_count.mpr fun b => ?_)
      simp only [blocks, asked, List.count_append, List.count_cons]
      omega
    · rintro a ⟨⟩
      exact List.mem_cons_self
    · simp [lost, asked, hok, h.count]
    · simp [Opened, asked, htext]
  | false =>
    refine Or.inl (Healthy.of_fits (u := u) ⟨h.owns, fun a ha => ?_, ?_, haccepted⟩
      (hfits none _) fun hne => absurd hrow hne)
    · cases ha
    · simp [lost, asked, hok, h.count]

theorem execute_post (h : Held 0 u s) (hrow : s.lastFetchedRow = none)
    (hcolumns : s.lastColumnsNum = 0) :
    (execute W s).Post (fun _ s' => Healthy s' ∧ Opened s') Thrown Refused := by
  have htext : Held 0 u { s with useBinaryProtocol := false } := h.of_heap h.owns rfl rfl rfl
  have hhealthy : Healthy { s with useBinaryProtocol := false } :=
    Healthy.of_fits htext (by simpa [Fits, hrow] using hcolumns) fun hne => absurd hrow hne
  rw [execute, modify_bind]
  refine check_bind .query trivial hhealthy fun _ => ?_
  refine (useResult_post (htext.harmless W .query trivial) hrow hcolumns rfl).bind ?_
  rintro _ s₁ ⟨hhealthy, hopened, hprotocol⟩
  rw [ask_bind]
  have hhealthy := hhealthy.asked W .fieldCount trivial
  split
  · exact (advance_post hhealthy hopened).bind fun _ s₂ h₂ => ⟨h₂.1, h₂.2 hprotocol⟩
  · exact ⟨hhealthy, hopened⟩

theorem getRowSchema_post (h : Healthy s) (ho : Opened s) :
    (getRowSchema W s).Post (fun _ s' => Healthy s' ∧ Opened s') Thrown F := by
  obtain ⟨u, hheld⟩ := h.held
  rw [getRowSchema, get_bind]
  split
  · have hstmt : s.stmt ≠ none := by
      rw [Opened, if_pos ‹_›] at ho
      exact ho
    rw [Prog.bind_of_ret (hheld.deref_stmt hstmt), check, ask_bind]
    have hasked := h.asked W .resultMetadata trivial
    cases (W s.clock).ok with
    | true => exact ⟨hasked, ho⟩
    | false => exact Or.inl hasked
  · have hres : s.res ≠ none := by
      rw [Opened, if_neg ‹_›] at ho
      exact ho
    rw [hheld.deref_res hres]
    exact ⟨h, ho⟩

/-! ## Rows for the writer -/

theorem deref_post (p : Pointer) (s : ConnectionState)
    {X : ReadException → ConnectionState → Prop} :
    (deref p s).Post (fun _ s' => s' = s) X fun s' => s' = s := by
  cases p with
  | none => exact rfl
  | some a =>
    by_cases hlive : a ∈ s.heap.live
    · rw [show deref (some a) s = .ret () s from if_pos hlive]
      exact rfl
    · rw [show deref (some a) s = .fault .useAfterFree s from if_neg hlive]
      exact rfl

/-- The writer only reads. -/
theorem readRow_post (s : ConnectionState) {X : ReadException → ConnectionState → Prop} :
    (readRow s).Post (fun _ s' => s' = s) X fun s' => s' = s := by
  rw [readRow, get_bind]
  cases s.lastFetchedRow with
  | none => exact rfl
  | some row =>
    refine (deref_post _ s).bind ?_
    rintro _ s' rfl
    refine Outcome.Post.bind (Q := fun _ s => s = s') ?_ ?_
    · refine Outcome.Post.each (I := fun _ s => s = s') rfl ?_
      rintro p l s rfl
      split
      · exact deref_post p s
      · exact rfl
    · rintro _ s rfl
      exact deref_post _ s

theorem Held.deref_of_mem {a : Nat} (h : Held k u s) (hmem : a ∈ blocks s u) :
    deref (some a) s = .ret () s := if_pos ((h.owns.live a).mpr hmem)

theorem Held.readRow (hheld : Held k u s) (hfits : Fits s) (hrow : s.lastFetchedRow.isSome = true) :
    ConnectionMemory.readRow s = .ret () s := by
  obtain ⟨⟨address, cells⟩, heq⟩ := Option.isSome_iff_exists.mp hrow
  rw [Fits, heq] at hfits
  obtain ⟨lengths, hlengths⟩ := Option.ne_none_iff_exists'.mp hfits.2
  have hcells : ∀ l : List Pointer, (∀ p ∈ l, p ∈ cells) →
      Prog.each l (fun p => if p.isSome then deref p else pure ()) s = .ret () s := by
    intro l hl
    induction l with
    | nil => rfl
    | cons p l ih =>
      have hfirst : (if p.isSome then deref p else pure () : Method Unit) s = .ret () s := by
        cases p with
        | none => rfl
        | some a =>
          refine hheld.deref_of_mem ?_
          have hmem := List.reduceOption_mem_iff.mpr (hl (some a) List.mem_cons_self)
          simp [blocks, heq, rowBlocks, hmem]
      rw [Prog.each, Prog.bind_of_ret hfirst]
      exact ih fun q hq => hl q (List.mem_cons_of_mem _ hq)
  have haddress : deref (some address) s = .ret () s :=
    hheld.deref_of_mem (by simp [blocks, heq, rowBlocks])
  have hdone : deref s.lastFetchedLengths s = .ret () s := by
    rw [hlengths]
    exact hheld.deref_of_mem (by simp [blocks, hlengths])
  rw [ConnectionMemory.readRow, get_bind, heq]
  simp only [Prog.bind_of_ret haddress, Prog.bind_of_ret (hcells cells fun _ hp => hp), hdone]

theorem writeRow_post {call : LibraryCall} (hread : readRow s = .ret () s)
    (hno : (W s.clock).ok = false → Healthy (asked W call s)) :
    (writeRow W call s).Post (fun _ s' => s' = asked W call s ∧ (W s.clock).ok = true) Thrown F := by
  rw [writeRow, Prog.bind_of_ret hread, ask_bind]
  cases hok : (W s.clock).ok with
  | true => exact ⟨rfl, rfl⟩
  | false => exact Or.inl (hno hok)

theorem Broken.writeRow (h : Broken s) :
    (ConnectionMemory.writeRow W .writeRow s).Post (fun _ s' => Broken s') Thrown Refused := by
  rw [ConnectionMemory.writeRow]
  refine Outcome.Post.bind (Q := fun _ s' => s' = s) ?_ ?_
  · refine (readRow_post s).mono (fun _ _ hs => hs) (fun _ _ hX => hX) ?_
    rintro _ rfl
    exact h.refused
  · rintro _ s' rfl
    rw [ask_bind]
    cases (W s'.clock).ok with
    | true => exact h.asked W .writeRow
    | false => exact Or.inr (h.asked W .writeRow)

theorem writeRows_post (h : Sane s) (turns : Nat) :
    (writeRows W turns s).Post (fun _ s' => Sane s') Thrown Refused := by
  induction turns generalizing s with
  | zero => exact h
  | succ turns ih =>
    rw [writeRows, get_bind]
    split
    · have hwrite : (writeRow W .writeRow s).Post
          (fun _ s' => Healthy s' ∧ Opened s' ∨ Broken s') Thrown Refused := by
        rcases h with hhealthy | hbroken
        · obtain ⟨u, hheld⟩ := hhealthy.held
          refine (writeRow_post (hheld.readRow hhealthy.fits ‹_›) fun _ =>
            hhealthy.asked W .writeRow trivial).mono ?_ (fun _ _ hX => hX) fun _ hF => hF
          rintro _ _ ⟨rfl, -⟩
          refine Or.inl ⟨hhealthy.asked W .writeRow trivial, hhealthy.opened ?_⟩
          exact Option.ne_none_iff_isSome.mpr ‹_›
        · exact hbroken.writeRow.mono (fun _ _ hs => Or.inr hs) (fun _ _ hX => hX) fun _ hF => hF
      refine hwrite.bind fun written s₁ h₁ => ?_
      split
      · rcases h₁ with ⟨hhealthy, hopened⟩ | hbroken
        · exact (advance_post hhealthy hopened).bind fun _ s₂ h₂ => ih (Or.inl h₂.1)
        · exact hbroken.advance.bind (Q := fun _ _ => False) fun _ _ hfalse => hfalse.elim
      · exact h₁.imp And.left id
    · exact h

theorem prepareRows_post (h : Sane s) (failure : S2ClientError) :
    (prepareRows W failure s).Post (fun _ s' => Healthy s' ∧ s'.lastFetchedRow.isSome = true) Thrown
      Refused := by
  rw [prepareRows]
  rcases h with hhealthy | hbroken
  · refine (prepare_post hhealthy true true).bind fun result s₁ h₁ => ?_
    rw [get_bind]
    split
    · exact Or.inl h₁.1
    · rename_i hchecks
      simp only [Bool.or_eq_true, not_or, Option.isNone_iff_eq_none] at hchecks
      exact ⟨h₁.1, Option.isSome_iff_ne_none.mpr hchecks.2⟩
  · exact (hbroken.prepare true true).bind (Q := fun _ _ => False) fun _ _ hfalse => hfalse.elim

theorem getMultipleRows_post (h : Sane s) (failure : S2ClientError) (turns : Nat) :
    (getMultipleRows W failure turns s).Post (fun _ s' => Sane s') Thrown Refused := by
  rw [getMultipleRows]
  exact (prepareRows_post h failure).bind fun _ s₁ h₁ => writeRows_post (Or.inl h₁.1) turns

/-- The chunk and its buffer belong to nobody yet; without a chunk the buffer is
lost. -/
theorem newChunk_post (h : Healthy s) (hheld : Held 0 u s) :
    (newChunk W s).Post (fun row s' => Held 2 (row.1 :: row.2 :: u) s' ∧
      ∃ heap, s' = { asked W .newChunk s with heap := heap }) Thrown F := by
  have hptr : Held 1 (s.heap.next :: u) { s with heap := s.heap.alloc } := hheld.alloc
  have hreply : ¬ Refusal (.newChunk, W s.clock) := fun hr => hr.2
  rw [newChunk]
  refine Outcome.Post.bind (Q := fun ptr s' => ptr = s.heap.next ∧
    s' = { s with heap := s.heap.alloc }) ⟨rfl, rfl⟩ ?_
  rintro _ _ ⟨rfl, rfl⟩
  refine (newBlock_post (Q := fun chunk s' => Held 2 (chunk :: s.heap.next :: u) s' ∧
    ∃ heap, s' = { asked W .newChunk s with heap := heap }) (fun hok => ?_) fun hno => ?_).bind
    fun _ _ hs => hs
  · have hlost : lost (.newChunk, W s.clock) = 0 := by simp [lost, hok]
    have hchunk := hptr.alloc
    exact ⟨(hchunk.asked hlost hreply).of_heap hchunk.owns rfl rfl rfl, _, rfl⟩
  · have hlost : lost (.newChunk, W s.clock) = 1 := by simp [lost, hno]
    exact Or.inl ⟨⟨_, Held.lose (k := 0) hptr hlost hreply⟩, h.fits, h.opened⟩

/-- A single row that is returned: the caller has its chunk and the buffer. -/
structure HandedOver (row : Nat × Nat) (s : ConnectionState) : Prop where
  held : ∃ u, Held 2 (row.1 :: row.2 :: u) s ∧ ∀ a, s.res = some a → a ∈ u
  fits : Fits s
  row : s.lastFetchedRow = none

theorem getSingleRow_post (h : Sane s) (failure : S2ClientError) :
    (getSingleRow W failure s).Post HandedOver Thrown Refused := by
  rw [getSingleRow]
  refine (prepareRows_post h failure).bind ?_
  rintro _ s₁ ⟨hhealthy, hrow⟩
  obtain ⟨u, hheld⟩ := hhealthy.held
  have hfits := hhealthy.fits
  obtain ⟨row, heq⟩ := Option.isSome_iff_exists.mp hrow
  rw [Fits, heq] at hfits
  obtain ⟨lengths, hlengths⟩ := Option.ne_none_iff_exists'.mp hfits.2
  have hderef : deref s₁.lastFetchedLengths s₁ = .ret () s₁ := by
    rw [hlengths]
    exact hheld.deref_of_mem (by simp [blocks, hlengths])
  rw [get_bind, Prog.bind_of_ret hderef, ask_bind]
  have hasked := hhealthy.asked W .malloc trivial
  split
  · refine (newChunk_post hasked (hheld.harmless W .malloc trivial)).bind ?_
    rintro ⟨chunk, ptr⟩ s₂ ⟨hmade, heap, hs₂⟩
    have hfits₂ : Fits s₂ := hs₂ ▸ hasked.fits
    have hopened₂ : s₂.lastFetchedRow ≠ none → Opened s₂ := hs₂ ▸ hasked.opened
    have hres₂ : s₂.res = s₁.res := hs₂ ▸ rfl
    have hreply : ¬ Refusal (.writeSingleRow, W s₂.clock) := fun hr => hr.2
    refine (writeRow_post (hmade.readRow hfits₂ (hs₂ ▸ hrow)) fun hno => ?_).bind ?_
    · -- the chunk and the buffer are lost with the exception
      have hlost : lost (.writeSingleRow, W s₂.clock) = 2 := by simp [lost, hno]
      exact ⟨⟨_, Held.lose (k := 0) hmade hlost hreply⟩, hfits₂, hopened₂⟩
    · rintro _ _ ⟨rfl, hok⟩
      have hlost : lost (.writeSingleRow, W s₂.clock) = 0 := by simp [lost, hok]
      obtain ⟨heap, hclean, hdone⟩ := cleanupStatement_free (hmade.asked hlost hreply) hfits₂
      rw [Prog.bind_of_ret hclean]
      exact ⟨⟨u, hdone, fun a ha => hheld.res a (hres₂ ▸ ha)⟩, rfl, rfl⟩
  · exact Or.inl hasked

theorem HandedOver.freed {row : Nat × Nat} (h : HandedOver row s)
    {X : ReadException → ConnectionState → Prop} :
    ((release (some row.1) >>= fun _ => release (some row.2)) s).Post (fun _ s' => Sane s') X F := by
  obtain ⟨u, hheld, hres⟩ := h.held
  obtain ⟨hchunk, hheld⟩ := hheld.handOver fun a ha => List.mem_cons_of_mem _ (hres a ha)
  obtain ⟨hptr, hheld⟩ := hheld.handOver hres
  rw [Prog.bind_of_ret hchunk, hptr]
  exact Or.inl (Healthy.of_fits hheld h.fits fun hrow => absurd h.row hrow)

/-! ## Requests -/

theorem check_post (call : LibraryCall) (hcall : Harmless call) (h : Sane s) :
    (check W call s).Post (fun _ s' => Sane s') Thrown F := by
  have hasked : Sane (asked W call s) :=
    h.imp (fun hhealthy => hhealthy.asked W call hcall) fun hbroken => hbroken.asked W call
  rw [check, ask_bind]
  cases (W s.clock).ok with
  | true => exact hasked
  | false => exact hasked

theorem writeChunk_post (h : Sane s) (convert : Bool) :
    (writeChunk W convert s).Post (fun _ s' => Sane s') Thrown Refused := by
  have hasked : Sane (asked W .localInfile s) := h.imp
    (fun hhealthy => hhealthy.asked W .localInfile trivial) fun hbroken => hbroken.asked W .localInfile
  rw [writeChunk, ask_bind]
  refine (orFree_post fun _ => hasked).bind ?_
  rintro _ s₁ ⟨rfl, -⟩
  refine (orFree_post fun _ => hasked).bind ?_
  rintro _ s₁ ⟨rfl, -⟩
  split
  · exact (check_post .chunkToTSV trivial hasked).bind fun _ _ h₁ => check_post .query trivial h₁
  · exact check_post .query trivial hasked

theorem answer_post (h : Sane s) (request : Request) :
    (answer W request s).Post (fun _ s' => Sane s') Thrown Refused := by
  cases request with
  | nextChunk turns => exact writeRows_post h turns
  | singleRow failure => exact (getSingleRow_post h failure).bind fun _ _ hs => hs.freed
  | multipleRows failure turns => exact getMultipleRows_post h failure turns
  | clientRowSchema =>
    rw [answer]
    rcases h with hhealthy | hbroken
    · refine (prepare_post hhealthy false false).bind fun _ s₁ h₁ => ?_
      exact (getRowSchema_post h₁.1 (h₁.2 rfl)).mono (fun _ _ hs => Or.inl hs.1) (fun _ _ hX => hX)
        fun _ hF => hF
    · exact (hbroken.prepare false false).bind (Q := fun _ _ => False) fun _ _ hfalse => hfalse.elim
  | writeChunk convert => exact writeChunk_post h convert
  | discardStmtClose =>
    rcases h with ⟨⟨u, hheld⟩, hfits, hopened⟩ | ⟨hrefused, htorn⟩
    · exact Or.inl ⟨⟨u, hheld.of_heap hheld.owns rfl rfl rfl⟩, hfits, hopened⟩
    · exact Or.inr ⟨hrefused, htorn⟩

theorem prepareRead_post (h : Healthy s) (hrow : s.lastFetchedRow = none) (start : ReaderStart) :
    (prepareRead W start s).Post (fun _ s' => Sane s') Thrown Refused := by
  have hschema : ∀ s, Healthy s → Opened s →
      ((getRowSchema W >>= fun _ => advance W >>= fun _ => pure ()) s).Post
        (fun _ s' => Sane s') Thrown Refused := by
    intro s hhealthy hopened
    refine (getRowSchema_post hhealthy hopened).bind fun _ s₁ h₁ => ?_
    exact (advance_post h₁.1 h₁.2).bind fun _ s₂ h₂ => Or.inl h₂.1
  cases start with
  | parallel =>
    rw [prepareRead]
    exact (prepare_post h true true).bind fun _ s₁ h₁ => Or.inl h₁.1
  | prepared =>
    rw [prepareRead]
    exact (prepare_post h true false).bind fun _ s₁ h₁ => hschema s₁ h₁.1 (h₁.2 rfl)
  | text =>
    obtain ⟨u, hheld⟩ := h.held
    have hfits := h.fits
    rw [Fits, hrow] at hfits
    rw [prepareRead]
    exact (execute_post hheld hrow hfits).bind fun _ s₁ h₁ => hschema s₁ h₁.1 h₁.2

/-! ## The session -/

/-- What a connection leaves when it is destroyed. -/
structure Closed (s : ConnectionState) : Prop where
  conn : s.conn = none
  stmt : s.stmt = none
  row : s.lastFetchedRow = none
  lengths : s.lastFetchedLengths = none
  /-- only text results, and single rows that could not be written -/
  live : s.heap.live.card = (s.answers.map lost).sum
  accepted : ¬ Refused s

theorem Held.closeIf (h : Held 0 u s) (close : Bool) :
    ∃ heap stmt, (if s.stmt.isSome && close then cleanupStatement false else pure () : Method Unit) s =
        .ret () { s with heap := heap, stmt := stmt } ∧
      Held 0 u { s with heap := heap, stmt := stmt } ∧ (close = true → stmt = none) := by
  split
  · obtain ⟨heap, hclean, hheld⟩ := cleanupStatement_keep h
    exact ⟨heap, none, hclean, hheld, fun _ => rfl⟩
  · refine ⟨s.heap, s.stmt, rfl, h, ?_⟩
    rintro rfl
    simpa using ‹¬ (s.stmt.isSome && true) = true›

theorem Held.closeConn (h : Held 0 u s) :
    ∃ heap, release s.conn s = .ret () { s with heap := heap } ∧
      Held 0 u { s with heap := heap, conn := none } := by
  have howns : Owns s.heap (s.conn.toList ++ blocks { s with conn := none } u) := by
    refine h.owns.perm (List.perm_iff_count.mpr fun b => ?_)
    simp only [blocks, List.count_append, Option.toList_none, List.count_nil]
    omega
  obtain ⟨heap, hrelease, hleft⟩ := release_owned howns
  exact ⟨heap, hrelease, h.of_heap hleft rfl rfl rfl⟩

theorem destructor_post (h : Sane s) :
    (destructor s).Post (fun _ s' => Closed s') (fun _ _ => False) Refused := by
  rcases h with hhealthy | hbroken
  · obtain ⟨u, s₁, hfree, hfreed⟩ := hhealthy.freeLastFetched
    obtain ⟨heap₂, stmt₂, hclose₂, hheld₂, -⟩ := hfreed.held.closeIf s₁.needStmtClose
    obtain ⟨heap₃, hconn, hheld₃⟩ := hheld₂.closeConn
    obtain ⟨heap₄, stmt₄, hclose₄, hheld₄, hstmt⟩ := hheld₃.closeIf true
    have hclosed : closeStatement s₁ = .ret () { s₁ with heap := heap₂, stmt := stmt₂ } := hclose₂
    rw [Bool.and_true] at hclose₄
    rw [destructor, Prog.bind_of_ret hfree, Prog.bind_of_ret hclosed, get_bind,
      Prog.bind_of_ret hconn, modify_bind, get_bind, hclose₄]
    refine ⟨rfl, hstmt rfl, hfreed.row, hfreed.lengths, ?_, hheld₄.accepted⟩
    have hcount := hheld₄.count
    rw [Nat.add_zero] at hcount
    rw [hheld₄.owns.card, ← hcount]
    simp [blocks, hstmt rfl, hfreed.row, hfreed.lengths, rowBlocks]
  · exact hbroken.freeLastFetched.bind (Q := fun _ _ => False) fun _ _ hfalse => hfalse.elim

theorem connect_post :
    (connect W .create).Post (fun _ s' => Healthy s' ∧ s'.lastFetchedRow = none) Thrown Refused := by
  obtain ⟨u, hheld⟩ := create_healthy.held
  have hinit := hheld.harmless W .init trivial
  rw [connect, ask_bind]
  cases (W ConnectionState.create.clock).ok with
  | false => exact Or.inl (create_healthy.asked W .init trivial)
  | true =>
    rw [if_pos rfl]
    have hconn : Held 0 u { asked W .init .create with
        heap := ConnectionState.create.heap.alloc
        conn := some ConnectionState.create.heap.next } :=
      hinit.of_heap hheld.owns.alloc rfl rfl rfl
    have hhealthy := Healthy.of_fits hconn rfl fun hrow => absurd rfl hrow
    refine check_bind .realConnect trivial hhealthy fun _ => ?_
    exact (stmtInit_post (hconn.harmless W .realConnect trivial) rfl rfl rfl).mono
      (fun _ _ hs => ⟨hs.1, hs.2.2.1⟩) (fun _ _ hX => hX) fun _ hF => hF

theorem session_post (W : World) (start : Option ReaderStart) (requests : List Request) :
    (session W start requests .create).Post (fun _ s => Closed s) (fun _ _ => False) Refused := by
  unfold session
  have hconnect : (Prog.attempt (connect W) .create).Post
      (fun connected s => Sane s ∧ (connected = true → Healthy s ∧ s.lastFetchedRow = none))
      (fun _ _ => False) Refused := by
    refine connect_post.attempt (fun _ s hs => ⟨Or.inl hs.1, fun _ => hs⟩) fun _ s hs => ⟨hs, ?_⟩
    exact fun hfalse => Bool.noConfusion hfalse
  refine hconnect.bind ?_
  rintro connected s ⟨hsane, hconnected⟩
  split
  · obtain ⟨hhealthy, hrow⟩ := hconnected ‹_›
    refine Outcome.Post.bind (Q := fun _ s => Sane s) ?_ fun _ s hs => ?_
    · refine Outcome.Post.attempt (Q := fun _ s => Sane s) (X := Thrown) ?_ (fun _ _ hs => hs)
        fun _ _ hs => hs
      cases start with
      | none => exact hsane
      | some start => exact prepareRead_post hhealthy hrow start
    · refine (Outcome.Post.each (I := fun _ s => Sane s) hs fun request _ s hs => ?_).bind
        fun _ s hs => destructor_post hs
      exact ((answer_post hs request).attempt (T := fun _ s => Sane s) (fun _ _ hs => hs)
        fun _ _ hs => hs).bind fun _ _ hs => hs
  · exact destructor_post hsane

end ConnectionMemory

open ConnectionMemory

/-- A column of text is fetched, and there is no memory for it: the destructor
deletes the buffer that it replaces a second time. -/
example : (match session (fun k => ⟨k != 17, 1, [.string], true, false, false, true, ⟨0, ""⟩, .badAlloc⟩)
    (some .parallel) [] .create with
  | .fault f _ => f == .doubleFree
  | _ => false) = true := by decide +kernel

end SasLibclient
