import SasLibclient.Sql.ExplainSchema

/-!
# When the loops of `ExplainToRowSchema` end (`utils.cpp`)

A search that finds nothing gives `npos`, and one more than `npos` is 0: the next
name is then looked for at the start of the row. So the loop goes back, to one of
two commas that are the same each time. It ends unless it comes back to a comma
where it was before.
-/

namespace SasLibclient

open Quoting Search

variable {s : StdString} {text : List Char} {e pos start i last n m fuel turns : Nat}

/-! ## Texts -/

/-- The last backtick of the name that begins at the position. -/
def closing (text : List Char) (start : Nat) : Option Nat :=
  (scanBody backtick (text.drop start)).map fun found => text.length - found.2.length - 1

/-- The last backtick of the first name from the position on. -/
def nameFrom (text : List Char) (e : Nat) : Option Nat :=
  (findFrom [backtick] text e).bind fun opening => closing text (opening + 1)

/-- The first comma after the first space from the position on. -/
def commaFrom (text : List Char) (pos : Nat) : Option Nat :=
  (findFrom [' '] text pos).bind fun space => findFrom [','] text space

/-- Where the loop goes on when no name is complete: at the comma after the first
space of the row or, without a backtick, at the one after the first name. -/
def restart (text : List Char) (e : Nat) : Option Nat :=
  match findFrom [backtick] text e with
  | some _ => commaFrom text 1
  | none =>
    match closing text 0 with
    | some last => commaFrom text (last + 2)
    | none => commaFrom text 1

/-- The definitions from the position on are complete up to `stop`, or up to one
that has no comma after it. -/
inductive Ends (text : List Char) (stop : Nat) : Nat → Prop
  | past {e : Nat} : stop ≤ e → Ends text stop e
  | last {e last : Nat} : nameFrom text e = some last → commaFrom text (last + 2) = none →
      Ends text stop e
  | next {e last comma : Nat} : nameFrom text e = some last →
      commaFrom text (last + 2) = some comma → Ends text stop comma → Ends text stop e

/-- The definitions from the position on are complete up to `e'`, where no name
is complete. -/
inductive BreaksOff (text : List Char) (stop : Nat) : Nat → Nat → Prop
  | here {e : Nat} : e < stop → nameFrom text e = none → BreaksOff text stop e e
  | next {e e' last comma : Nat} : e < stop → nameFrom text e = some last →
      commaFrom text (last + 2) = some comma → BreaksOff text stop comma e' →
      BreaksOff text stop e e'

/-- The definitions end after at most so many restarts. -/
def EndsAfter (text : List Char) (stop : Nat) : Nat → Nat → Prop
  | 0, e => Ends text stop e
  | restarts + 1, e =>
    Ends text stop e ∨ ∃ e', BreaksOff text stop e e' ∧
      ∀ comma, restart text e' = some comma → EndsAfter text stop restarts comma

theorem closing_of_none (h : findFrom [backtick] text start = none) : closing text start = none := by
  rw [closing, Option.map_eq_none_iff]
  cases hscan : scanBody backtick (text.drop start) with
  | none => rfl
  | some found =>
    -- a name that is read has a backtick after it
    obtain ⟨name, rest⟩ := found
    have htext := scanBody_sound hscan
    have hmem : backtick ∈ text.drop start := by
      rw [htext]
      simp
    obtain ⟨k, hk, hget⟩ := List.mem_iff_getElem.mp hmem
    have hoccurs : OccursAt [backtick] text (start + k) := by
      rw [occursAt_singleton, ← List.getElem?_drop, List.getElem?_eq_getElem hk, hget]
    exact absurd hoccurs
      ((findFrom_eq_none_iff (List.cons_ne_nil _ _)).mp h _ (Nat.le_add_right _ _))

theorem closing_of_doubled (h : findFrom [backtick] text start = some i)
    (hnext : text[i + 1]? = some backtick) : closing text start = closing text (i + 2) := by
  obtain ⟨front, rest, hdrop, hfront, rfl⟩ := findFrom_singleton_split h
  have hrest : rest = backtick :: text.drop (start + front.length + 2) := by
    have hafter : text.drop (start + front.length + 1) = rest := by
      rw [Nat.add_assoc, ← List.drop_drop, hdrop]
      simp
    cases rest with
    | nil =>
      rw [← List.head?_drop, hafter] at hnext
      cases hnext
    | cons d rest =>
      rw [← List.head?_drop, hafter] at hnext
      obtain rfl := Option.some.inj hnext
      rw [show start + front.length + 2 = start + front.length + 1 + 1 from rfl, ← List.drop_drop,
        hafter]
      rfl
  rw [closing, closing, hdrop, hrest, scanBody_append hfront, scanBody, if_pos rfl, if_pos rfl,
    Option.map_map, Option.map_map]
  rfl

theorem closing_of_single (h : findFrom [backtick] text start = some i)
    (hnext : text[i + 1]? ≠ some backtick) : closing text start = some i := by
  have hlt := findFrom_lt (List.cons_ne_nil _ _) h
  obtain ⟨front, rest, hdrop, hfront, rfl⟩ := findFrom_singleton_split h
  have hafter : text.drop (start + front.length + 1) = rest := by
    rw [Nat.add_assoc, ← List.drop_drop, hdrop]
    simp
  have hlength := congrArg List.length hafter
  rw [List.length_drop] at hlength
  have hscan : scanBody backtick (backtick :: rest) = some ([], rest) := by
    cases rest with
    | nil => rfl
    | cons d rest =>
      have hd : d ≠ backtick := by
        rintro rfl
        apply hnext
        rw [← List.head?_drop, hafter]
        rfl
      rw [scanBody, if_pos rfl, if_neg hd]
  rw [closing, hdrop, scanBody_append hfront, hscan]
  simp only [Option.map_some, Option.some.injEq]
  omega

theorem closing_lt (h : closing text start = some last) : start ≤ last ∧ last < text.length := by
  obtain ⟨⟨name, rest⟩, hscan, rfl⟩ := Option.map_eq_some_iff.mp h
  have htext := congrArg List.length (scanBody_sound hscan)
  have hlength := length_escape backtick backtick name
  rw [List.length_drop, List.length_append, List.length_cons] at htext
  dsimp only
  omega

theorem nameFrom_lt (h : nameFrom text e = some last) : e < last ∧ last < text.length := by
  obtain ⟨opening, hopening, hclosing⟩ := Option.bind_eq_some_iff.mp h
  have hle := le_findFrom (List.cons_ne_nil _ _) hopening
  obtain ⟨hlast, hlt⟩ := closing_lt hclosing
  exact ⟨by omega, hlt⟩

theorem commaFrom_lt (h : commaFrom text pos = some i) : pos ≤ i ∧ i < text.length := by
  obtain ⟨space, hspace, hcomma⟩ := Option.bind_eq_some_iff.mp h
  have hle := le_findFrom (List.cons_ne_nil _ _) hspace
  have hle' := le_findFrom (List.cons_ne_nil _ _) hcomma
  exact ⟨by omega, findFrom_lt (List.cons_ne_nil _ _) hcomma⟩

theorem restart_cases (text : List Char) (e : Nat) :
    restart text e = commaFrom text 1 ∨
      restart text e = (closing text 0).bind fun last => commaFrom text (last + 2) := by
  unfold restart
  cases findFrom [backtick] text e with
  | some opening => exact Or.inl rfl
  | none =>
    cases closing text 0 with
    | some last => exact Or.inr rfl
    | none => exact Or.inl rfl

theorem restart_lt (h : restart text e = some i) : i < text.length := by
  rcases restart_cases text e with hcomma | hcomma
  · exact (commaFrom_lt (hcomma.symm.trans h)).2
  · obtain ⟨last, -, hlast⟩ := Option.bind_eq_some_iff.mp (hcomma.symm.trans h)
    exact (commaFrom_lt hlast).2

theorem ends_or_breaksOff (text : List Char) (stop e : Nat) :
    Ends text stop e ∨ ∃ e', BreaksOff text stop e e' := by
  -- every comma is further on in the text
  induction hrest : text.length - e using Nat.strong_induction_on generalizing e with
  | _ rest ih =>
    by_cases hstop : stop ≤ e
    · exact Or.inl (.past hstop)
    · cases hname : nameFrom text e with
      | none => exact Or.inr ⟨e, .here (Nat.lt_of_not_le hstop) hname⟩
      | some last =>
        cases hcomma : commaFrom text (last + 2) with
        | none => exact Or.inl (.last hname hcomma)
        | some comma =>
          have hlast := nameFrom_lt hname
          have hlt := commaFrom_lt hcomma
          rcases ih (text.length - comma) (by omega) comma rfl with hends | ⟨e', hbreaks⟩
          · exact Or.inl (.next hname hcomma hends)
          · exact Or.inr ⟨e', .next (Nat.lt_of_not_le hstop) hname hcomma hbreaks⟩

/-! ## One turn -/

theorem toNat_ofNat_lt (h : n < 2 ^ 63) : (UInt64.ofNat n).toNat = n := by
  rw [UInt64.toNat_ofNat', Nat.mod_eq_of_lt (by omega)]

theorem findFrom_lt_size {needle : List Char} (hneedle : needle ≠ [])
    (h : findFrom needle s.chars pos = some i) : i < 2 ^ 63 :=
  Nat.lt_trans (findFrom_lt hneedle h) s.length_lt

theorem findFrom_npos {needle : List Char} (hneedle : needle ≠ []) :
    findFrom needle s.chars npos.toNat = none := by
  refine (findFrom_eq_none_iff hneedle).mpr ?_
  intro j hj hoccurs
  have hlt := hoccurs.lt hneedle
  have hlength := s.length_lt
  have hnpos : npos.toNat = 2 ^ 64 - 1 := rfl
  omega

theorem find_position {needle : List Char} (hneedle : needle ≠ []) {o : Option Nat}
    (ho : ∀ i, o = some i → i < 2 ^ 63) :
    s.find needle (position o) = position (o.bind fun i => findFrom needle s.chars i) := by
  cases o with
  | none =>
    rw [StdString.find, position, findFrom_npos hneedle]
    rfl
  | some i =>
    rw [StdString.find, position, toNat_ofNat_lt (ho i rfl)]
    rfl

theorem find_comma (s : StdString) (p : UInt64) :
    s.find [','] (s.find [' '] p) = position (commaFrom s.chars p.toNat) :=
  find_position (List.cons_ne_nil _ _) fun _ => findFrom_lt_size (List.cons_ne_nil _ _)

theorem position_eq_npos {o : Option Nat} (ho : ∀ i, o = some i → i < 2 ^ 63) :
    position o = npos ↔ o = none := by
  cases o with
  | none => exact iff_of_true rfl rfl
  | some i =>
    refine iff_of_false ?_ (Option.some_ne_none i)
    intro h
    have htoNat := congrArg UInt64.toNat h
    rw [position, toNat_ofNat_lt (ho i rfl)] at htoNat
    have hlt := ho i rfl
    have hnpos : npos.toNat = 2 ^ 64 - 1 := rfl
    omega

/-- The next character of the name, with the terminator and the first character
of the row where it is not in the row. -/
theorem charAt_position {o : Option Nat} (hhead : o = none → s.chars.head? ≠ some backtick)
    (ho : ∀ i, o = some i → i < 2 ^ 63) :
    s.charAt (position o + 1) = backtick ↔
      ∃ i, o = some i ∧ s.chars[i + 1]? = some backtick := by
  cases o with
  | none =>
    have hzero : (position none + 1).toNat = 0 := rfl
    rw [StdString.charAt, hzero]
    cases hchars : s.chars with
    | nil => simp [backtick]
    | cons c rest =>
      rw [hchars] at hhead
      simpa using fun h => hhead rfl (congrArg some h)
  | some i =>
    have hlt := ho i rfl
    have hnext : (position (some i) + 1).toNat = i + 1 := by
      rw [position, UInt64.toNat_add, toNat_ofNat_lt hlt]
      exact Nat.mod_eq_of_lt (by have : (1 : UInt64).toNat = 1 := rfl; omega)
    rw [StdString.charAt, hnext, List.getD_eq_getElem?_getD]
    cases hget : s.chars[i + 1]? with
    | none => simp [backtick, hget]
    | some c => simp [hget]

/-- **The inner loop ends**, at the last backtick of the name or without one. -/
theorem skipBackticks_eq (hhead : closing s.chars start = none → s.chars.head? ≠ some backtick)
    (hfuel : 0 < fuel) (hlength : s.chars.length < start + fuel) :
    skipBackticks s fuel (position (findFrom [backtick] s.chars start)) =
      some (position (closing s.chars start)) := by
  induction fuel generalizing start with
  | zero => exact absurd hfuel (Nat.lt_irrefl 0)
  | succ fuel ih =>
    have hsize : ∀ i, findFrom [backtick] s.chars start = some i → i < 2 ^ 63 :=
      fun _ => findFrom_lt_size (List.cons_ne_nil _ _)
    have hnone : findFrom [backtick] s.chars start = none → s.chars.head? ≠ some backtick :=
      fun h => hhead (closing_of_none h)
    rw [skipBackticks, ite_cond_congr (propext (charAt_position hnone hsize))]
    cases hfound : findFrom [backtick] s.chars start with
    | none => simp [closing_of_none hfound]
    | some i =>
      have hi := hsize i hfound
      have hle := le_findFrom (List.cons_ne_nil _ _) hfound
      have hlt := findFrom_lt (List.cons_ne_nil _ _) hfound
      by_cases hnext : s.chars[i + 1]? = some backtick
      · have hstep : s.find [backtick] (position (some i) + 2) =
            position (findFrom [backtick] s.chars (i + 2)) := by
          rw [StdString.find, position, UInt64.toNat_add, toNat_ofNat_lt hi]
          congr 2
          exact Nat.mod_eq_of_lt (by have : (2 : UInt64).toNat = 2 := rfl; omega)
        rw [closing_of_doubled hfound hnext] at hhead ⊢
        rw [if_pos ⟨i, rfl, hnext⟩, hstep]
        exact ih hhead (by omega) (by omega)
      · rw [if_neg, closing_of_single hfound hnext]
        rintro ⟨j, hj, hdoubled⟩
        obtain rfl := Option.some.inj hj
        exact hnext hdoubled

/-- The offsets that one turn of the outer loop finds. -/
def splitFrom (s : StdString) (endIdx fieldEndIdx : UInt64) : FieldDefSplit :=
  let nameStart := s.find [backtick] fieldEndIdx + 1
  let nameEnd := position (closing s.chars nameStart.toNat) - 1
  let typeStart := nameEnd + 3
  let comma := commaFrom s.chars typeStart.toNat
  ⟨nameStart, nameEnd, typeStart, s.find [' '] typeStart,
    comma.elim endIdx fun comma => UInt64.ofNat comma⟩

/-- One turn of the outer loop, for a row that does not begin with a backtick or
with a complete name. -/
theorem nextFieldDef_eq {endIdx fieldEndIdx : UInt64}
    (hhead : closing s.chars (s.find [backtick] fieldEndIdx + 1).toNat = none →
      s.chars.head? ≠ some backtick) (hfuel : s.chars.length < fuel) :
    nextFieldDef s fuel endIdx fieldEndIdx = some (splitFrom s endIdx fieldEndIdx) := by
  have hskip : skipBackticks s fuel
      (s.find [backtick] (s.find [backtick] fieldEndIdx + 1)) =
        some (position (closing s.chars (s.find [backtick] fieldEndIdx + 1).toNat)) :=
    skipBackticks_eq hhead (by omega) (by omega)
  unfold nextFieldDef splitFrom
  dsimp only
  rw [hskip, Option.map_some]
  simp only [find_comma, Option.some.injEq, FieldDefSplit.mk.injEq, true_and]
  rw [ite_cond_congr (propext (position_eq_npos fun _ h => ?_))]
  · cases commaFrom s.chars _ <;> rfl
  · exact Nat.lt_trans (commaFrom_lt h).2 s.length_lt

theorem typeStart_toNat {o : Option Nat} (ho : ∀ i, o = some i → i < 2 ^ 63) :
    (position o - 1 + 3).toNat = o.elim 1 fun last => last + 2 := by
  cases o with
  | none => rfl
  | some last =>
    have hlt := ho last rfl
    have hone : (1 : UInt64).toNat = 1 := rfl
    have hthree : (3 : UInt64).toNat = 3 := rfl
    rw [UInt64.toNat_add, UInt64.toNat_sub, position, toNat_ofNat_lt hlt, Option.elim_some]
    omega

theorem nameStart_toNat {o : Option Nat} (ho : ∀ i, o = some i → i < 2 ^ 63) :
    (position o + 1).toNat = o.elim 0 fun opening => opening + 1 := by
  cases o with
  | none => rfl
  | some opening =>
    have hlt := ho opening rfl
    have hone : (1 : UInt64).toNat = 1 := rfl
    rw [UInt64.toNat_add, position, toNat_ofNat_lt hlt, Option.elim_some]
    omega

/-- Where a turn goes on: at the comma after the definition, or at a restart. -/
theorem splitFrom_fieldEnd (s : StdString) (endIdx fieldEndIdx : UInt64) :
    (splitFrom s endIdx fieldEndIdx).fieldEnd =
      (match nameFrom s.chars fieldEndIdx.toNat with
        | some last => commaFrom s.chars (last + 2)
        | none => restart s.chars fieldEndIdx.toNat).elim endIdx UInt64.ofNat := by
  have hsize : ∀ i, findFrom [backtick] s.chars fieldEndIdx.toNat = some i → i < 2 ^ 63 :=
    fun _ => findFrom_lt_size (List.cons_ne_nil _ _)
  have hclosing : ∀ start i, closing s.chars start = some i → i < 2 ^ 63 :=
    fun _ _ h => Nat.lt_trans (closing_lt h).2 s.length_lt
  unfold splitFrom restart nameFrom
  dsimp only
  rw [typeStart_toNat (hclosing _), StdString.find, nameStart_toNat hsize]
  cases findFrom [backtick] s.chars fieldEndIdx.toNat with
  | none =>
    simp only [Option.elim_none, Option.bind_none]
    cases closing s.chars 0 <;> rfl
  | some opening =>
    simp only [Option.elim_some, Option.bind_some]
    cases closing s.chars (opening + 1) <;> rfl

/-! ## The run -/

theorem skipBackticks_mono {pos found : UInt64} (h : skipBackticks s fuel pos = some found) :
    skipBackticks s (fuel + n) pos = some found := by
  induction fuel generalizing pos with
  | zero => cases h
  | succ fuel ih =>
    rw [skipBackticks] at h
    rw [Nat.add_right_comm, skipBackticks]
    by_cases hnext : s.charAt (pos + 1) = backtick
    · rw [if_pos hnext] at h ⊢
      exact ih h
    · rw [if_neg hnext] at h ⊢
      exact h

theorem nextFieldDef_mono {endIdx pos : UInt64} {split : FieldDefSplit}
    (h : nextFieldDef s fuel endIdx pos = some split) :
    nextFieldDef s (fuel + n) endIdx pos = some split := by
  obtain ⟨found, hfound, hsplit⟩ := Option.map_eq_some_iff.mp h
  exact Option.map_eq_some_iff.mpr ⟨found, skipBackticks_mono hfound, hsplit⟩

theorem fieldDefs_mono {endIdx pos : UInt64} {splits : List FieldDefSplit}
    (h : fieldDefs s fuel turns endIdx pos = some splits) :
    fieldDefs s (fuel + n) (turns + m) endIdx pos = some splits := by
  induction turns generalizing pos splits with
  | zero => cases h
  | succ turns ih =>
    rw [fieldDefs] at h
    rw [Nat.add_right_comm, fieldDefs]
    by_cases hstop : pos < endIdx
    · rw [if_pos hstop] at h ⊢
      obtain ⟨split, hsplit, hmap⟩ := Option.bind_eq_some_iff.mp h
      obtain ⟨rest, hrest, rfl⟩ := Option.map_eq_some_iff.mp hmap
      rw [nextFieldDef_mono hsplit, Option.bind_some, ih hrest]
      rfl
    · rw [if_neg hstop] at h ⊢
      exact h

/-- What the loops find does not depend on the fuel. -/
theorem splitShowColumns_unique {splits splits' : List FieldDefSplit}
    (h : splitShowColumns s n = some splits) (h' : splitShowColumns s m = some splits') :
    splits = splits' := by
  have hmore := fieldDefs_mono (n := m) (m := m) h
  have hmore' := fieldDefs_mono (n := n) (m := n) h'
  rw [Nat.add_comm m n, hmore] at hmore'
  exact Option.some.inj hmore'

/-- The outer loop ends within `n` turns from the position on. -/
def Halts (s : StdString) (n : Nat) (pos : UInt64) : Prop :=
  (fieldDefs s (s.chars.length + 1) n (endIdx s) pos).isSome = true

theorem not_halts_zero {pos : UInt64} : ¬ Halts s 0 pos := by
  intro h
  cases h

theorem halts_succ (hhead : s.chars.head? ≠ some backtick) {pos : UInt64} :
    Halts s (n + 1) pos ↔
      (pos < endIdx s → Halts s n (splitFrom s (endIdx s) pos).fieldEnd) := by
  rw [Halts, fieldDefs]
  by_cases hstop : pos < endIdx s
  · rw [if_pos hstop, nextFieldDef_eq (fun _ => hhead) (Nat.lt_succ_self _), Option.bind_some,
      Option.isSome_map]
    exact ⟨fun h _ => h, fun h => h hstop⟩
  · rw [if_neg hstop]
    exact iff_of_true rfl fun h => absurd h hstop

theorem halts_end (hhead : s.chars.head? ≠ some backtick) {pos : UInt64}
    (h : (endIdx s).toNat ≤ pos.toNat) : Halts s 1 pos :=
  (halts_succ hhead).mpr fun hlt => absurd (UInt64.lt_iff_toNat_lt.mp hlt) (Nat.not_lt_of_le h)

/-- The parser returns or fails when its loops end. -/
theorem explainToRowSchema_isSome_iff_halts (hhead : s.chars.head? ≠ some backtick) :
    (∃ fuel, (explainToRowSchema s fuel).isSome = true) ↔ ∃ n, Halts s n (startIdx s) := by
  have hmap : ∀ fuel, (explainToRowSchema s fuel).isSome = (splitShowColumns s fuel).isSome :=
    fun fuel => Option.isSome_map
  constructor
  · rintro ⟨fuel, h⟩
    rw [hmap] at h
    obtain ⟨splits, hsplits⟩ := Option.isSome_iff_exists.mp h
    -- the fuel of the inner loop that is left over makes no difference
    have hmore := fieldDefs_mono (n := s.chars.length + 1) (m := 0) hsplits
    refine ⟨fuel, ?_⟩
    have hsame : ∀ turns pos, fieldDefs s (fuel + (s.chars.length + 1)) turns (endIdx s) pos =
        fieldDefs s (s.chars.length + 1) turns (endIdx s) pos := by
      intro turns
      induction turns with
      | zero => exact fun pos => rfl
      | succ turns ih =>
        intro pos
        rw [fieldDefs, fieldDefs, nextFieldDef_eq (fun _ => hhead) (by omega),
          nextFieldDef_eq (fun _ => hhead) (by omega)]
        simp only [Option.bind_some, ih]
    rw [Halts, ← hsame]
    exact Option.isSome_iff_exists.mpr ⟨splits, hmore⟩
  · rintro ⟨n, h⟩
    obtain ⟨splits, hsplits⟩ := Option.isSome_iff_exists.mp h
    refine ⟨s.chars.length + 1 + n, ?_⟩
    have hmore := fieldDefs_mono (n := n) (m := s.chars.length + 1) hsplits
    rw [Nat.add_comm n] at hmore
    rw [hmap, splitShowColumns, hmore]
    rfl

/-! ## Restarts -/

section Restarts

variable (hhead : s.chars.head? ≠ some backtick)

/-- A run from `p` comes to `q`, and has a turn less from there. -/
def Leads (s : StdString) (p q : Nat) : Prop :=
  ∀ n, Halts s n (UInt64.ofNat p) → ∃ m < n, Halts s m (UInt64.ofNat q)

theorem Leads.trans {p q r : Nat} (h : Leads s p q) (h' : Leads s q r) : Leads s p r := by
  intro n hn
  obtain ⟨m, hm, hq⟩ := h n hn
  obtain ⟨k, hk, hr⟩ := h' m hq
  exact ⟨k, Nat.lt_trans hk hm, hr⟩

/-- A run that comes back to where it was does not end. -/
theorem not_halts_of_leads {p : Nat} (h : Leads s p p) : ¬ Halts s n (UInt64.ofNat p) := by
  induction n using Nat.strong_induction_on with
  | _ n ih =>
    intro hn
    obtain ⟨m, hm, hp⟩ := h n hn
    exact ih m hm hp

theorem toNat_ofNat_position {p : Nat} (hp : p < 2 ^ 64) : (UInt64.ofNat p).toNat = p := by
  rw [UInt64.toNat_ofNat', Nat.mod_eq_of_lt hp]

include hhead

theorem halts_turn {p : Nat} (hp : p < 2 ^ 64) (hstop : p < (endIdx s).toNat) :
    Halts s (n + 1) (UInt64.ofNat p) ↔
      Halts s n ((match nameFrom s.chars p with
        | some last => commaFrom s.chars (last + 2)
        | none => restart s.chars p).elim (endIdx s) UInt64.ofNat) := by
  have hlt : UInt64.ofNat p < endIdx s := by
    rw [UInt64.lt_iff_toNat_lt, toNat_ofNat_position hp]
    exact hstop
  rw [halts_succ hhead, splitFrom_fieldEnd, toNat_ofNat_position hp]
  exact ⟨fun h => h hlt, fun h _ => h⟩

theorem Ends.halts {p : Nat} (h : Ends s.chars (endIdx s).toNat p) (hp : p < 2 ^ 64) :
    ∃ n, Halts s n (UInt64.ofNat p) := by
  induction h with
  | past hle => exact ⟨1, halts_end hhead (by rwa [toNat_ofNat_position hp])⟩
  | @last e last hname hcomma =>
    by_cases hstop : e < (endIdx s).toNat
    · refine ⟨2, (halts_turn hhead hp hstop).mpr ?_⟩
      simp only [hname, hcomma]
      exact halts_end hhead (Nat.le_refl _)
    · exact ⟨1, halts_end hhead (by rw [toNat_ofNat_position hp]; omega)⟩
  | @next e last comma hname hcomma _ ih =>
    have hsize := Nat.lt_trans (commaFrom_lt hcomma).2 s.length_lt
    by_cases hstop : e < (endIdx s).toNat
    · obtain ⟨n, hn⟩ := ih (by omega)
      refine ⟨n + 1, (halts_turn hhead hp hstop).mpr ?_⟩
      simpa only [hname, hcomma, Option.elim_some] using hn
    · exact ⟨1, halts_end hhead (by rw [toNat_ofNat_position hp]; omega)⟩

/-- Where reading breaks off, the run has come to, and goes on from there. -/
theorem BreaksOff.run {p p' : Nat} (h : BreaksOff s.chars (endIdx s).toNat p p')
    (hp : p < 2 ^ 64) :
    p' < 2 ^ 64 ∧ p' < (endIdx s).toNat ∧ nameFrom s.chars p' = none ∧
      (∀ n, Halts s n (UInt64.ofNat p) → ∃ m ≤ n, Halts s m (UInt64.ofNat p')) ∧
      ∀ m, Halts s m (UInt64.ofNat p') → ∃ n, Halts s n (UInt64.ofNat p) := by
  induction h with
  | @here e hstop hname =>
    exact ⟨hp, hstop, hname, fun n hn => ⟨n, Nat.le_refl n, hn⟩, fun m hm => ⟨m, hm⟩⟩
  | @next e e' last comma hstop hname hcomma _ ih =>
    have hsize := Nat.lt_trans (commaFrom_lt hcomma).2 s.length_lt
    obtain ⟨hlt, hstop', hnone, hforward, hback⟩ := ih (by omega)
    refine ⟨hlt, hstop', hnone, ?_, ?_⟩
    · intro n hn
      cases n with
      | zero => exact absurd hn not_halts_zero
      | succ n =>
        have hnext := (halts_turn hhead hp hstop).mp hn
        simp only [hname, hcomma] at hnext
        obtain ⟨m, hm, hhalts⟩ := hforward n hnext
        exact ⟨m, Nat.le_succ_of_le hm, hhalts⟩
    · intro m hm
      obtain ⟨n, hn⟩ := hback m hm
      refine ⟨n + 1, (halts_turn hhead hp hstop).mpr ?_⟩
      simpa only [hname, hcomma, Option.elim_some] using hn

theorem BreaksOff.leads {p p' comma : Nat} (h : BreaksOff s.chars (endIdx s).toNat p p')
    (hp : p < 2 ^ 64) (hrestart : restart s.chars p' = some comma) : Leads s p comma := by
  obtain ⟨hp', hstop, hname, hforward, -⟩ := h.run hhead hp
  intro n hn
  obtain ⟨m, hm, hhalts⟩ := hforward n hn
  cases m with
  | zero => exact absurd hhalts not_halts_zero
  | succ m =>
    have hnext := (halts_turn hhead hp' hstop).mp hhalts
    simp only [hname, hrestart] at hnext
    exact ⟨m, by omega, hnext⟩

theorem EndsAfter.halts {restarts p : Nat}
    (h : EndsAfter s.chars (endIdx s).toNat restarts p) (hp : p < 2 ^ 64) :
    ∃ n, Halts s n (UInt64.ofNat p) := by
  induction restarts generalizing p with
  | zero => exact Ends.halts hhead h hp
  | succ restarts ih =>
    rcases h with hends | ⟨p', hbreaks, hrestart⟩
    · exact hends.halts hhead hp
    · obtain ⟨hp', hstop, hname, -, hback⟩ := hbreaks.run hhead hp
      cases hcomma : restart s.chars p' with
      | none =>
        refine hback 2 ((halts_turn hhead hp' hstop).mpr ?_)
        simp only [hname, hcomma]
        exact halts_end hhead (Nat.le_refl _)
      | some comma =>
        have hsize := Nat.lt_trans (restart_lt hcomma) s.length_lt
        obtain ⟨n, hn⟩ := ih (hrestart comma hcomma) (by omega)
        refine hback (n + 1) ((halts_turn hhead hp' hstop).mpr ?_)
        simpa only [hname, hcomma, Option.elim_some] using hn

/-- Two restarts are enough for a run that ends: a third one would go back to a
comma where the run was before. -/
theorem Halts.endsAfter {p : Nat} (h : Halts s n (UInt64.ofNat p)) (hp : p < 2 ^ 64) :
    EndsAfter s.chars (endIdx s).toNat 2 p := by
  rcases ends_or_breaksOff s.chars (endIdx s).toNat p with hends | ⟨p₁, hbreaks₁⟩
  · exact Or.inl hends
  refine Or.inr ⟨p₁, hbreaks₁, ?_⟩
  intro c₁ hc₁
  have hsize₁ := Nat.lt_trans (restart_lt hc₁) s.length_lt
  obtain ⟨n₁, -, hhalts₁⟩ := hbreaks₁.leads hhead hp hc₁ n h
  rcases ends_or_breaksOff s.chars (endIdx s).toNat c₁ with hends | ⟨p₂, hbreaks₂⟩
  · exact Or.inl hends
  refine Or.inr ⟨p₂, hbreaks₂, ?_⟩
  intro c₂ hc₂
  have hsize₂ := Nat.lt_trans (restart_lt hc₂) s.length_lt
  have hleads₁ := hbreaks₂.leads hhead (by omega) hc₂
  obtain ⟨n₂, -, hhalts₂⟩ := hleads₁ n₁ hhalts₁
  rcases ends_or_breaksOff s.chars (endIdx s).toNat c₂ with hends | ⟨p₃, hbreaks₃⟩
  · exact hends
  -- the three restarts go to two commas
  have hleads₂ : ∀ c₃, restart s.chars p₃ = some c₃ → Leads s c₂ c₃ :=
    fun c₃ hc₃ => hbreaks₃.leads hhead (by omega) hc₃
  have hne : c₁ ≠ c₂ := by
    rintro rfl
    exact not_halts_of_leads hleads₁ hhalts₁
  have hthird : restart s.chars p₃ = some c₁ ∨ restart s.chars p₃ = some c₂ := by
    have hcases₁ := restart_cases s.chars p₁
    have hcases₂ := restart_cases s.chars p₂
    have hcases₃ := restart_cases s.chars p₃
    grind
  rcases hthird with hc₃ | hc₃
  · exact absurd hhalts₁ (not_halts_of_leads (hleads₁.trans (hleads₂ c₁ hc₃)))
  · exact absurd hhalts₂ (not_halts_of_leads (hleads₂ c₂ hc₃))

theorem explainToRowSchema_isSome_iff :
    (∃ fuel, (explainToRowSchema s fuel).isSome = true) ↔
      EndsAfter s.chars (endIdx s).toNat 2 (startIdx s).toNat := by
  have hstart := UInt64.ofNat_toNat (x := startIdx s)
  rw [explainToRowSchema_isSome_iff_halts hhead]
  constructor
  · rintro ⟨n, h⟩
    rw [← hstart] at h
    exact h.endsAfter hhead (startIdx s).toNat_lt
  · intro h
    have hhalts := h.halts hhead (startIdx s).toNat_lt
    rwa [hstart] at hhalts

end Restarts

theorem head_of_isResultTable (h : isResultTable (String.ofList s.chars) = true) :
    s.chars.head? ≠ some backtick := by
  obtain ⟨rest, hrest⟩ := List.isPrefixOf_iff_prefix.mp h
  rw [String.toList_ofList (l := s.chars)] at hrest
  rw [← hrest]
  show some 'R' ≠ some '\x60'
  decide

/-- **When the parser ends**: when the definitions from the bracket on end with at
most two restarts. -/
theorem explainToRowSchema_ends_iff (s : StdString)
    (hresult : isResultTable (String.ofList s.chars) = true) :
    (∃ fuel, (explainToRowSchema s fuel).isSome = true) ↔
      EndsAfter s.chars (endIdx s).toNat 2 (startIdx s).toNat :=
  explainToRowSchema_isSome_iff (head_of_isResultTable hresult)

/-- A row that ends in its list of columns. -/
def truncatedPlan : StdString :=
  ⟨"ResultTable show_columns:[`a` int NULL, x".toList, by decide⟩

/-- Each turn finds the one comma of the row again. -/
theorem explainToRowSchema_truncated :
    isResultTable (String.ofList truncatedPlan.chars) = true ∧
      ∀ fuel, explainToRowSchema truncatedPlan fuel = none := by
  have hhead : truncatedPlan.chars.head? ≠ some backtick := by decide
  have hstart : startIdx truncatedPlan = UInt64.ofNat 25 := by decide
  have hbreaks : BreaksOff truncatedPlan.chars (endIdx truncatedPlan).toNat 38 38 :=
    .here (by decide) (by decide)
  have hbreaks' : BreaksOff truncatedPlan.chars (endIdx truncatedPlan).toNat 25 38 :=
    .next (by decide) (by decide : _ = some 28) (by decide) hbreaks
  have hrestart : restart truncatedPlan.chars 38 = some 38 := by decide
  refine ⟨by decide, ?_⟩
  intro fuel
  by_contra hsome
  obtain ⟨n, hn⟩ := (explainToRowSchema_isSome_iff_halts hhead).mp
    ⟨fuel, Option.isSome_iff_ne_none.mpr hsome⟩
  rw [hstart] at hn
  obtain ⟨m, -, hm⟩ := hbreaks'.leads hhead (by decide) hrestart n hn
  exact not_halts_of_leads (hbreaks.leads hhead (by decide) hrestart) hm

/-- A row with one column. -/
def oneColumnPlan : StdString :=
  ⟨"ResultTable show_columns:[`a` int NULL] x".toList, by decide⟩

theorem explainToRowSchema_ends_one :
    ∃ fuel, (explainToRowSchema oneColumnPlan fuel).isSome = true :=
  (explainToRowSchema_ends_iff oneColumnPlan (by decide)).mpr
    (Or.inl (.last (by decide : _ = some 28) (by decide)))

end SasLibclient
