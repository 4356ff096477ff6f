import SasLibclient.Sql.ShowColumns

/-!
# The columns of a query plan (`utils.cpp`)

What `ShowColumnsToRowSchemaHelper` makes of a definition, and when the schema has
every column of the list. The helper keeps a name as the server writes it, with
doubled backticks, and up to the first null character.
-/

namespace SasLibclient

open Quoting Search

variable {s : StdString} {d : ColumnDef} {window : List Char} {split : FieldDefSplit}

/-! ## Numbers -/

/-- A character at which `stoi` stops. -/
def StopsNumber (c : Char) : Prop :=
  isSpace c = false ∧ c.isDigit = false ∧ c ≠ '-' ∧ c ≠ '+'

theorem stoiSign_append {c : Char} (hc : StopsNumber c) (text rest : List Char) :
    stoiSign (text ++ c :: rest) = ((stoiSign text).1, (stoiSign text).2 ++ c :: rest) := by
  obtain ⟨-, -, hminus, hplus⟩ := hc
  cases text with
  | nil =>
    rw [List.nil_append]
    unfold stoiSign
    split
    · rename_i heq
      exact absurd (List.cons.inj heq).1 hminus
    · rename_i heq
      exact absurd (List.cons.inj heq).1 hplus
    · rfl
  | cons b text =>
    rw [List.cons_append]
    by_cases hb : b = '-'
    · subst hb
      rfl
    · by_cases hb' : b = '+'
      · subst hb'
        rfl
      · have hplain : ∀ tail, stoiSign (b :: tail) = (false, b :: tail) := by
          intro tail
          unfold stoiSign
          split
          · rename_i heq
            exact absurd (List.cons.inj heq).1 hb
          · rename_i heq
            exact absurd (List.cons.inj heq).1 hb'
          · rfl
        rw [hplain, hplain]
        rfl

/-- What comes after such a character does not matter. -/
theorem stoi_append {c : Char} (hc : StopsNumber c) (text rest : List Char) :
    stoi (text ++ c :: rest) = stoi text := by
  have hspaces : (text ++ c :: rest).dropWhile isSpace =
      text.dropWhile isSpace ++ c :: rest := by
    rw [List.dropWhile_append]
    split
    · rename_i hempty
      rw [List.isEmpty_iff.mp hempty, List.nil_append, List.dropWhile_cons_of_neg]
      rw [hc.1]
      exact Bool.false_ne_true
    · rfl
  have hdigits : ∀ front : List Char, (front ++ c :: rest).takeWhile Char.isDigit =
      front.takeWhile Char.isDigit := by
    intro front
    have hstop : (c :: rest).takeWhile Char.isDigit = [] := by
      rw [List.takeWhile_cons_of_neg]
      rw [hc.2.1]
      exact Bool.false_ne_true
    rw [List.takeWhile_append]
    split
    · rename_i hall
      rw [hstop, List.append_nil]
      exact ((List.takeWhile_prefix _).eq_of_length hall).symm
    · rfl
  unfold stoi Decimal.readNat
  rw [hspaces, stoiSign_append hc]
  simp only [hdigits]

/-- The digits that `stoi` reads. -/
def stoiDigits (text : List Char) : List Char :=
  (stoiSign (text.dropWhile isSpace)).2.takeWhile Char.isDigit

/-- The number that a text begins with. -/
def stoiValue (text : List Char) : Int :=
  let number := stoiSign (text.dropWhile isSpace)
  let absolute : Int := (Decimal.readNat number.2).1
  if number.1 then -absolute else absolute

theorem stoi_ok_iff {text : List Char} {n : Int} :
    stoi text = .ok n ↔
      stoiDigits text ≠ [] ∧ stoiValue text = n ∧ -2 ^ 31 ≤ n ∧ n < 2 ^ 31 := by
  have hstoi : stoi text = if stoiDigits text = [] then .error .invalidArgument else
      if -2 ^ 31 ≤ stoiValue text ∧ stoiValue text < 2 ^ 31 then .ok (stoiValue text)
      else .error .outOfRange := rfl
  rw [hstoi]
  by_cases hdigits : stoiDigits text = []
  · rw [if_pos hdigits]
    refine iff_of_false ?_ fun h => h.1 hdigits
    intro h
    cases h
  · rw [if_neg hdigits]
    by_cases hrange : -2 ^ 31 ≤ stoiValue text ∧ stoiValue text < 2 ^ 31
    · rw [if_pos hrange, Except.ok.injEq]
      constructor
      · rintro rfl
        exact ⟨hdigits, rfl, hrange⟩
      · exact fun h => h.2.1
    · rw [if_neg hrange]
      refine iff_of_false ?_ ?_
      · intro h
        cases h
      · rintro ⟨-, rfl, h⟩
        exact hrange h

/-! ## One definition -/

namespace ColumnDef

variable (d : ColumnDef)

/-- The name as the helper copies it. -/
def copiedName : List Char := d.escaped.takeWhile fun c => c != '\x00'

/-- The text that the helper reads as a number behind a type name of so many
characters: what is between the parentheses or, without them, the text behind the
type. -/
def sizeText (nameLength : Nat) : List Char :=
  if nameLength + 2 ≤ d.type.length then
    (d.type.drop (nameLength + 1)).take (d.type.length - (nameLength + 2))
  else
    (d.type ++ ' ' :: d.charset).drop (nameLength + 1)

/-- The type name that the helper finds. -/
def foundType : Option TypeName := findTypeName (lower (d.type ++ [' ']))

def explainedSize (window : List Char) : TypeSize → Except ExplainFailure Int
  | .bytes n => .ok n
  | .binary => stoi (d.sizeText 6)
  | .char => do
    let sizeInChar ← stoi (d.sizeText 4)
    pure (intProduct sizeInChar (charSize window))

/-- What the helper makes of the definition and the text behind its type. -/
def explained (window : List Char) : Except ExplainFailure ExplainedColumn :=
  match d.foundType with
  | none => pure ⟨.unsupported, none, d.copiedName⟩
  | some typeName => do
    let size ← d.explainedSize window typeName.size
    pure ⟨typeName.type, some size, d.copiedName⟩

end ColumnDef

theorem length_lower (text : List Char) : (lower text).length = text.length := List.length_map ..

theorem foundType_mem {typeName : TypeName} (h : d.foundType = some typeName) :
    typeName ∈ typeNames := by
  have hmem := List.mem_of_find?_eq_some h
  exact hmem

/-- A name that is found is not longer than the type. -/
theorem foundType_length {typeName : TypeName} (h : d.foundType = some typeName) :
    typeName.name.toList.length ≤ d.type.length := by
  have hmem := foundType_mem h
  have hfound := List.find?_some h
  have hfront := List.isPrefixOf_iff_prefix.mp hfound
  have hle := hfront.length_le
  rw [length_lower, List.length_append, List.length_singleton] at hle
  have hspaces : ∀ typeName ∈ typeNames, ' ' ∉ typeName.name.toList := by decide
  -- the space behind the type is no part of the name
  by_contra hlt
  have heq := hfront.eq_of_length (by
    rw [length_lower, List.length_append, List.length_singleton]
    omega)
  apply hspaces typeName hmem
  rw [heq, lower, List.map_append]
  exact List.mem_append_right _ (by decide)

theorem typeNames_binary : ∀ typeName ∈ typeNames,
    typeName.size = .binary → typeName.name.toList.length = 6 := by
  decide

theorem typeNames_char : ∀ typeName ∈ typeNames,
    typeName.size = .char → typeName.name.toList.length = 4 := by
  decide

section SplitOf

variable (h : SplitOf s (d, window) split)

include h

theorem SplitOf.name :
    s.strndup split.nameStart (split.nameEnd - split.nameStart + 1) = d.copiedName := by
  obtain ⟨⟨pre, post, hchars, hsplit⟩, -⟩ := h
  dsimp only at hchars hsplit
  have hlt := length_lt_of_split hchars
  have htext := congrArg List.length (text_eq d)
  simp only [List.length_append, List.length_cons] at htext
  rw [hsplit, ColumnDef.split]
  dsimp only
  have hcount : (UInt64.ofNat (pre.length + d.escaped.length) - UInt64.ofNat (pre.length + 1) +
      1).toNat = d.escaped.length := by
    rw [UInt64.toNat_add, UInt64.toNat_sub, toNat_ofNat_lt (by omega), toNat_ofNat_lt (by omega)]
    have hone : (1 : UInt64).toNat = 1 := rfl
    omega
  rw [StdString.strndup, hcount, toNat_ofNat_lt (by omega), drop_after_opening hchars,
    List.take_left, ColumnDef.copiedName]

theorem SplitOf.type :
    (s.chars.drop split.typeStart.toNat).take (split.typeEnd - split.typeStart).toNat = d.type := by
  obtain ⟨⟨pre, post, hchars, hsplit⟩, -⟩ := h
  dsimp only at hchars hsplit
  have hlt := length_lt_of_split hchars
  have hhead := length_head d
  have htext := length_text d
  rw [hsplit, ColumnDef.split]
  dsimp only
  have hcount : (UInt64.ofNat (pre.length + d.head.length) -
      UInt64.ofNat (pre.length + d.escaped.length + 3)).toNat = d.type.length := by
    rw [UInt64.toNat_sub, toNat_ofNat_lt (by omega), toNat_ofNat_lt (by omega)]
    omega
  rw [hcount, toNat_ofNat_lt (by omega), drop_typeStart hchars, List.take_left]

theorem SplitOf.colType :
    s.substr split.typeStart (split.typeEnd - split.typeStart + 1) = .ok (d.type ++ [' ']) := by
  obtain ⟨⟨pre, post, hchars, hsplit⟩, -⟩ := h
  dsimp only at hchars hsplit
  have hlt := length_lt_of_split hchars
  have hhead := length_head d
  have htext := length_text d
  have hlength := congrArg List.length hchars
  rw [List.length_append, List.length_append] at hlength
  rw [hsplit, ColumnDef.split]
  dsimp only
  rw [StdString.substr, toNat_count (by omega) (by omega), toNat_ofNat_lt (by omega),
    if_neg (by omega), drop_typeStart hchars]
  have hcount : pre.length + d.head.length - (pre.length + d.escaped.length + 3) + 1 =
      (d.type ++ [' ']).length := by
    rw [List.length_append, List.length_singleton]
    omega
  have hfront : d.type ++ ' ' :: (d.tail ++ post) = d.type ++ [' '] ++ (d.tail ++ post) := by
    simp
  rw [hcount, hfront, List.take_left]

theorem SplitOf.collation :
    s.substr split.typeEnd (split.fieldEnd - split.typeEnd + 1) = .ok window := by
  obtain ⟨⟨pre, post, hchars, hsplit⟩, hwindow⟩ := h
  dsimp only at hchars hsplit hwindow
  have hlt := length_lt_of_split hchars
  have htext := length_text d
  have hlength := congrArg List.length hchars
  rw [List.length_append, List.length_append] at hlength
  have hend : split.typeEnd.toNat = pre.length + d.head.length := by
    rw [hsplit, ColumnDef.split]
    exact toNat_ofNat_lt (by omega)
  rw [StdString.substr, hwindow, if_neg (by omega)]

theorem SplitOf.sizeInParens {nameLength : UInt64} (hname : nameLength.toNat ≤ d.type.length) :
    sizeInParens s split nameLength = stoi (d.sizeText nameLength.toNat) := by
  obtain ⟨⟨pre, post, hchars, hsplit⟩, -⟩ := h
  dsimp only at hchars hsplit
  have hlt := length_lt_of_split hchars
  have hhead := length_head d
  have htext := length_text d
  have hsize := s.length_lt
  have hlength := congrArg List.length hchars
  rw [List.length_append, List.length_append] at hlength
  have hone : (1 : UInt64).toNat = 1 := rfl
  have htwo : (2 : UInt64).toNat = 2 := rfl
  have hpos : (split.typeStart + (nameLength + 1)).toNat =
      pre.length + d.escaped.length + 3 + (nameLength.toNat + 1) := by
    rw [hsplit, ColumnDef.split]
    dsimp only
    rw [UInt64.toNat_add, UInt64.toNat_add, toNat_ofNat_lt (by omega)]
    omega
  have hcount : (split.typeEnd - split.typeStart - (nameLength + 2)).toNat =
      (2 ^ 64 + d.type.length - (nameLength.toNat + 2)) % 2 ^ 64 := by
    rw [hsplit, ColumnDef.split]
    dsimp only
    rw [UInt64.toNat_sub, UInt64.toNat_sub, UInt64.toNat_add, toNat_ofNat_lt (by omega),
      toNat_ofNat_lt (by omega)]
    omega
  unfold SasLibclient.sizeInParens
  rw [StdString.substr, hpos, hcount, if_neg (by omega), ← List.drop_drop,
    drop_typeStart hchars, ColumnDef.sizeText]
  show stoi _ = _
  by_cases hparens : nameLength.toNat + 2 ≤ d.type.length
  · have hmod : (2 ^ 64 + d.type.length - (nameLength.toNat + 2)) % 2 ^ 64 =
        d.type.length - (nameLength.toNat + 2) := by
      omega
    rw [if_pos hparens, hmod, List.drop_append_of_le_length (by omega),
      List.take_append_of_le_length (by rw [List.length_drop]; omega)]
  · -- the rest of the row, of which the number is in front of `NULL`
    have hmod : s.chars.length ≤ (2 ^ 64 + d.type.length - (nameLength.toNat + 2)) % 2 ^ 64 := by
      omega
    have hrest : d.type ++ ' ' :: (d.tail ++ post) =
        (d.type ++ ' ' :: d.charset) ++ 'N' :: ("ULL".toList ++ post) := by
      simp [ColumnDef.tail]
    rw [if_neg hparens, List.take_of_length_le, hrest, List.drop_append_of_le_length]
    · exact stoi_append ⟨by decide, by decide, by decide, by decide⟩ _ _
    · rw [List.length_append, List.length_cons]
      omega
    · rw [List.length_drop, List.length_append, List.length_cons, List.length_append]
      omega

/-- **One turn of the helper** sees the definition and its window. -/
theorem SplitOf.explainedColumn : explainedColumn s split = d.explained window := by
  unfold SasLibclient.explainedColumn ColumnDef.explained
  rw [h.name, h.colType]
  show (match d.foundType with
    | none => pure ⟨.unsupported, none, d.copiedName⟩
    | some typeName => do
      let size ← SasLibclient.explainedSize s split typeName.size
      pure ⟨typeName.type, some size, d.copiedName⟩ : Except ExplainFailure ExplainedColumn) = _
  cases hfound : d.foundType with
  | none => rfl
  | some typeName =>
    have hmem := foundType_mem hfound
    have hname := foundType_length hfound
    have hsize : explainedSize s split typeName.size = d.explainedSize window typeName.size := by
      cases hkind : typeName.size with
      | bytes n => rfl
      | binary =>
        rw [typeNames_binary typeName hmem hkind] at hname
        exact h.sizeInParens hname
      | char =>
        rw [typeNames_char typeName hmem hkind] at hname
        have hfour : SasLibclient.sizeInParens s split 4 = stoi (d.sizeText 4) :=
          h.sizeInParens hname
        unfold SasLibclient.explainedSize ColumnDef.explainedSize
        dsimp only
        rw [hfour, h.collation]
        rfl
    dsimp only
    rw [hsize]

end SplitOf

/-! ## The schema -/

theorem explainedColumns_ok_iff {ws : List (ColumnDef × List Char)} {splits : List FieldDefSplit}
    (h : List.Forall₂ (SplitOf s) ws splits) {room : Nat} {columns : List ExplainedColumn} :
    explainedColumns s room splits = .ok columns ↔
      ws.length ≤ room ∧ List.Forall₂ (fun w column => w.1.explained w.2 = .ok column) ws columns := by
  induction h generalizing room columns with
  | nil =>
    rw [explainedColumns]
    constructor
    · intro hok
      obtain rfl := Except.ok.inj hok
      exact ⟨Nat.zero_le _, List.Forall₂.nil⟩
    · rintro ⟨-, hnil⟩
      cases hnil
      rfl
  | @cons w split ws splits hw _ ih =>
    cases room with
    | zero =>
      refine iff_of_false ?_ ?_
      · intro hok
        cases hok
      · rintro ⟨hle, -⟩
        cases hle
    | succ room =>
      rw [explainedColumns, hw.explainedColumn]
      cases hcolumn : w.1.explained w.2 with
      | error failure =>
        refine iff_of_false ?_ ?_
        · intro hok
          cases hok
        · rintro ⟨-, hall⟩
          cases hall with
          | cons hfirst _ =>
            rw [hcolumn] at hfirst
            cases hfirst
      | ok column =>
        cases hrest : explainedColumns s room splits with
        | error failure =>
          refine iff_of_false ?_ ?_
          · intro hok
            cases hok
          · rintro ⟨hle, hall⟩
            cases hall with
            | cons _ hothers =>
              have hok := ih.mpr ⟨Nat.le_of_succ_le_succ hle, hothers⟩
              rw [hrest] at hok
              cases hok
        | ok others =>
          obtain ⟨hle, hothers⟩ := ih.mp hrest
          constructor
          · intro hok
            obtain rfl := Except.ok.inj hok
            exact ⟨Nat.succ_le_succ hle, List.Forall₂.cons hcolumn hothers⟩
          · rintro ⟨hle', hall⟩
            cases hall with
            | cons hfirst hall =>
              rw [hcolumn] at hfirst
              have hok := ih.mpr ⟨hle, hall⟩
              rw [hrest] at hok
              obtain rfl := Except.ok.inj hfirst
              obtain rfl := Except.ok.inj hok
              rfl

theorem showColumnsToRowSchemaHelper_ok_iff {ws : List (ColumnDef × List Char)}
    {splits : List FieldDefSplit} (h : List.Forall₂ (SplitOf s) ws splits)
    {schema : ExplainedSchema} :
    showColumnsToRowSchemaHelper s splits = .ok schema ↔
      ws.length < 2 ^ 32 ∧ schema.numColumns = UInt32.ofNat ws.length ∧
        List.Forall₂ (fun w column => w.1.explained w.2 = .ok column) ws schema.columnInfo := by
  have hlength := h.length_eq
  have hroom : ws.length ≤ (UInt32.ofNat splits.length).toNat ↔ ws.length < 2 ^ 32 := by
    rw [UInt32.toNat_ofNat', hlength]
    omega
  unfold showColumnsToRowSchemaHelper
  dsimp only
  cases hcolumns : explainedColumns s (UInt32.ofNat splits.length).toNat splits with
  | error failure =>
    refine iff_of_false ?_ ?_
    · intro hok
      cases hok
    · rintro ⟨hlt, -, hall⟩
      have hok := (explainedColumns_ok_iff h).mpr ⟨hroom.mpr hlt, hall⟩
      rw [hcolumns] at hok
      cases hok
  | ok columns =>
    obtain ⟨hle, hall⟩ := (explainedColumns_ok_iff h).mp hcolumns
    constructor
    · intro hok
      obtain rfl := Except.ok.inj hok
      exact ⟨hroom.mp hle, by rw [hlength], hall⟩
    · rintro ⟨-, hnumber, hall'⟩
      have hok := (explainedColumns_ok_iff h).mpr ⟨hle, hall'⟩
      rw [hcolumns] at hok
      obtain rfl := Except.ok.inj hok
      rw [hlength] at hnumber
      cases schema
      simp only at hnumber
      subst hnumber
      rfl

theorem explainToRowSchema_documented (r : ShowColumns) (schema : ExplainedSchema) :
    (∃ fuel, explainToRowSchema r.row fuel = some (.ok schema)) ↔
      (windows r.after r.defs).length < 2 ^ 32 ∧
        schema.numColumns = UInt32.ofNat (windows r.after r.defs).length ∧
        List.Forall₂ (fun w column => w.1.explained w.2 = .ok column) (windows r.after r.defs)
          schema.columnInfo := by
  obtain ⟨fuel, splits, hsplits, hsplitOf⟩ := splitShowColumns_documented r
  rw [← showColumnsToRowSchemaHelper_ok_iff hsplitOf]
  constructor
  · rintro ⟨fuel', h⟩
    obtain ⟨splits', hsplits', hok⟩ := Option.map_eq_some_iff.mp h
    rwa [splitShowColumns_unique hsplits hsplits']
  · intro h
    exact ⟨fuel, by rw [explainToRowSchema, hsplits, Option.map_some, h]⟩

/-! ## Every column -/

/-- The type text of a column that the loops cut out. -/
def typeText (s : StdString) (split : FieldDefSplit) : List Char :=
  (s.chars.drop split.typeStart.toNat).take (split.typeEnd - split.typeStart).toNat

/-- The schema has the columns of the list, with their names and types. -/
def RecoversColumns (s : StdString) (defs : List ColumnDef) : Prop :=
  ∃ fuel splits schema, splitShowColumns s fuel = some splits ∧
    explainToRowSchema s fuel = some (.ok schema) ∧ schema.numColumns.toNat = defs.length ∧
    schema.columnInfo.map (fun column => column.name) = defs.map (fun d => d.name) ∧
    splits.map (typeText s) = defs.map fun d => d.type

/-- Where the helper reads the size of the type, there is a number. -/
def ColumnDef.SizeReads (d : ColumnDef) : Prop :=
  (d.foundType.map (fun typeName => typeName.size) = some .binary →
    ∃ n, stoi (d.sizeText 6) = .ok n) ∧
  (d.foundType.map (fun typeName => typeName.size) = some .char → ∃ n, stoi (d.sizeText 4) = .ok n)

theorem copiedName_eq_iff (d : ColumnDef) :
    d.copiedName = d.name ↔ backtick ∉ d.name ∧ '\x00' ∉ d.name := by
  constructor
  · intro h
    have hnull : '\x00' ∉ d.name := by
      intro hmem
      rw [← h] at hmem
      have hkept := List.mem_takeWhile_imp hmem
      simp at hkept
    have hwhole : d.copiedName = d.escaped := by
      refine List.takeWhile_eq_self_iff.mpr ?_
      intro c hc
      have hmem : c ∈ d.name := mem_escape.mp hc
      have hne : c ≠ '\x00' := by
        rintro rfl
        exact hnull hmem
      simpa using hne
    exact ⟨escape_eq_self_iff.mp (hwhole.symm.trans h), hnull⟩
  · rintro ⟨hbacktick, hnull⟩
    rw [ColumnDef.copiedName, ColumnDef.escaped, escape_eq_self_iff.mpr hbacktick,
      List.takeWhile_eq_self_iff]
    intro c hc
    have hne : c ≠ '\x00' := by
      rintro rfl
      exact hnull hc
    simpa using hne

theorem explained_none {column : ExplainedColumn} (hfound : d.foundType = none)
    (h : d.explained window = .ok column) : column = ⟨.unsupported, none, d.copiedName⟩ := by
  rw [ColumnDef.explained, hfound] at h
  exact (Except.ok.inj h).symm

theorem explained_some {column : ExplainedColumn} {typeName : TypeName}
    (hfound : d.foundType = some typeName) (h : d.explained window = .ok column) :
    ∃ size, d.explainedSize window typeName.size = .ok size ∧
      column = ⟨typeName.type, some size, d.copiedName⟩ := by
  rw [ColumnDef.explained, hfound] at h
  dsimp only at h
  cases hsize : d.explainedSize window typeName.size with
  | error failure =>
    rw [hsize] at h
    cases h
  | ok size =>
    rw [hsize] at h
    exact ⟨size, rfl, (Except.ok.inj h).symm⟩

theorem explained_name {column : ExplainedColumn} (h : d.explained window = .ok column) :
    column.name = d.copiedName := by
  cases hfound : d.foundType with
  | none => rw [explained_none hfound h]
  | some typeName =>
    obtain ⟨size, -, rfl⟩ := explained_some hfound h
    rfl

/-- The helper makes a column when it reads the size. -/
theorem explained_ok_iff : (∃ column, d.explained window = .ok column) ↔ d.SizeReads := by
  unfold ColumnDef.explained ColumnDef.SizeReads
  cases hfound : d.foundType with
  | none => exact iff_of_true ⟨_, rfl⟩ ⟨by simp, by simp⟩
  | some typeName =>
    dsimp only
    cases hkind : typeName.size with
    | bytes n => exact iff_of_true ⟨_, rfl⟩ ⟨by simp [hkind], by simp [hkind]⟩
    | binary =>
      simp only [Option.map_some, hkind, Option.some.injEq, reduceCtorEq, false_imp_iff, and_true,
        true_imp_iff, ColumnDef.explainedSize]
      cases stoi (d.sizeText 6) with
      | error failure =>
        exact iff_of_false (by rintro ⟨_, h⟩; cases h) (by rintro ⟨_, h⟩; cases h)
      | ok n => exact iff_of_true ⟨_, rfl⟩ ⟨n, rfl⟩
    | char =>
      simp only [Option.map_some, hkind, Option.some.injEq, reduceCtorEq, false_imp_iff, true_and,
        true_imp_iff, ColumnDef.explainedSize]
      cases stoi (d.sizeText 4) with
      | error failure =>
        exact iff_of_false (by rintro ⟨_, h⟩; cases h) (by rintro ⟨_, h⟩; cases h)
      | ok n => exact iff_of_true ⟨_, rfl⟩ ⟨n, rfl⟩

theorem windows_isPrefix (after : List Char) (defs : List ColumnDef) :
    (windows after defs).map Prod.fst <+: defs := by
  induction defs with
  | nil => exact List.prefix_rfl
  | cons d ds ih =>
    cases ds with
    | nil => exact List.prefix_rfl
    | cons d' ds =>
      rw [windows]
      · split
        · exact List.prefix_cons_iff.mpr (Or.inr ⟨[], rfl, List.nil_prefix⟩)
        · exact List.prefix_cons_iff.mpr (Or.inr ⟨_, rfl, ih⟩)
      · exact List.cons_ne_nil _ _

/-- The loops come to every definition when only the last one may have `NULL] ` in
it. -/
theorem length_windows_iff (after : List Char) (defs : List ColumnDef) :
    (windows after defs).length = defs.length ↔ ∀ d ∈ defs.dropLast, ¬ listEnd <:+: d.text := by
  induction defs with
  | nil => simp [windows]
  | cons d ds ih =>
    cases ds with
    | nil => simp [windows]
    | cons d' ds =>
      rw [windows, List.dropLast_cons_of_ne_nil (List.cons_ne_nil _ _), List.forall_mem_cons]
      · split
        · rename_i hpart
          refine iff_of_false ?_ fun h => h.1 hpart
          rw [List.length_singleton, List.length_cons, List.length_cons]
          omega
        · rename_i hpart
          rw [List.length_cons, List.length_cons, Nat.succ_inj, ih]
          exact ⟨fun h => ⟨hpart, h⟩, fun h => h.2⟩
      · exact List.cons_ne_nil _ _

theorem exists_forall₂_iff {α β : Type} {R : α → β → Prop} {as : List α} :
    (∃ bs, List.Forall₂ R as bs) ↔ ∀ a ∈ as, ∃ b, R a b := by
  induction as with
  | nil => simp
  | cons a as ih =>
    rw [List.forall_mem_cons, ← ih]
    constructor
    · rintro ⟨bs, h⟩
      cases h with
      | cons hb hbs => exact ⟨⟨_, hb⟩, _, hbs⟩
    · rintro ⟨⟨b, hb⟩, bs, hbs⟩
      exact ⟨b :: bs, List.Forall₂.cons hb hbs⟩

theorem map_eq_of_forall₂ {α β γ : Type} {R : α → β → Prop} {f : α → γ} {g : β → γ} {as : List α}
    {bs : List β} (h : List.Forall₂ R as bs) (hR : ∀ a b, R a b → g b = f a) :
    bs.map g = as.map f := by
  induction h with
  | nil => rfl
  | cons hab _ ih => rw [List.map_cons, List.map_cons, hR _ _ hab, ih]

theorem RecoversColumns.explained {r : ShowColumns} (h : RecoversColumns r.row r.defs) :
    r.defs.length < 2 ^ 32 ∧ (windows r.after r.defs).length = r.defs.length ∧
      ∀ d ∈ r.defs, d.copiedName = d.name ∧ d.SizeReads := by
  obtain ⟨fuel, splits, schema, -, hschema, hnumber, hnames, -⟩ := h
  obtain ⟨hlt, hcount, hall⟩ := (explainToRowSchema_documented r schema).mp ⟨fuel, hschema⟩
  rw [hcount, UInt32.toNat_ofNat', Nat.mod_eq_of_lt hlt] at hnumber
  have hdefs := (windows_isPrefix r.after r.defs).eq_of_length (by rw [List.length_map, hnumber])
  have hcopied : r.defs.map (fun d => d.copiedName) = r.defs.map fun d => d.name := by
    rw [← hnames, ← hdefs, List.map_map]
    exact (map_eq_of_forall₂ hall fun w column hw => explained_name hw).symm
  refine ⟨by omega, hnumber, ?_⟩
  intro d hd
  refine ⟨List.map_inj_left.mp hcopied d hd, ?_⟩
  rw [← hdefs] at hd
  obtain ⟨w, hw, rfl⟩ := List.mem_map.mp hd
  exact explained_ok_iff.mp (exists_forall₂_iff.mp ⟨_, hall⟩ w hw)

/-- **When the schema has every column.** -/
theorem recoversColumns_iff (r : ShowColumns) :
    RecoversColumns r.row r.defs ↔
      r.defs.length < 2 ^ 32 ∧ (∀ d ∈ r.defs.dropLast, ¬ listEnd <:+: d.text) ∧
        ∀ d ∈ r.defs, (backtick ∉ d.name ∧ '\x00' ∉ d.name) ∧ d.SizeReads := by
  rw [← length_windows_iff r.after]
  constructor
  · intro h
    obtain ⟨hlt, hcount, hgood⟩ := h.explained
    exact ⟨hlt, hcount, fun d hd => ⟨(copiedName_eq_iff d).mp (hgood d hd).1, (hgood d hd).2⟩⟩
  · rintro ⟨hlt, hcount, hgood⟩
    obtain ⟨fuel, splits, hsplits, hsplitOf⟩ := splitShowColumns_documented r
    have hdefs := (windows_isPrefix r.after r.defs).eq_of_length (by rw [List.length_map, hcount])
    have hmakes : ∀ w ∈ windows r.after r.defs, ∃ column, w.1.explained w.2 = .ok column := by
      intro w hw
      have hmem : w.1 ∈ r.defs := by
        rw [← hdefs]
        exact List.mem_map_of_mem hw
      exact explained_ok_iff.mpr (hgood w.1 hmem).2
    obtain ⟨columns, hcolumns⟩ := exists_forall₂_iff.mpr hmakes
    refine ⟨fuel, splits, ⟨UInt32.ofNat (windows r.after r.defs).length, columns⟩, hsplits, ?_, ?_,
      ?_, ?_⟩
    · rw [explainToRowSchema, hsplits, Option.map_some, Option.some.injEq,
        showColumnsToRowSchemaHelper_ok_iff hsplitOf]
      exact ⟨by omega, rfl, hcolumns⟩
    · rw [UInt32.toNat_ofNat', Nat.mod_eq_of_lt (by omega), hcount]
    · have hnames := map_eq_of_forall₂ hcolumns fun w column hw => explained_name hw
      have hcopied : r.defs.map (fun d => d.copiedName) = r.defs.map fun d => d.name :=
        List.map_congr_left fun d hd => (copiedName_eq_iff d).mpr (hgood d hd).1
      rw [hnames, ← hcopied]
      conv => rhs; rw [← hdefs]
      rw [List.map_map]
      rfl
    · have htypes := map_eq_of_forall₂ hsplitOf
        (f := fun w : ColumnDef × List Char => w.1.type) (g := typeText r.row)
        fun w split hw => SplitOf.type hw
      rw [htypes]
      conv => rhs; rw [← hdefs]
      rw [List.map_map]
      rfl

/-- A column whose name has a backtick. -/
def backtickColumn : ColumnDef :=
  ⟨['a', backtick, 'b'], "int".toList, [], by decide, by decide, by decide, by decide⟩

def backtickRow : ShowColumns :=
  ⟨"ResultTable".toList, [backtickColumn], [], by decide, by decide, by decide⟩

/-- Its name comes out with two backticks. -/
theorem recoversColumns_backtick :
    backtickColumn.copiedName = ['a', backtick, backtick, 'b'] ∧
      ¬ RecoversColumns backtickRow.row backtickRow.defs := by
  refine ⟨by decide, ?_⟩
  intro h
  obtain ⟨-, -, hgood⟩ := h.explained
  have hname := (hgood backtickColumn (List.mem_singleton_self _)).1
  revert hname
  decide

end SasLibclient
