import Mathlib.Data.List.Find
import SasLibclient.Sql.ExplainedColumns

/-!
# The types of the columns of a query plan (`utils.cpp`)

The type and the size of a column should come from its own definition: from the
name in front of the parenthesis, the number behind it and the character set. The
helper compares only the first characters of the type, and the text where it looks
for the character set goes on behind the list for the last definition.
-/

namespace SasLibclient

open Quoting Search

variable {d : ColumnDef} {window : List Char} {column : ExplainedColumn} {n : Int}

/-- The type with this name. -/
def supportedType (base : List Char) : Option TypeName :=
  typeNames.find? fun typeName => typeName.name.toList == base

namespace ColumnDef

variable (d : ColumnDef)

/-- The name of the type, up to the parenthesis. -/
def base : List Char := (lower d.type).takeWhile fun c => c != '('

/-- The type of the column by the name of its type. -/
def columnType : ColumnType := (supportedType d.base).elim .unsupported fun typeName => typeName.type

/-- The size of the column by its definition. Unsupported columns have none. -/
def ownSize : Option Int :=
  (supportedType d.base).bind fun typeName =>
    match typeName.size with
    | .bytes n => some n
    | .binary => (stoi (d.sizeText 6)).toOption
    | .char => (stoi (d.sizeText 4)).toOption.map fun n => n * charSize d.charset

/-- The type is `CHAR(n)`, in upper or lower case. -/
def IsChar (n : Nat) : Prop :=
  lower d.type = "char(".toList ++ Nat.toDigits 10 n ++ ")".toList

/-- The column is as its own definition says. -/
structure Classified (column : ExplainedColumn) : Prop where
  type : column.type = d.columnType
  size : column.size = d.ownSize
  char : ∀ n, d.IsChar n → column.size = some (n * charSize d.charset)

/-- The name of the type is supported, or no supported name is the start of it. -/
def Recognized : Prop :=
  (supportedType d.base).isSome = true ∨ ∀ typeName ∈ typeNames, ¬ typeName.name.toList <+: d.base

/-- The size of a `CHAR` is an `int`. -/
def SizeFits : Prop :=
  d.base = "char".toList → ∀ n, stoi (d.sizeText 4) = .ok n →
    -2 ^ 31 ≤ n * charSize d.charset ∧ n * charSize d.charset < 2 ^ 31

/-- The text behind the type of a `CHAR` tells the character set. -/
def CharsetIn (window : List Char) : Prop :=
  d.base = "char".toList → ∀ n, stoi (d.sizeText 4) = .ok n →
    n = 0 ∨ charSize window = charSize d.charset

end ColumnDef

/-! ## Names of types -/

theorem foundType_eq (d : ColumnDef) :
    d.foundType = typeNames.find? fun typeName => typeName.name.toList.isPrefixOf d.base := by
  have hplain : ∀ typeName ∈ typeNames, ' ' ∉ typeName.name.toList ∧ '(' ∉ typeName.name.toList := by
    decide
  -- behind the name of the type there is a parenthesis or the space
  have hbehind : ∃ c rest, lower (d.type ++ [' ']) = d.base ++ c :: rest ∧ (c = '(' ∨ c = ' ') := by
    have hlower : lower (d.type ++ [' ']) = lower d.type ++ [' '] := List.map_append
    have hsplit := List.takeWhile_append_dropWhile (p := fun c => c != '(') (l := lower d.type)
    cases hdrop : (lower d.type).dropWhile fun c => c != '(' with
    | nil =>
      rw [hdrop, List.append_nil] at hsplit
      refine ⟨' ', [], ?_, Or.inr rfl⟩
      rw [hlower, ColumnDef.base, hsplit]
    | cons c rest =>
      have hc := List.head?_dropWhile_not (fun c => c != '(') (lower d.type)
      rw [hdrop] at hc hsplit
      refine ⟨c, rest ++ [' '], ?_, Or.inl (by simpa using hc)⟩
      rw [hlower, ← hsplit, List.append_assoc]
      rfl
  obtain ⟨c, rest, htext, hc⟩ := hbehind
  rw [ColumnDef.foundType, findTypeName]
  apply List.find?_congr
  intro typeName hmem
  obtain ⟨hspace, hparen⟩ := hplain typeName hmem
  rw [Bool.eq_iff_iff, List.isPrefixOf_iff_prefix, List.isPrefixOf_iff_prefix, htext]
  constructor
  · intro hfront
    refine List.prefix_of_prefix_length_le hfront (List.prefix_append _ _) ?_
    by_contra hlt
    have hget : typeName.name.toList[d.base.length]? = some c := by
      obtain ⟨more, hmore⟩ := hfront
      have hleft : (typeName.name.toList ++ more)[d.base.length]? =
          typeName.name.toList[d.base.length]? := List.getElem?_append_left (by omega)
      rw [← hleft, hmore, List.getElem?_append_right (Nat.le_refl _), Nat.sub_self]
      rfl
    have hmem := List.mem_of_getElem? hget
    rcases hc with rfl | rfl
    · exact hparen hmem
    · exact hspace hmem
  · exact fun hfront => hfront.trans (List.prefix_append _ _)

theorem supportedType_mem {typeName : TypeName} {base : List Char}
    (h : supportedType base = some typeName) :
    typeName ∈ typeNames ∧ typeName.name.toList = base := by
  have hname := List.find?_some h
  exact ⟨List.mem_of_find?_eq_some h, by simpa using hname⟩

theorem find_supported : ∀ typeName ∈ typeNames,
    (typeNames.find? fun other => other.name.toList.isPrefixOf typeName.name.toList) =
      some typeName := by
  decide

theorem foundType_of_supported {typeName : TypeName} (h : supportedType d.base = some typeName) :
    d.foundType = some typeName := by
  obtain ⟨hmem, hname⟩ := supportedType_mem h
  rw [foundType_eq, ← hname]
  exact find_supported typeName hmem

theorem recognized_iff (d : ColumnDef) : d.Recognized ↔ d.foundType = supportedType d.base := by
  unfold ColumnDef.Recognized
  cases hsupported : supportedType d.base with
  | some typeName => exact iff_of_true (Or.inl rfl) (foundType_of_supported hsupported)
  | none =>
    rw [foundType_eq, List.find?_eq_none]
    simp [List.isPrefixOf_iff_prefix]

theorem typeNames_supported : ∀ typeName ∈ typeNames, typeName.type ≠ .unsupported := by
  decide

/-- Only `CHAR` has its own size. -/
theorem typeNames_size_char : ∀ typeName ∈ typeNames,
    (typeName.size = .char ↔ typeName.name.toList = "char".toList) := by
  decide

/-! ## Sizes -/

/-- A size that is not too large is right when both factors are the same. -/
theorem intProduct_eq_iff {a b : Int} (hlow : -2 ^ 31 ≤ n) (hhigh : n < 2 ^ 31)
    (ha : a = 3 ∨ a = 4) (hb : b = 3 ∨ b = 4) :
    intProduct n a = n * b ↔ (-2 ^ 31 ≤ n * b ∧ n * b < 2 ^ 31) ∧ (n = 0 ∨ a = b) := by
  rw [intProduct, Int.bmod_def]
  rcases ha with rfl | rfl <;> rcases hb with rfl | rfl <;> split <;> omega

theorem charSize_cases (text : List Char) : charSize text = 3 ∨ charSize text = 4 := by
  unfold charSize
  split
  · exact Or.inr rfl
  · exact Or.inl rfl

theorem charSize_eq_of_infix {text text' : List Char}
    (h : "utf8mb4".toList <:+: lower text ↔ "utf8mb4".toList <:+: lower text') :
    charSize text = charSize text' := by
  have hne : "utf8mb4".toList ≠ [] := by decide
  rw [← findFrom_isSome_iff hne, ← findFrom_isSome_iff hne] at h
  unfold charSize
  simp only [h]

/-- Behind a definition inside the list, only its own character set is read. -/
theorem charSize_window (d : ColumnDef) : charSize d.window = charSize d.charset := by
  apply charSize_eq_of_infix
  have hlower : lower d.window = [] ++ ' ' :: (lower d.charset ++ 'n' :: "ull,".toList) := by
    simp [lower, ColumnDef.window, ColumnDef.tail]
  rw [hlower, infix_append_cons (by decide), infix_append_cons (by decide)]
  have hnil : ¬ "utf8mb4".toList <:+: ([] : List Char) := by decide
  have hnull : ¬ "utf8mb4".toList <:+: "ull,".toList := by decide
  exact ⟨fun h => (h.resolve_left hnil).resolve_right hnull, fun h => Or.inr (Or.inl h)⟩

/-- The number of a `CHAR(n)`. -/
theorem stoi_toDigits {m : Nat} (h : stoi (Nat.toDigits 10 m) = .ok n) : n = m := by
  have hdigits : ∀ c ∈ Nat.toDigits 10 m, c.isDigit = true :=
    fun _ => Decimal.isDigit_of_mem_toDigits
  have hne : Nat.toDigits 10 m ≠ [] := Nat.toDigits_ne_nil
  have hspaces : (Nat.toDigits 10 m).dropWhile isSpace = Nat.toDigits 10 m := by
    cases htext : Nat.toDigits 10 m with
    | nil => exact absurd htext hne
    | cons c cs =>
      have hc : c.isDigit = true := hdigits c (by rw [htext]; exact List.mem_cons_self)
      rw [List.dropWhile_cons_of_neg]
      intro hspace
      unfold isSpace at hspace
      simp only [Bool.or_eq_true, beq_iff_eq] at hspace
      rcases hspace with ((((rfl | rfl) | rfl) | rfl) | rfl) | rfl <;> cases hc
  have hsign : stoiSign (Nat.toDigits 10 m) = (false, Nat.toDigits 10 m) := by
    unfold stoiSign
    split
    · rename_i htext
      have hc := hdigits '-' (by rw [htext]; exact List.mem_cons_self)
      cases hc
    · rename_i htext
      have hc := hdigits '+' (by rw [htext]; exact List.mem_cons_self)
      cases hc
    · rfl
  have hread : Decimal.readNat (Nat.toDigits 10 m) = (m, []) := by
    have hnumber := Decimal.readNat_toDigits (n := m) Decimal.endsNumber_nil
    rwa [List.append_nil] at hnumber
  obtain ⟨-, rfl, -⟩ := stoi_ok_iff.mp h
  rw [stoiValue, hspaces, hsign, hread]
  rfl

theorem eq_of_toLower_isDigit {c : Char} (h : c.toLower.isDigit = true) : c.toLower = c := by
  unfold Char.toLower at h ⊢
  split
  · rename_i hupper
    rw [dif_pos hupper] at h
    -- the letters do not become digits
    exfalso
    obtain ⟨hlow, hhigh⟩ := hupper
    simp only [Char.isDigit, Bool.and_eq_true, decide_eq_true_eq, ge_iff_le,
      UInt32.le_iff_toNat_le, UInt32.toNat_add] at h hlow hhigh
    have hA : ('A' : Char).val.toNat = 65 := rfl
    have hZ : ('Z' : Char).val.toNat = 90 := rfl
    have hshift : (('a' : Char).val - ('A' : Char).val).toNat = 32 := rfl
    have hnine : ('9' : Char).val.toNat = 57 := rfl
    omega
  · rfl

theorem sizeText_char {m : Nat} (h : d.IsChar m) : d.sizeText 4 = Nat.toDigits 10 m := by
  have hlength := congrArg List.length h
  rw [length_lower] at hlength
  simp only [List.length_append] at hlength
  have hfive : "char(".toList.length = 5 := rfl
  have hone : ")".toList.length = 1 := rfl
  have hlower : lower (d.sizeText 4) = Nat.toDigits 10 m := by
    rw [ColumnDef.sizeText, if_pos (by omega), lower, List.map_take, List.map_drop]
    show ((lower d.type).drop 5).take _ = _
    rw [h, List.append_assoc, show (5 : Nat) = "char(".toList.length from rfl, List.drop_left,
      show d.type.length - (4 + 2) = (Nat.toDigits 10 m).length by omega, List.take_left]
  rw [← hlower]
  have hsame : (d.sizeText 4).map Char.toLower = (d.sizeText 4).map id := by
    apply List.map_congr_left
    intro c hc
    have hmem : c.toLower ∈ lower (d.sizeText 4) := List.mem_map_of_mem hc
    rw [hlower] at hmem
    exact eq_of_toLower_isDigit (Decimal.isDigit_of_mem_toDigits hmem)
  rw [List.map_id] at hsame
  exact hsame.symm

/-! ## One column -/

theorem supportedType_char : supportedType "char".toList = some ⟨"char", .fixed, .char⟩ := by
  decide

/-- The base of `CHAR(n)`. -/
theorem base_char {m : Nat} (h : d.IsChar m) : d.base = "char".toList := by
  rw [ColumnDef.base, h, List.append_assoc]
  show ("char".toList ++ '(' :: (Nat.toDigits 10 m ++ ")".toList)).takeWhile _ = _
  rw [takeWhile_of_notMem (by decide)]

/-- The size of a column whose type is found by its whole name. -/
theorem explainedSize_eq_iff {typeName : TypeName} {size : Int}
    (hsupported : supportedType d.base = some typeName)
    (hsize : d.explainedSize window typeName.size = .ok size) :
    some size = d.ownSize ↔ d.SizeFits ∧ d.CharsetIn window := by
  obtain ⟨hmem, hname⟩ := supportedType_mem hsupported
  have hchar := typeNames_size_char typeName hmem
  rw [hname] at hchar
  unfold ColumnDef.ownSize ColumnDef.SizeFits ColumnDef.CharsetIn
  rw [hsupported, Option.bind_some]
  cases hkind : typeName.size with
  | bytes n =>
    rw [hkind] at hsize hchar
    have hbase : d.base ≠ "char".toList := fun h => nomatch hchar.mpr h
    obtain rfl := Except.ok.inj hsize
    exact iff_of_true rfl ⟨fun h => absurd h hbase, fun h => absurd h hbase⟩
  | binary =>
    rw [hkind] at hsize hchar
    have hbase : d.base ≠ "char".toList := fun h => nomatch hchar.mpr h
    have hread : stoi (d.sizeText 6) = .ok size := hsize
    refine iff_of_true ?_ ⟨fun h => absurd h hbase, fun h => absurd h hbase⟩
    dsimp only
    rw [hread]
    rfl
  | char =>
    rw [hkind] at hsize hchar
    have hbase := hchar.mp rfl
    unfold ColumnDef.explainedSize at hsize
    cases hread : stoi (d.sizeText 4) with
    | error failure =>
      dsimp only at hsize
      rw [hread] at hsize
      cases hsize
    | ok n =>
      dsimp only at hsize ⊢
      rw [hread] at hsize
      obtain rfl := Except.ok.inj hsize
      obtain ⟨-, -, hlow, hhigh⟩ := stoi_ok_iff.mp hread
      have hproduct := intProduct_eq_iff hlow hhigh (charSize_cases window) (charSize_cases d.charset)
      constructor
      · intro h
        have hsame : intProduct n (charSize window) = n * charSize d.charset := Option.some.inj h
        obtain ⟨hrange, hcharset⟩ := hproduct.mp hsame
        refine ⟨fun _ m hm => ?_, fun _ m hm => ?_⟩
        · obtain rfl := Except.ok.inj hm
          exact hrange
        · obtain rfl := Except.ok.inj hm
          exact hcharset
      · rintro ⟨hfits, hcharset⟩
        exact congrArg some (hproduct.mpr ⟨hfits hbase n rfl, hcharset hbase n rfl⟩)

/-- **When a column is as its own definition says.** -/
theorem explained_classified_iff (h : d.explained window = .ok column) :
    d.Classified column ↔ d.Recognized ∧ d.SizeFits ∧ d.CharsetIn window := by
  rw [recognized_iff]
  cases hsupported : supportedType d.base with
  | none =>
    have hbase : d.base ≠ "char".toList := by
      intro hbase
      rw [hbase, supportedType_char] at hsupported
      cases hsupported
    have hown : d.columnType = .unsupported ∧ d.ownSize = none := by
      rw [ColumnDef.columnType, ColumnDef.ownSize, hsupported]
      exact ⟨rfl, rfl⟩
    cases hfound : d.foundType with
    | none =>
      obtain rfl := explained_none hfound h
      exact iff_of_true ⟨hown.1.symm, hown.2.symm, fun m hm => absurd (base_char hm) hbase⟩
        ⟨rfl, fun h => absurd h hbase, fun h => absurd h hbase⟩
    | some typeName =>
      -- a name that only starts with a supported one
      obtain ⟨size, -, rfl⟩ := explained_some hfound h
      refine iff_of_false ?_ (by rintro ⟨hcontra, -⟩; cases hcontra)
      intro hclassified
      have htype := hclassified.type.trans hown.1
      exact typeNames_supported typeName (foundType_mem hfound) htype
  | some typeName =>
    have hfound := foundType_of_supported hsupported
    obtain ⟨size, hsize, rfl⟩ := explained_some hfound h
    have htype : d.columnType = typeName.type := by
      rw [ColumnDef.columnType, hsupported]
      rfl
    rw [hfound, ← explainedSize_eq_iff hsupported hsize]
    constructor
    · exact fun hclassified => ⟨rfl, hclassified.size⟩
    · rintro ⟨-, hown⟩
      refine ⟨htype.symm, hown, ?_⟩
      intro m hm
      have hbase := base_char hm
      rw [hbase, supportedType_char] at hsupported
      obtain rfl := Option.some.inj hsupported
      rw [hown, ColumnDef.ownSize, hbase, supportedType_char, Option.bind_some]
      dsimp only
      cases hread : stoi (d.sizeText 4) with
      | error failure =>
        have hsize' : d.explainedSize window .char = .ok size := hsize
        unfold ColumnDef.explainedSize at hsize'
        dsimp only at hsize'
        rw [hread] at hsize'
        cases hsize'
      | ok n =>
        have hread' := hread
        rw [sizeText_char hm] at hread'
        rw [stoi_toDigits hread']
        rfl

/-! ## The list -/

/-- The definitions up to the first one that has `NULL] ` in it. -/
def reached : List ColumnDef → List ColumnDef
  | [] => []
  | [d] => [d]
  | d :: ds => if listEnd <:+: d.text then [d] else d :: reached ds

/-- Every column that the schema has is as its own definition says. -/
def ClassifiesOwn (s : StdString) (defs : List ColumnDef) : Prop :=
  ∃ fuel schema, explainToRowSchema s fuel = some (.ok schema) ∧
    ∀ (i : Nat) (column : ExplainedColumn) (d : ColumnDef), schema.columnInfo[i]? = some column →
      defs[i]? = some d → d.Classified column

theorem windows_map_fst (after : List Char) (defs : List ColumnDef) :
    (windows after defs).map Prod.fst = reached defs := by
  induction defs with
  | nil => rfl
  | cons d ds ih =>
    cases ds with
    | nil => rfl
    | cons d' ds =>
      rw [windows, reached]
      · split
        · rfl
        · rw [List.map_cons, ih]
      · exact List.cons_ne_nil _ _
      · exact List.cons_ne_nil _ _

/-- Only the last definition of the list has a window behind the list. -/
theorem mem_windows {after : List Char} {defs : List ColumnDef} {w : ColumnDef × List Char}
    (h : w ∈ windows after defs) :
    w.2 = w.1.window ∨ reached defs = defs ∧ defs.getLast? = some w.1 ∧
      w.2 = w.1.lastWindow after := by
  induction defs with
  | nil => cases h
  | cons d ds ih =>
    cases ds with
    | nil =>
      obtain rfl := List.mem_singleton.mp h
      exact Or.inr ⟨rfl, rfl, rfl⟩
    | cons d' ds =>
      rw [windows] at h
      · by_cases hpart : listEnd <:+: d.text
        · rw [if_pos hpart] at h
          obtain rfl := List.mem_singleton.mp h
          exact Or.inl rfl
        · rw [if_neg hpart] at h
          rcases List.mem_cons.mp h with rfl | h
          · exact Or.inl rfl
          · rcases ih h with hown | ⟨hreached, hlast, hwindow⟩
            · exact Or.inl hown
            · refine Or.inr ⟨?_, ?_, hwindow⟩
              · rw [reached, if_neg hpart, hreached]
                exact List.cons_ne_nil _ _
              · rw [List.getLast?_cons_cons, hlast]
      · exact List.cons_ne_nil _ _

theorem last_mem_windows {after : List Char} {defs : List ColumnDef}
    (hreached : reached defs = defs) (hlast : defs.getLast? = some d) :
    (d, d.lastWindow after) ∈ windows after defs := by
  induction defs with
  | nil => cases hlast
  | cons first ds ih =>
    cases ds with
    | nil =>
      obtain rfl := Option.some.inj hlast
      exact List.mem_singleton_self _
    | cons d' ds =>
      rw [reached] at hreached
      · by_cases hpart : listEnd <:+: first.text
        · rw [if_pos hpart] at hreached
          cases hreached
        · rw [if_neg hpart] at hreached
          rw [List.getLast?_cons_cons] at hlast
          rw [windows, if_neg hpart]
          · exact List.mem_cons_of_mem _ (ih (List.cons.inj hreached).2 hlast)
          · exact List.cons_ne_nil _ _
      · exact List.cons_ne_nil _ _

theorem getElem?_iff_forall₂ {Q : ColumnDef → ExplainedColumn → Prop}
    {R : ColumnDef × List Char → ExplainedColumn → Prop} {ws : List (ColumnDef × List Char)}
    {columns : List ExplainedColumn} {defs : List ColumnDef} (h : List.Forall₂ R ws columns)
    (hfront : ws.map Prod.fst <+: defs) :
    (∀ (i : Nat) (column : ExplainedColumn) (d : ColumnDef), columns[i]? = some column →
        defs[i]? = some d → Q d column) ↔
      List.Forall₂ (fun w column => Q w.1 column) ws columns := by
  induction h generalizing defs with
  | nil => simp
  | @cons w column ws columns _ _ ih =>
    obtain ⟨rest, rfl⟩ := hfront
    rw [List.forall₂_cons, ← ih (List.prefix_append _ rest)]
    constructor
    · intro hall
      exact ⟨hall 0 column w.1 rfl rfl, fun i => hall (i + 1)⟩
    · rintro ⟨hfirst, hall⟩ i other d hother hd
      cases i with
      | zero =>
        obtain rfl := Option.some.inj hother
        obtain rfl := Option.some.inj hd
        exact hfirst
      | succ i => exact hall i other d hother hd

theorem classified_windows_iff {ws : List (ColumnDef × List Char)} {columns : List ExplainedColumn}
    (h : List.Forall₂ (fun w column => w.1.explained w.2 = .ok column) ws columns) :
    List.Forall₂ (fun w column => w.1.Classified column) ws columns ↔
      ∀ w ∈ ws, w.1.Recognized ∧ w.1.SizeFits ∧ w.1.CharsetIn w.2 := by
  induction h with
  | nil => simp
  | cons hcolumn _ ih =>
    rw [List.forall₂_cons, List.forall_mem_cons, explained_classified_iff hcolumn, ih]

theorem ClassifiesOwn.explained {r : ShowColumns} (h : ClassifiesOwn r.row r.defs) :
    (windows r.after r.defs).length < 2 ^ 32 ∧ ∀ w ∈ windows r.after r.defs,
      w.1.SizeReads ∧ w.1.Recognized ∧ w.1.SizeFits ∧ w.1.CharsetIn w.2 := by
  obtain ⟨fuel, schema, hok, hown⟩ := h
  obtain ⟨hlt, -, hall⟩ := (explainToRowSchema_documented r schema).mp ⟨fuel, hok⟩
  rw [getElem?_iff_forall₂ hall (windows_isPrefix r.after r.defs), classified_windows_iff hall] at hown
  exact ⟨hlt, fun w hw => ⟨explained_ok_iff.mp (exists_forall₂_iff.mp ⟨_, hall⟩ w hw), hown w hw⟩⟩

/-- **When the types and sizes depend on their own definitions.** -/
theorem classifiesOwn_iff (r : ShowColumns) :
    ClassifiesOwn r.row r.defs ↔
      (reached r.defs).length < 2 ^ 32 ∧
        (∀ d ∈ reached r.defs, d.Recognized ∧ d.SizeReads ∧ d.SizeFits) ∧
        ∀ d, reached r.defs = r.defs → r.defs.getLast? = some d →
          d.CharsetIn (d.lastWindow r.after) := by
  have hreached := windows_map_fst r.after r.defs
  have hcount : (windows r.after r.defs).length = (reached r.defs).length := by
    rw [← hreached, List.length_map]
  constructor
  · intro h
    obtain ⟨hlt, hgood⟩ := h.explained
    refine ⟨by omega, ?_, ?_⟩
    · intro d hd
      rw [← hreached] at hd
      obtain ⟨w, hw, rfl⟩ := List.mem_map.mp hd
      obtain ⟨hreads, hrecognized, hfits, -⟩ := hgood w hw
      exact ⟨hrecognized, hreads, hfits⟩
    · intro d hwhole hlast
      exact (hgood _ (last_mem_windows hwhole hlast)).2.2.2
  · rintro ⟨hlt, hgood, hlast⟩
    have hmem : ∀ w ∈ windows r.after r.defs, w.1 ∈ reached r.defs := by
      intro w hw
      rw [← hreached]
      exact List.mem_map_of_mem hw
    have hmakes : ∀ w ∈ windows r.after r.defs, ∃ column, w.1.explained w.2 = .ok column :=
      fun w hw => explained_ok_iff.mpr (hgood w.1 (hmem w hw)).2.1
    obtain ⟨columns, hall⟩ := exists_forall₂_iff.mpr hmakes
    obtain ⟨fuel, hok⟩ := (explainToRowSchema_documented r
      ⟨UInt32.ofNat (windows r.after r.defs).length, columns⟩).mpr ⟨by omega, rfl, hall⟩
    refine ⟨fuel, _, hok, ?_⟩
    rw [getElem?_iff_forall₂ hall (windows_isPrefix r.after r.defs), classified_windows_iff hall]
    intro w hw
    obtain ⟨hrecognized, -, hfits⟩ := hgood w.1 (hmem w hw)
    refine ⟨hrecognized, hfits, ?_⟩
    rcases mem_windows hw with hwindow | ⟨hwhole, hlast', hwindow⟩
    · rw [hwindow]
      exact fun _ n _ => Or.inr (charSize_window w.1)
    · rw [hwindow]
      exact hlast w.1 hwhole hlast'

/-- A column of a type that the library does not support. -/
def timestampColumn : ColumnDef :=
  { backtickColumn with type := "timestamp".toList, type_space := by decide }

def timestampRow : ShowColumns :=
  { backtickRow with defs := [timestampColumn], defs_ne := by decide, length_lt := by decide }

/-- Its type is taken for `TIME`. -/
theorem classifiesOwn_timestamp :
    timestampColumn.columnType = .unsupported ∧
      timestampColumn.foundType = some ⟨"time", .time, .bytes 8⟩ ∧
      ¬ ClassifiesOwn timestampRow.row timestampRow.defs := by
  refine ⟨by decide, by decide, ?_⟩
  intro h
  obtain ⟨-, hgood⟩ := h.explained
  obtain ⟨-, hrecognized, -⟩ := hgood (timestampColumn, timestampColumn.lastWindow [])
    (List.mem_singleton_self _)
  have hfound := (recognized_iff timestampColumn).mp hrecognized
  revert hfound
  decide

end SasLibclient
