import SasLibclient.Sql.ExplainLoops

/-!
# Lists of columns in a query plan (`utils.cpp`)

The form that `ExplainToRowSchema` documents, and what its loops cut out of a row
in this form. They stop at the first `NULL] ` of the row, also where that is a
part of a definition.
-/

namespace SasLibclient

open Quoting Search

/-- A column as the server shows it: its type has no spaces, and what comes
between the type and `NULL` has no commas or backticks. -/
structure ColumnDef where
  name : List Char
  type : List Char
  charset : List Char
  name_ne : name ≠ []
  type_space : ' ' ∉ type
  charset_comma : ',' ∉ charset
  charset_backtick : backtick ∉ charset

def listStart : List Char := " show_columns:[".toList

def listEnd : List Char := "NULL] ".toList

namespace ColumnDef

variable (d : ColumnDef)

/-- The name with doubled backticks. -/
def escaped : List Char := escape backtick backtick d.name

/-- The quoted name, a space and the type. -/
def head : List Char := quote backtick backtick d.name ++ ' ' :: d.type

/-- What comes after the space behind the type. -/
def tail : List Char := d.charset ++ "NULL".toList

def text : List Char := d.head ++ ' ' :: d.tail

/-- From the space behind the type to the comma behind the definition. -/
def window : List Char := ' ' :: (d.tail ++ [','])

/-- The same for the last definition of the list: up to the first comma behind
the list or, without one, to the first `NULL] `. When that is in front of the
type's end, up to the end of the row. -/
def lastWindow (after : List Char) : List Char :=
  if ',' ∈ after then
    ' ' :: (d.tail ++ "] ".toList ++ after.takeWhile (fun c => c != ',') ++ [','])
  else if listEnd <:+: d.head ++ [' '] then
    ' ' :: (d.tail ++ "] ".toList ++ after)
  else
    ' ' :: d.tail.take ((findFrom listEnd (d.tail ++ "] ".toList) 0).getD 0 + 1)

/-- The offsets of a definition that begins at `start`. -/
def split (start : Nat) (fieldEnd : UInt64) : FieldDefSplit where
  nameStart := UInt64.ofNat (start + 1)
  nameEnd := UInt64.ofNat (start + d.escaped.length)
  typeStart := UInt64.ofNat (start + d.escaped.length + 3)
  typeEnd := UInt64.ofNat (start + d.head.length)
  fieldEnd := fieldEnd

end ColumnDef

/-- The definitions with `, ` between them. -/
def joinDefs : List ColumnDef → List Char
  | [] => []
  | [d] => d.text
  | d :: ds => d.text ++ ',' :: ' ' :: joinDefs ds

/-- A row with its list of columns. -/
structure ShowColumns where
  before : List Char
  defs : List ColumnDef
  after : List Char
  before_first : ¬ listStart <:+: before
  defs_ne : defs ≠ []
  length_lt : (before ++ (listStart ++ (joinDefs defs ++ ("] ".toList ++ after)))).length < 2 ^ 63

def ShowColumns.row (r : ShowColumns) : StdString where
  chars := r.before ++ (listStart ++ (joinDefs r.defs ++ ("] ".toList ++ r.after)))
  length_lt := r.length_lt

/-- The definitions that the loop comes to, with the text from behind the type to
`field_end`: up to the first definition that has `NULL] ` in it. -/
def windows (after : List Char) : List ColumnDef → List (ColumnDef × List Char)
  | [] => []
  | [d] => [(d, d.lastWindow after)]
  | d :: ds =>
    if listEnd <:+: d.text then [(d, d.window)] else (d, d.window) :: windows after ds

variable {s : StdString} {d : ColumnDef} {pre post gap after : List Char} {e fuel i : Nat}

theorem length_head (d : ColumnDef) :
    d.head.length = d.escaped.length + 3 + d.type.length := by
  simp only [ColumnDef.head, ColumnDef.escaped, quote, List.length_append, List.length_cons,
    List.length_nil]
  omega

theorem length_text (d : ColumnDef) : d.text.length = d.head.length + (1 + d.tail.length) := by
  rw [ColumnDef.text, List.length_append, List.length_cons]
  omega

theorem text_eq (d : ColumnDef) :
    d.text = backtick :: (d.escaped ++ backtick :: (' ' :: (d.type ++ ' ' :: d.tail))) := by
  simp [ColumnDef.text, ColumnDef.head, ColumnDef.escaped, quote]

theorem tail_listEnd (d : ColumnDef) : d.tail ++ "] ".toList = d.charset ++ listEnd := by
  rw [ColumnDef.tail, List.append_assoc]
  rfl

theorem tail_comma (d : ColumnDef) : ',' ∉ d.tail := by
  intro h
  rcases List.mem_append.mp h with h | h
  · exact d.charset_comma h
  · revert h
    decide

/-! ## One definition -/

/-- The first backtick from a position in front of the definition on. -/
theorem find_backtick_documented (hdrop : s.chars.drop e = gap ++ (d.text ++ post))
    (hgap : backtick ∉ gap) (he : e + gap.length = pre.length) :
    findFrom [backtick] s.chars e = some pre.length := by
  rw [findFrom_drop, hdrop, text_eq, List.cons_append, findFrom_singleton hgap, Option.map_some,
    he]

section OneDefinition

variable (hchars : s.chars = pre ++ (d.text ++ post))

include hchars

theorem length_lt_of_split : pre.length + d.text.length < 2 ^ 63 := by
  have hlength := congrArg List.length hchars
  have hlt := s.length_lt
  rw [List.length_append, List.length_append] at hlength
  omega

theorem drop_after_opening :
    s.chars.drop (pre.length + 1) =
      d.escaped ++ backtick :: (' ' :: (d.type ++ ' ' :: (d.tail ++ post))) := by
  rw [hchars, text_eq, ← List.drop_drop, List.drop_left]
  simp

theorem drop_typeStart :
    s.chars.drop (pre.length + d.escaped.length + 3) = d.type ++ ' ' :: (d.tail ++ post) := by
  rw [show pre.length + d.escaped.length + 3 = pre.length + 1 + (d.escaped.length + 2) by omega,
    ← List.drop_drop, drop_after_opening hchars, ← List.drop_drop, List.drop_left]
  rfl

theorem drop_typeEnd :
    s.chars.drop (pre.length + d.head.length) = ' ' :: (d.tail ++ post) := by
  rw [length_head, show pre.length + (d.escaped.length + 3 + d.type.length) =
    pre.length + d.escaped.length + 3 + d.type.length by omega, ← List.drop_drop,
    drop_typeStart hchars, List.drop_left]

theorem closing_documented :
    closing s.chars (pre.length + 1) = some (pre.length + d.escaped.length + 1) := by
  have hscan : scanBody backtick (s.chars.drop (pre.length + 1)) =
      some (d.name, ' ' :: (d.type ++ ' ' :: (d.tail ++ post))) := by
    rw [drop_after_opening hchars]
    exact scanBody_escape (by simp [backtick])
  have hlength := congrArg List.length (drop_after_opening hchars)
  rw [closing, hscan, Option.map_some, Option.some.injEq]
  simp only [List.length_drop, List.length_append, List.length_cons] at hlength ⊢
  omega

theorem find_space_documented :
    findFrom [' '] s.chars (pre.length + d.escaped.length + 3) =
      some (pre.length + d.head.length) := by
  rw [findFrom_drop, drop_typeStart hchars, findFrom_singleton d.type_space, length_head]
  rw [Option.map_some, Option.some.injEq]
  omega

/-- **One turn** cuts out the definition. -/
theorem nextFieldDef_documented (stop : UInt64)
    (hdrop : s.chars.drop e = gap ++ (d.text ++ post))
    (hgap : backtick ∉ gap) (he : e + gap.length = pre.length) (hfuel : s.chars.length < fuel) :
    nextFieldDef s fuel stop (UInt64.ofNat e) =
      some (d.split pre.length
        ((findFrom [','] s.chars (pre.length + d.head.length)).elim stop UInt64.ofNat)) := by
  have hlt := length_lt_of_split hchars
  have hlength := length_head d
  have htext := length_text d
  have hstart : s.find [backtick] (UInt64.ofNat e) + 1 = UInt64.ofNat (pre.length + 1) := by
    rw [StdString.find, toNat_ofNat_lt (by omega), find_backtick_documented hdrop hgap he,
      position, UInt64.ofNat_add]
    rfl
  have hclosing := closing_documented hchars
  have hend : position (some (pre.length + d.escaped.length + 1)) - 1 =
      UInt64.ofNat (pre.length + d.escaped.length) := by
    rw [position, UInt64.ofNat_add]
    exact UInt64.add_sub_cancel _ _
  have htype : UInt64.ofNat (pre.length + d.escaped.length) + 3 =
      UInt64.ofNat (pre.length + d.escaped.length + 3) := by
    rw [UInt64.ofNat_add (pre.length + d.escaped.length) 3]
    rfl
  rw [nextFieldDef_eq ?_ hfuel]
  · unfold splitFrom
    dsimp only
    rw [hstart, toNat_ofNat_lt (by omega), hclosing, hend, htype, StdString.find,
      toNat_ofNat_lt (by omega), find_space_documented hchars, commaFrom,
      find_space_documented hchars]
    rfl
  · -- the name is complete
    rw [hstart, toNat_ofNat_lt (by omega), hclosing]
    intro h
    cases h

/-- The comma behind a definition. -/
theorem find_comma_documented {rest : List Char} (hpost : post = ',' :: rest) :
    findFrom [','] s.chars (pre.length + d.head.length) = some (pre.length + d.text.length) := by
  have hcomma : ',' ∉ ' ' :: d.tail := by
    intro h
    rcases List.mem_cons.mp h with h | h
    · cases h
    · exact tail_comma d h
  rw [findFrom_drop, drop_typeEnd hchars, hpost, ← List.cons_append, findFrom_singleton hcomma,
    Option.map_some, ColumnDef.text, List.length_append, Nat.add_assoc]

/-- The first comma behind the last definition. -/
theorem find_comma_last (hpost : post = ']' :: ' ' :: after) :
    findFrom [','] s.chars (pre.length + d.head.length) =
      if ',' ∈ after then
        some (pre.length + d.text.length + 2 + (after.takeWhile fun c => c != ',').length)
      else none := by
  have hcomma : ',' ∉ ' ' :: (d.tail ++ [']', ' ']) := by
    intro h
    rcases List.mem_cons.mp h with h | h
    · cases h
    rcases List.mem_append.mp h with h | h
    · exact tail_comma d h
    · revert h
      decide
  have hdrop : s.chars.drop (pre.length + d.head.length) =
      ' ' :: (d.tail ++ [']', ' ']) ++ after := by
    rw [drop_typeEnd hchars, hpost]
    simp
  have hlength := length_text d
  rw [findFrom_drop, hdrop]
  split
  · rename_i hafter
    obtain ⟨front, rest, rfl, hfront⟩ := List.eq_append_cons_of_mem hafter
    have hnone : ',' ∉ ' ' :: (d.tail ++ [']', ' ']) ++ front :=
      fun h => (List.mem_append.mp h).elim hcomma hfront
    rw [← List.append_assoc, findFrom_singleton hnone, takeWhile_of_notMem hfront, Option.map_some,
      Option.some.injEq, hlength]
    simp only [List.length_append, List.length_cons, List.length_nil]
    omega
  · rename_i hafter
    rw [findFrom_singleton_none fun h => (List.mem_append.mp h).elim hcomma hafter]
    rfl

end OneDefinition

/-! ## The end of the list -/

theorem listEnd_ne : listEnd ≠ [] := List.cons_ne_nil _ _

theorem find_listEnd_space (front rest : List Char) :
    findFrom listEnd (front ++ ' ' :: rest) 0 =
      match findFrom listEnd (front ++ [' ']) 0 with
      | some i => some i
      | none => (findFrom listEnd rest 0).map (front.length + 1 + ·) :=
  findFrom_separator listEnd_ne (by decide)

theorem find_listEnd_cons (d : ColumnDef) (rest : List Char) :
    findFrom listEnd (d.text ++ ',' :: ' ' :: rest) 0 =
      match findFrom listEnd (d.text ++ [',']) 0 with
      | some i => some i
      | none => (findFrom listEnd rest 0).map (d.text.length + 2 + ·) := by
  have hspace : findFrom listEnd (' ' :: rest) 0 = (findFrom listEnd rest 0).map (1 + ·) := by
    have hsplit := find_listEnd_space [] rest
    have hnone : findFrom listEnd ([] ++ [' ']) 0 = none := by decide
    rw [hnone] at hsplit
    exact hsplit
  rw [findFrom_separator listEnd_ne (by decide), hspace, Option.map_map]
  cases findFrom listEnd (d.text ++ [',']) 0 with
  | some i => rfl
  | none =>
    dsimp only
    congr 1
    funext i
    simp only [Function.comp_apply]
    omega

theorem find_listEnd_isSome_iff (d : ColumnDef) :
    (findFrom listEnd (d.text ++ [',']) 0).isSome = true ↔ listEnd <:+: d.text := by
  rw [findFrom_isSome_iff listEnd_ne, infix_append_cons (by decide), List.infix_nil]
  exact or_iff_left listEnd_ne

theorem find_listEnd_last (d : ColumnDef) (after : List Char) :
    ∃ i, findFrom listEnd (d.text ++ ']' :: ' ' :: after) 0 = some i ∧ i < d.text.length ∧
      (listEnd <:+: d.head ++ [' '] ∧ i + 5 ≤ d.head.length ∨
        ¬ listEnd <:+: d.head ++ [' '] ∧ ∃ j, findFrom listEnd (d.tail ++ "] ".toList) 0 = some j ∧
          j < d.tail.length ∧ i = d.head.length + 1 + j) := by
  have hsix : listEnd.length = 6 := rfl
  -- the end of the list itself
  have hfound : (findFrom listEnd (d.tail ++ "] ".toList) 0).isSome = true := by
    rw [findFrom_isSome_iff listEnd_ne, tail_listEnd]
    exact (List.suffix_append _ _).isInfix
  obtain ⟨j, hj⟩ := Option.isSome_iff_exists.mp hfound
  have hjlt : j < d.tail.length := by
    have hle := ((findFrom_eq_some_iff listEnd_ne).mp hj).2.1.length_le
    rw [List.length_drop, List.length_append, hsix] at hle
    have htwo : "] ".toList.length = 2 := rfl
    omega
  have hlength := length_text d
  have hfront : findFrom listEnd (d.text ++ ']' :: ' ' :: after) 0 =
      findFrom listEnd (d.text ++ "] ".toList) 0 := by
    have hsplit := find_listEnd_space (d.text ++ [']']) after
    rw [List.append_assoc, List.append_assoc] at hsplit
    cases hwhole : findFrom listEnd (d.text ++ ([']'] ++ [' '])) 0 with
    | some i =>
      rw [hwhole] at hsplit
      exact hsplit.trans hwhole.symm
    | none =>
      have hpart : listEnd <:+: d.text ++ ([']'] ++ [' ']) := by
        refine ⟨d.head ++ ' ' :: d.charset, [], ?_⟩
        show _ = d.head ++ ' ' :: d.tail ++ "] ".toList
        rw [List.append_nil, List.append_assoc, List.append_assoc, List.cons_append, ← tail_listEnd]
        rfl
      rw [← findFrom_isSome_iff listEnd_ne, hwhole] at hpart
      cases hpart
  have htext : d.text ++ "] ".toList = d.head ++ ' ' :: (d.tail ++ "] ".toList) := by
    rw [ColumnDef.text, List.append_assoc, List.cons_append]
  rw [hfront, htext, find_listEnd_space]
  cases hhead : findFrom listEnd (d.head ++ [' ']) 0 with
  | some i =>
    have hle := ((findFrom_eq_some_iff listEnd_ne).mp hhead).2.1.length_le
    have hlt := findFrom_lt listEnd_ne hhead
    rw [List.length_drop, hsix] at hle
    rw [List.length_append, List.length_singleton] at hle hlt
    refine ⟨i, rfl, by omega, Or.inl ⟨?_, by omega⟩⟩
    rw [← findFrom_isSome_iff listEnd_ne, hhead]
    rfl
  | none =>
    refine ⟨d.head.length + 1 + j, ?_, by omega, Or.inr ⟨?_, j, hj, hjlt, rfl⟩⟩
    · dsimp only
      rw [hj]
      rfl
    · rw [← findFrom_isSome_iff listEnd_ne, hhead]
      exact Bool.false_ne_true

theorem joinDefs_cons (d d' : ColumnDef) (ds : List ColumnDef) (rest : List Char) :
    joinDefs (d :: d' :: ds) ++ rest = d.text ++ ',' :: ' ' :: (joinDefs (d' :: ds) ++ rest) := by
  rw [joinDefs, List.append_assoc, List.cons_append, List.cons_append]
  exact List.cons_ne_nil _ _

theorem listEnd_infix_joinDefs (ds : List ColumnDef) (after : List Char) :
    listEnd <:+: joinDefs (d :: ds) ++ ("] ".toList ++ after) := by
  induction ds generalizing d with
  | nil =>
    refine ⟨d.head ++ ' ' :: d.charset, after, ?_⟩
    have hlist : joinDefs [d] ++ ("] ".toList ++ after) =
        d.head ++ ' ' :: (d.tail ++ "] ".toList ++ after) := by
      simp only [joinDefs, ColumnDef.text, List.append_assoc, List.cons_append]
    rw [hlist, tail_listEnd]
    simp only [List.append_assoc, List.cons_append]
  | cons d' ds ih =>
    obtain ⟨front, back, heq⟩ := ih (d := d')
    refine ⟨d.text ++ ',' :: ' ' :: front, back, ?_⟩
    rw [joinDefs_cons, ← heq]
    simp

/-! ## The list -/

/-- The offsets are those of a definition of the row, and the text up to
`field_end` is the window. -/
structure SplitOf (s : StdString) (w : ColumnDef × List Char) (split : FieldDefSplit) :
    Prop where
  offsets : ∃ pre post, s.chars = pre ++ (w.1.text ++ post) ∧
    split = w.1.split pre.length split.fieldEnd
  window : (s.chars.drop split.typeEnd.toNat).take
    (split.fieldEnd - split.typeEnd + 1).toNat = w.2

theorem toNat_count {a b : Nat} (hb : b < 2 ^ 63) (hle : a ≤ b) :
    (UInt64.ofNat b - UInt64.ofNat a + 1).toNat = b - a + 1 := by
  have hone : (1 : UInt64).toNat = 1 := rfl
  rw [UInt64.toNat_add, UInt64.toNat_sub, toNat_ofNat_lt hb, toNat_ofNat_lt (by omega)]
  omega

theorem toNat_count_wraps {a b : Nat} (ha : a < 2 ^ 63) (hlt : b + 2 ≤ a) :
    2 ^ 63 ≤ (UInt64.ofNat b - UInt64.ofNat a + 1).toNat := by
  have hone : (1 : UInt64).toNat = 1 := rfl
  rw [UInt64.toNat_add, UInt64.toNat_sub, toNat_ofNat_lt ha, toNat_ofNat_lt (by omega)]
  omega

theorem splitOf_cons {rest : List Char} (hchars : s.chars = pre ++ (d.text ++ post))
    (hpost : post = ',' :: rest) :
    SplitOf s (d, d.window) (d.split pre.length (UInt64.ofNat (pre.length + d.text.length))) := by
  have hlt := length_lt_of_split hchars
  have hlength := length_text d
  refine ⟨⟨pre, post, hchars, rfl⟩, ?_⟩
  simp only [ColumnDef.split]
  rw [toNat_count (by omega) (by omega), toNat_ofNat_lt (by omega), drop_typeEnd hchars, hpost,
    ColumnDef.window]
  have hcount : pre.length + d.text.length - (pre.length + d.head.length) + 1 =
      (' ' :: (d.tail ++ [','])).length := by
    simp only [List.length_append, List.length_cons, List.length_nil]
    omega
  have hfront : ' ' :: (d.tail ++ ',' :: rest) = ' ' :: (d.tail ++ [',']) ++ rest := by
    simp
  rw [hcount, hfront, List.take_left]

theorem splitOf_last (hchars : s.chars = pre ++ (d.text ++ post))
    (hpost : post = ']' :: ' ' :: after)
    (hi : findFrom listEnd (d.text ++ post) 0 = some i) :
    SplitOf s (d, d.lastWindow after) (d.split pre.length
      ((findFrom [','] s.chars (pre.length + d.head.length)).elim (UInt64.ofNat (pre.length + i))
        UInt64.ofNat)) := by
  have hlt := length_lt_of_split hchars
  have hsize := s.length_lt
  have hdrop := drop_typeEnd hchars
  have hrest := congrArg List.length hdrop
  rw [hpost] at hdrop hrest hi
  have hlength := length_text d
  simp only [List.length_drop, List.length_append, List.length_cons] at hrest
  refine ⟨⟨pre, post, hchars, rfl⟩, ?_⟩
  rw [find_comma_last hchars hpost]
  simp only [ColumnDef.split, ColumnDef.lastWindow]
  rw [toNat_ofNat_lt (by omega), hdrop]
  by_cases hcomma : ',' ∈ after
  · obtain ⟨front, rest, rfl, hfront⟩ := List.eq_append_cons_of_mem hcomma
    have hlonger : front.length < (front ++ ',' :: rest).length := by
      simp
    rw [if_pos hcomma, if_pos hcomma, takeWhile_of_notMem hfront, Option.elim_some,
      toNat_count (by omega) (by omega)]
    have hcount : pre.length + d.text.length + 2 + front.length - (pre.length + d.head.length) + 1 =
        (' ' :: (d.tail ++ "] ".toList ++ front ++ [','])).length := by
      have htwo : "] ".toList.length = 2 := rfl
      simp only [List.length_append, List.length_cons, List.length_nil, htwo]
      omega
    have hwhole : ' ' :: (d.tail ++ ']' :: ' ' :: (front ++ ',' :: rest)) =
        ' ' :: (d.tail ++ "] ".toList ++ front ++ [',']) ++ rest := by
      simp
    rw [hcount, hwhole, List.take_left]
  · rw [if_neg hcomma, if_neg hcomma, Option.elim_none]
    obtain ⟨i', hi', hlast, hcases⟩ := find_listEnd_last d after
    obtain rfl := Option.some.inj (hi.symm.trans hi')
    rcases hcases with ⟨hpart, hle⟩ | ⟨hpart, j, hj, hjlt, rfl⟩
    · -- the count wraps around
      have hcount := toNat_count_wraps (a := pre.length + d.head.length) (b := pre.length + i)
        (by omega) (by omega)
      have hwhole : ' ' :: (d.tail ++ ']' :: ' ' :: after) =
          ' ' :: (d.tail ++ "] ".toList ++ after) := by
        simp
      rw [if_pos hpart, hwhole, List.take_of_length_le]
      rw [← hwhole]
      simp only [List.length_append, List.length_cons]
      omega
    · rw [if_neg hpart, hj, toNat_count (by omega) (by omega), Option.getD_some]
      have hcount : pre.length + (d.head.length + 1 + j) - (pre.length + d.head.length) + 1 =
          j + 1 + 1 := by
        omega
      rw [hcount, List.take_succ_cons, List.take_append_of_le_length (by omega)]

theorem fieldDefs_stop {turns : Nat} {stop pos : UInt64} (h : ¬ pos < stop) :
    fieldDefs s fuel (turns + 1) stop pos = some [] := by
  rw [fieldDefs, if_neg h]

theorem fieldDefs_turn {turns : Nat} {stop pos : UInt64} {split : FieldDefSplit}
    (hpos : pos < stop) (hnext : nextFieldDef s fuel stop pos = some split) :
    fieldDefs s fuel (turns + 1) stop pos =
      (fieldDefs s fuel turns stop split.fieldEnd).map (split :: ·) := by
  rw [fieldDefs, if_pos hpos, hnext, Option.bind_some]

theorem ofNat_lt_iff {a b : Nat} (ha : a < 2 ^ 63) (hb : b < 2 ^ 63) :
    UInt64.ofNat a < UInt64.ofNat b ↔ a < b := by
  rw [UInt64.lt_iff_toNat_lt, toNat_ofNat_lt ha, toNat_ofNat_lt hb]

/-- **The run over the list**, from a position in front of its first definition on
that has no backtick up to there. -/
theorem fieldDefs_documented (ds : List ColumnDef)
    (hchars : s.chars = pre ++ (joinDefs (d :: ds) ++ ("] ".toList ++ after)))
    (hdrop : s.chars.drop e = gap ++ (joinDefs (d :: ds) ++ ("] ".toList ++ after)))
    (hgap : backtick ∉ gap) (he : e + gap.length = pre.length) (hne : gap ≠ [])
    (hi : findFrom listEnd (joinDefs (d :: ds) ++ ("] ".toList ++ after)) 0 = some i)
    (hfuel : s.chars.length < fuel) :
    ∃ splits, fieldDefs s fuel (ds.length + 2) (UInt64.ofNat (pre.length + i)) (UInt64.ofNat e) =
        some splits ∧
      List.Forall₂ (SplitOf s) (windows after (d :: ds)) splits := by
  have hsize := s.length_lt
  have hgaplength := List.length_pos_iff.mpr hne
  have hipre : pre.length + i < 2 ^ 63 := by
    have hlt := findFrom_lt listEnd_ne hi
    have hlength := congrArg List.length hchars
    rw [List.length_append] at hlength
    omega
  have hstart : UInt64.ofNat e < UInt64.ofNat (pre.length + i) :=
    (ofNat_lt_iff (by omega) hipre).mpr (by omega)
  induction ds generalizing d pre gap e i with
  | nil =>
    have hpost : "] ".toList ++ after = ']' :: ' ' :: after := rfl
    rw [joinDefs] at hchars hdrop hi
    obtain ⟨i', hi', hlast, -⟩ := find_listEnd_last d after
    rw [hpost] at hi
    obtain rfl := Option.some.inj (hi.symm.trans hi')
    have hsplitOf := splitOf_last hchars hpost hi
    rw [find_comma_last hchars hpost] at hsplitOf
    have hturn := nextFieldDef_documented hchars (UInt64.ofNat (pre.length + i)) hdrop hgap he
      hfuel
    rw [find_comma_last hchars hpost] at hturn
    refine ⟨_, ?_, List.Forall₂.cons hsplitOf List.Forall₂.nil⟩
    rw [fieldDefs_turn hstart hturn, fieldDefs_stop, Option.map_some]
    -- the first comma behind the list is behind its end
    have hlength := congrArg List.length hchars
    simp only [hpost, List.length_append, List.length_cons] at hlength
    split
    · have hfront := (List.takeWhile_prefix (l := after) fun c => c != ',').length_le
      rw [Option.elim_some, ColumnDef.split, ofNat_lt_iff (by omega) hipre]
      omega
    · exact UInt64.lt_irrefl _
  | cons d' ds ih =>
    rw [joinDefs_cons] at hchars hdrop hi
    have hsplitOf := splitOf_cons hchars rfl
    have hlt := length_lt_of_split hchars
    have hturn := nextFieldDef_documented hchars (UInt64.ofNat (pre.length + i)) hdrop hgap he
      hfuel
    rw [find_comma_documented hchars rfl, Option.elim_some] at hturn
    rw [find_listEnd_cons] at hi
    rw [List.length_cons, fieldDefs_turn hstart hturn]
    by_cases hpart : listEnd <:+: d.text
    · -- the definition has the end in it
      obtain ⟨i', hi'⟩ := Option.isSome_iff_exists.mp ((find_listEnd_isSome_iff d).mpr hpart)
      rw [hi'] at hi
      obtain rfl := Option.some.inj hi
      have hle := ((findFrom_eq_some_iff listEnd_ne).mp hi').2.1.length_le
      have hsix : listEnd.length = 6 := rfl
      have hilt := findFrom_lt listEnd_ne hi'
      rw [List.length_append, List.length_singleton] at hilt
      rw [List.length_drop, List.length_append, List.length_singleton, hsix] at hle
      have hstop : ¬ (d.split pre.length (UInt64.ofNat (pre.length + d.text.length))).fieldEnd <
          UInt64.ofNat (pre.length + i') := by
        rw [ColumnDef.split, ofNat_lt_iff hlt hipre]
        omega
      refine ⟨[d.split pre.length (UInt64.ofNat (pre.length + d.text.length))], ?_, ?_⟩
      · rw [fieldDefs_stop hstop]
        rfl
      · rw [windows, if_pos hpart]
        · exact List.Forall₂.cons hsplitOf List.Forall₂.nil
        · exact List.cons_ne_nil _ _
    · have hnone : findFrom listEnd (d.text ++ [',']) 0 = none := by
        rw [← find_listEnd_isSome_iff] at hpart
        simpa using hpart
      rw [hnone] at hi
      obtain ⟨i', hi', rfl⟩ := Option.map_eq_some_iff.mp hi
      have hnext : s.chars =
          (pre ++ (d.text ++ [',', ' '])) ++ (joinDefs (d' :: ds) ++ ("] ".toList ++ after)) := by
        rw [hchars]
        simp
      have hprelength : (pre ++ (d.text ++ [',', ' '])).length = pre.length + d.text.length + 2 := by
        simp only [List.length_append, List.length_cons, List.length_nil]
        omega
      have hgap' : s.chars.drop (pre.length + d.text.length) =
          [',', ' '] ++ (joinDefs (d' :: ds) ++ ("] ".toList ++ after)) := by
        rw [hchars, ← List.drop_drop, List.drop_left, List.drop_left]
        rfl
      obtain ⟨splits, hsplits, hrest⟩ := ih hnext hgap' (by decide)
        (by rw [hprelength]; rfl) (List.cons_ne_nil _ _) hi'
        (by decide)
        (by rw [hprelength]; omega)
        ((ofNat_lt_iff hlt (by rw [hprelength]; omega)).mpr (by rw [hprelength]; omega))
      rw [hprelength, show pre.length + d.text.length + 2 + i' =
        pre.length + (d.text.length + 2 + i') by omega] at hsplits
      refine ⟨d.split pre.length (UInt64.ofNat (pre.length + d.text.length)) :: splits, ?_, ?_⟩
      · rw [ColumnDef.split, hsplits, Option.map_some]
      · rw [windows, if_neg hpart]
        · exact List.Forall₂.cons hsplitOf hrest
        · exact List.cons_ne_nil _ _

/-! ## The row -/

theorem ShowColumns.length_before_lt (r : ShowColumns) : r.before.length + 15 < 2 ^ 63 := by
  have hsize := r.row.length_lt
  have hlength : r.row.chars.length =
      r.before.length + (listStart.length + (joinDefs r.defs ++ ("] ".toList ++ r.after)).length) := by
    rw [ShowColumns.row, List.length_append, List.length_append]
  have hfifteen : listStart.length = 15 := rfl
  have hpositive : 0 < (joinDefs r.defs ++ ("] ".toList ++ r.after)).length := by
    rw [List.length_append, List.length_append, show "] ".toList.length = 2 from rfl]
    omega
  omega

theorem showColumnsIdx_row (r : ShowColumns) :
    showColumnsIdx r.row = UInt64.ofNat r.before.length := by
  have hfound : findFrom listStart r.row.chars 0 = some r.before.length :=
    findFrom_first (List.cons_ne_nil _ _) r.before_first (by decide)
  show position (findFrom listStart r.row.chars 0) = _
  rw [hfound, position]

theorem listStart_eq : listStart = " show_columns:".toList ++ ['['] := by decide

theorem startIdx_row (r : ShowColumns) : startIdx r.row = UInt64.ofNat (r.before.length + 14) := by
  have hfound : findFrom ['['] (listStart ++ (joinDefs r.defs ++ ("] ".toList ++ r.after))) 0 =
      some 14 := by
    rw [listStart_eq, List.append_assoc]
    exact findFrom_singleton (by decide)
  have hfrom := findFrom_append ['['] r.before
    (listStart ++ (joinDefs r.defs ++ ("] ".toList ++ r.after))) 0
  rw [hfound, Nat.add_zero] at hfrom
  have hbefore := r.length_before_lt
  rw [startIdx, showColumnsIdx_row, StdString.find, toNat_ofNat_lt (by omega), ShowColumns.row,
    hfrom]
  rfl

/-- `end_idx` is the position of the first `NULL] ` of the list. -/
theorem endIdx_row (r : ShowColumns)
    (hi : findFrom listEnd (joinDefs r.defs ++ ("] ".toList ++ r.after)) 0 = some i) :
    endIdx r.row = UInt64.ofNat ((r.before ++ listStart).length + i) := by
  have hfifteen : listStart.length = 15 := rfl
  have hafter : findFrom listEnd
      (listStart ++ (joinDefs r.defs ++ ("] ".toList ++ r.after))) 0 = some (15 + i) := by
    rw [listStart_eq, List.append_assoc, List.singleton_append,
      findFrom_separator listEnd_ne (by decide)]
    have hnone : findFrom listEnd (" show_columns:".toList ++ ['[']) 0 = none := by decide
    rw [hnone, hi]
    rfl
  have hfrom := findFrom_append listEnd r.before
    (listStart ++ (joinDefs r.defs ++ ("] ".toList ++ r.after))) 0
  rw [hafter, Nat.add_zero] at hfrom
  have hbefore := r.length_before_lt
  rw [endIdx, showColumnsIdx_row, StdString.find, toNat_ofNat_lt (by omega), ShowColumns.row]
  show position (findFrom listEnd _ _) = _
  rw [hfrom, Option.map_some, position, List.length_append, hfifteen, Nat.add_assoc]

/-- **The loops cut out the definitions** up to the first `NULL] `. -/
theorem splitShowColumns_documented (r : ShowColumns) :
    ∃ fuel splits, splitShowColumns r.row fuel = some splits ∧
      List.Forall₂ (SplitOf r.row) (windows r.after r.defs) splits := by
  cases hdefs : r.defs with
  | nil => exact absurd hdefs r.defs_ne
  | cons d ds =>
    have hfound : ∃ i, findFrom listEnd (joinDefs (d :: ds) ++ ("] ".toList ++ r.after)) 0 =
        some i := by
      rw [← Option.isSome_iff_exists, findFrom_isSome_iff listEnd_ne]
      exact listEnd_infix_joinDefs ds r.after
    obtain ⟨i, hi⟩ := hfound
    have hend := endIdx_row r (by rw [hdefs]; exact hi)
    have hchars : r.row.chars =
        (r.before ++ listStart) ++ (joinDefs (d :: ds) ++ ("] ".toList ++ r.after)) := by
      show r.before ++ (listStart ++ (joinDefs r.defs ++ ("] ".toList ++ r.after))) = _
      rw [hdefs, List.append_assoc]
    have hdrop : r.row.chars.drop (r.before.length + 14) =
        ['['] ++ (joinDefs (d :: ds) ++ ("] ".toList ++ r.after)) := by
      rw [hchars, listStart_eq, ← List.drop_drop, List.append_assoc, List.drop_left,
        List.append_assoc]
      rfl
    have hfifteen : listStart.length = 15 := rfl
    obtain ⟨splits, hsplits, hsplitOf⟩ := fieldDefs_documented ds hchars hdrop (by decide)
      (by rw [List.length_append, hfifteen]; rfl) (List.cons_ne_nil _ _) hi
      (Nat.lt_succ_self _)
    -- one fuel for both loops
    have hmore := fieldDefs_mono (n := ds.length + 2) (m := r.row.chars.length + 1) hsplits
    refine ⟨ds.length + 2 + (r.row.chars.length + 1), splits, ?_, hsplitOf⟩
    rw [splitShowColumns, startIdx_row, hend]
    rw [Nat.add_comm (r.row.chars.length + 1)] at hmore
    exact hmore

end SasLibclient
