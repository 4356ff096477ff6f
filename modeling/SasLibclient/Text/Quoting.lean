import Mathlib.Data.List.Basic

/-!
# Quoted names

A name is written between two delimiters, and each delimiter in the name twice.
The lexer reads a quoted name up to the delimiter that is not doubled. Names
that are joined by a separator are read back one by one, so that two lists with
the same text are equal.
-/

namespace Quoting

variable {α : Type} [DecidableEq α]

/-- Each delimiter and each escape character is preceded by an escape character. -/
def escape (delim esc : α) : List α → List α
  | [] => []
  | c :: cs => if c = delim ∨ c = esc then esc :: c :: escape delim esc cs
    else c :: escape delim esc cs

def quote (delim esc : α) (name : List α) : List α :=
  delim :: (escape delim esc name ++ [delim])

/-- The rest of a quoted name: the name and what comes after the last delimiter. -/
def scanBody (delim : α) : List α → Option (List α × List α)
  | [] => none
  | [c] => if c = delim then some ([], []) else none
  | c :: d :: rest =>
    if c = delim then
      if d = delim then
        (scanBody delim rest).map fun found => (delim :: found.1, found.2)
      else
        some ([], d :: rest)
    else
      (scanBody delim (d :: rest)).map fun found => (c :: found.1, found.2)

/-- The lexer for one name in which a doubled delimiter stands for one. -/
def scanName (delim : α) : List α → Option (List α × List α)
  | [] => none
  | c :: cs => if c = delim then scanBody delim cs else none

def joinNames (delim sep : α) : List (List α) → List α
  | [] => []
  | [name] => quote delim delim name
  | name :: names => quote delim delim name ++ sep :: joinNames delim sep names

variable {delim sep : α} {name text rest : List α} {names names' : List (List α)}

theorem scanBody_length {found : List α × List α} (h : scanBody delim text = some found) :
    found.2.length < text.length := by
  induction text using scanBody.induct delim generalizing found with
  | case1 => cases h
  | case2 =>
    rw [scanBody, if_pos rfl] at h
    obtain rfl := Option.some.inj h
    exact Nat.zero_lt_one
  | case3 c hc =>
    rw [scanBody, if_neg hc] at h
    cases h
  | case4 rest ih =>
    rw [scanBody, if_pos rfl, if_pos rfl] at h
    obtain ⟨inner, hinner, rfl⟩ := Option.map_eq_some_iff.mp h
    have hlen := ih hinner
    simp only [List.length_cons]
    omega
  | case5 d rest hd =>
    rw [scanBody, if_pos rfl, if_neg hd] at h
    obtain rfl := Option.some.inj h
    simp
  | case6 c d rest hc ih =>
    rw [scanBody, if_neg hc] at h
    obtain ⟨inner, hinner, rfl⟩ := Option.map_eq_some_iff.mp h
    have hlen := ih hinner
    simp only [List.length_cons] at hlen ⊢
    omega

theorem scanName_length {found : List α × List α} (h : scanName delim text = some found) :
    found.2.length < text.length := by
  cases text with
  | nil => cases h
  | cons c cs =>
    rw [scanName] at h
    split at h
    · have hlen := scanBody_length h
      rw [List.length_cons]
      omega
    · cases h

/-- The lexer for a list of names with separators between them: it reads the
whole text. -/
def scanNames (delim sep : α) (text : List α) : Option (List (List α)) :=
  match _hscan : scanName delim text with
  | none => none
  | some (name, []) => some [name]
  | some (name, c :: rest) =>
    if c = sep then (scanNames delim sep rest).map fun names => name :: names else none
termination_by text.length
decreasing_by
  have hlen := scanName_length _hscan
  simp only [List.length_cons] at hlen
  omega

/-! ## Reading back -/

theorem scanBody_escape (hrest : rest.head? ≠ some delim) :
    scanBody delim (escape delim delim name ++ delim :: rest) = some (name, rest) := by
  induction name with
  | nil =>
    cases rest with
    | nil => exact if_pos rfl
    | cons c cs =>
      have hc : c ≠ delim := fun h => hrest (congrArg some h)
      show scanBody delim (delim :: c :: cs) = _
      rw [scanBody, if_pos rfl, if_neg hc]
  | cons c cs ih =>
    by_cases hc : c = delim
    · subst hc
      rw [escape, if_pos (Or.inl rfl), List.cons_append, List.cons_append, scanBody, if_pos rfl,
        if_pos rfl, ih]
      rfl
    · rw [escape, if_neg (by simpa using hc), List.cons_append]
      -- the text does not end here: at least the last delimiter is left
      cases htail : escape delim delim cs ++ delim :: rest with
      | nil => cases hcs : escape delim delim cs <;> rw [hcs] at htail <;> cases htail
      | cons d ds =>
        rw [scanBody, if_neg hc, ← htail, ih]
        rfl

theorem scanBody_append {front : List α} (hfront : delim ∉ front) :
    scanBody delim (front ++ rest) =
      (scanBody delim rest).map fun found => (front ++ found.1, found.2) := by
  induction front with
  | nil => cases h : scanBody delim rest <;> simp [h]
  | cons c front ih =>
    obtain ⟨hc, hfront⟩ := not_or.mp (mt List.mem_cons.mpr hfront)
    cases htail : front ++ rest with
    | nil =>
      obtain ⟨rfl, rfl⟩ := List.append_eq_nil_iff.mp htail
      show scanBody delim [c] = none
      rw [scanBody, if_neg (Ne.symm hc)]
    | cons d tail =>
      rw [List.cons_append, htail, scanBody, if_neg (Ne.symm hc), ← htail, ih hfront,
        Option.map_map]
      rfl

/-- **A quoted name is read back**, up to its last delimiter. -/
theorem scanName_quote (hrest : rest.head? ≠ some delim) :
    scanName delim (quote delim delim name ++ rest) = some (name, rest) := by
  have htext : quote delim delim name ++ rest =
      delim :: (escape delim delim name ++ delim :: rest) := by
    rw [quote, List.cons_append, List.append_assoc]
    rfl
  rw [htext, scanName, if_pos rfl, scanBody_escape hrest]

theorem scanBody_sound (h : scanBody delim text = some (name, rest)) :
    text = escape delim delim name ++ delim :: rest := by
  induction text using scanBody.induct delim generalizing name with
  | case1 => cases h
  | case2 =>
    rw [scanBody, if_pos rfl] at h
    obtain ⟨rfl, rfl⟩ := Prod.mk.inj (Option.some.inj h)
    rfl
  | case3 c hc =>
    rw [scanBody, if_neg hc] at h
    cases h
  | case4 tail ih =>
    rw [scanBody, if_pos rfl, if_pos rfl] at h
    obtain ⟨⟨inner, rest'⟩, hinner, heq⟩ := Option.map_eq_some_iff.mp h
    obtain ⟨rfl, rfl⟩ := Prod.mk.inj heq
    rw [escape, if_pos (Or.inl rfl), List.cons_append, List.cons_append, ← ih hinner]
  | case5 d tail hd =>
    rw [scanBody, if_pos rfl, if_neg hd] at h
    obtain ⟨rfl, rfl⟩ := Prod.mk.inj (Option.some.inj h)
    rfl
  | case6 c d tail hc ih =>
    rw [scanBody, if_neg hc] at h
    obtain ⟨⟨inner, rest'⟩, hinner, heq⟩ := Option.map_eq_some_iff.mp h
    obtain ⟨rfl, rfl⟩ := Prod.mk.inj heq
    rw [escape, if_neg (by simpa using hc), List.cons_append, ← ih hinner]

theorem scanName_sound (h : scanName delim text = some (name, rest)) :
    text = quote delim delim name ++ rest := by
  cases text with
  | nil => cases h
  | cons c cs =>
    rw [scanName] at h
    split at h
    · rename_i hc
      rw [hc, scanBody_sound h, quote, List.cons_append, List.append_assoc]
      rfl
    · cases h

theorem length_escape (delim esc : α) (name : List α) :
    name.length ≤ (escape delim esc name).length := by
  induction name with
  | nil => exact Nat.zero_le _
  | cons c cs ih =>
    rw [escape]
    split
    · simp only [List.length_cons]
      omega
    · simp only [List.length_cons]
      omega

theorem mem_escape {c : α} : c ∈ escape delim delim name ↔ c ∈ name := by
  induction name with
  | nil => exact Iff.rfl
  | cons d cs ih =>
    rw [escape]
    split
    · rename_i hd
      have heq : d = delim := hd.elim id id
      simp only [List.mem_cons, ih, heq]
      tauto
    · simp only [List.mem_cons, ih]

/-- A name without delimiters is written as it is, and no other one. -/
theorem escape_eq_self_iff : escape delim delim name = name ↔ delim ∉ name := by
  induction name with
  | nil => simp [escape]
  | cons d cs ih =>
    rw [escape, List.mem_cons, not_or]
    split
    · rename_i hd
      have heq : d = delim := hd.elim id id
      refine iff_of_false ?_ fun h => h.1 heq.symm
      intro h
      have hlength := congrArg List.length h
      have hle := length_escape delim delim cs
      simp only [List.length_cons] at hlength
      omega
    · rename_i hd
      have hne : delim ≠ d := fun h => hd (Or.inl h.symm)
      rw [List.cons.injEq, ih]
      exact ⟨fun h => ⟨hne, h.2⟩, fun h => ⟨rfl, h.2⟩⟩

/-- A name without quotes, before a text without delimiters, is not read as a
quoted name. -/
theorem scanName_unquoted (hrest : delim ∉ rest) (tail : List α) :
    scanName delim (name ++ rest) ≠ some (name, tail) := by
  intro h
  have htext := scanName_sound h
  -- the last delimiter would be behind the name
  have hdrop := congrArg (List.drop name.length) htext
  rw [List.drop_left] at hdrop
  apply hrest
  have hlength := length_escape delim delim name
  have hquote : quote delim delim name ++ tail =
      (delim :: escape delim delim name) ++ (delim :: tail) := by
    rw [quote, List.cons_append, List.append_assoc]
    rfl
  rw [hdrop, hquote, List.drop_append_of_le_length (by rw [List.length_cons]; omega)]
  exact List.mem_append_right _ List.mem_cons_self

/-- **A list of names is read back**, and the text has nothing after it. -/
theorem scanNames_joinNames (hsep : sep ≠ delim) (hne : names ≠ []) :
    scanNames delim sep (joinNames delim sep names) = some names := by
  induction names with
  | nil => exact absurd rfl hne
  | cons name names ih =>
    cases names with
    | nil =>
      have hscan : scanName delim (quote delim delim name ++ []) = some (name, []) :=
        scanName_quote (by simp)
      rw [List.append_nil] at hscan
      rw [joinNames, scanNames, hscan]
    | cons next names =>
      have hscan : scanName delim
          (quote delim delim name ++ sep :: joinNames delim sep (next :: names)) =
            some (name, sep :: joinNames delim sep (next :: names)) :=
        scanName_quote fun h => hsep (Option.some.inj h)
      rw [joinNames, scanNames, hscan]
      · simp only [if_true]
        rw [ih (List.cons_ne_nil next names)]
        rfl
      · simp

theorem joinNames_ne_nil (hne : names ≠ []) : joinNames delim sep names ≠ [] := by
  cases names with
  | nil => exact absurd rfl hne
  | cons name names =>
    cases names with
    | nil => exact List.cons_ne_nil _ _
    | cons next names => exact List.cons_ne_nil _ _

theorem joinNames_injective (hsep : sep ≠ delim)
    (h : joinNames delim sep names = joinNames delim sep names') : names = names' := by
  by_cases hnil : names = []
  · by_cases hnil' : names' = []
    · rw [hnil, hnil']
    · rw [hnil] at h
      exact absurd h.symm (joinNames_ne_nil hnil')
  · by_cases hnil' : names' = []
    · rw [hnil'] at h
      exact absurd h (joinNames_ne_nil hnil)
    · have hscan := scanNames_joinNames hsep hnil
      rw [h, scanNames_joinNames hsep hnil'] at hscan
      exact (Option.some.inj hscan).symm

end Quoting
