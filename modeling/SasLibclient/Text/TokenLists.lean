import SasLibclient.Text.Tokens

/-!
# Lists of items

A list of items is split at the commas outside parentheses. Items that close
their parentheses and have no such comma are read back from their list
(`splitItems_intercalate`). A template is a list of literals with the same
variable between them; `tokens_template` reads a filled template.
-/

namespace Tokens

open Quoting

/-! ## Splitting -/

/-- The number of open parentheses after a token. -/
def depthAfter (depth : Nat) (token : Token) : Nat :=
  if token = .symbol '(' then depth + 1 else if token = .symbol ')' then depth - 1 else depth

/-- The items from `current` on, which is the part of the first one that was read. -/
def splitFrom : Nat → List Token → List Token → List (List Token)
  | _, current, [] => [current]
  | depth, current, token :: ts =>
    if depth = 0 ∧ token = comma then current :: splitFrom 0 [] ts
    else splitFrom (depthAfter depth token) (current ++ [token]) ts

/-- The items between the commas; no text is no item. -/
def splitItems (ts : List Token) : List (List Token) := if ts = [] then [] else splitFrom 0 [] ts

/-- The number of open parentheses after the tokens, unless there is a comma
outside of them. -/
def nesting : Nat → List Token → Option Nat
  | depth, [] => some depth
  | depth, token :: ts =>
    if depth = 0 ∧ token = comma then none else nesting (depthAfter depth token) ts

variable {depth depth' : Nat} {ts ts' current : List Token} {items : List (List Token)}

theorem nesting_append (depth : Nat) (ts ts' : List Token) :
    nesting depth (ts ++ ts') = (nesting depth ts).bind fun depth => nesting depth ts' := by
  induction ts generalizing depth with
  | nil => rfl
  | cons token ts ih =>
    rw [List.cons_append, nesting, nesting, ih]
    split
    · rfl
    · rfl

theorem splitFrom_append (h : nesting depth ts = some depth') (current ts' : List Token) :
    splitFrom depth current (ts ++ ts') = splitFrom depth' (current ++ ts) ts' := by
  induction ts generalizing depth current with
  | nil =>
    obtain rfl := Option.some.inj h
    rw [List.nil_append, List.append_nil]
  | cons token ts ih =>
    rw [nesting] at h
    split at h
    · cases h
    · rename_i hcomma
      rw [List.cons_append, splitFrom, if_neg hcomma, ih h, List.append_assoc,
        List.singleton_append]

/-- **Items are read back** from their list. -/
theorem splitItems_intercalate (hitems : ∀ item ∈ items, item ≠ [] ∧ nesting 0 item = some 0) :
    splitItems ([comma].intercalate items) = items := by
  have hsplit : ∀ item items, (∀ item' ∈ item :: items, nesting 0 item' = some 0) →
      splitFrom 0 [] ([comma].intercalate (item :: items)) = item :: items := by
    intro item items
    induction items generalizing item with
    | nil =>
      intro hnesting
      have hitem := hnesting item List.mem_cons_self
      have hend := splitFrom_append hitem [] []
      rw [List.append_nil] at hend
      rw [List.intercalate_singleton, hend]
      rfl
    | cons next items ih =>
      intro hnesting
      obtain ⟨hitem, hrest⟩ := List.forall_mem_cons.mp hnesting
      rw [List.intercalate_cons_cons, List.append_assoc, splitFrom_append hitem, List.nil_append,
        List.singleton_append, splitFrom, if_pos ⟨rfl, rfl⟩, ih next hrest]
  cases items with
  | nil => rfl
  | cons item items =>
    have hne : [comma].intercalate (item :: items) ≠ [] := by
      have hitem := (hitems item List.mem_cons_self).1
      cases items with
      | nil =>
        rw [List.intercalate_singleton]
        exact hitem
      | cons next items =>
        rw [List.intercalate_cons_cons]
        simp
    rw [splitItems, if_neg hne]
    exact hsplit item items fun item' hmem => (hitems item' hmem).2

/-! ## Templates -/

/-- The name of a variable token. -/
def Token.variableName? : Token → Option (List Char)
  | .variable text => some text
  | _ => none

/-- The variables of a list of tokens, in order. -/
def variablesOf (ts : List Token) : List (List Char) := ts.filterMap Token.variableName?

/-- The tokens of a literal. -/
def literalTokens (literal : List Char) : List Token := (run .blank literal).1

/-- A literal ends the token before it, and is not continued by what follows. -/
def isLiteral (literal : List Char) : Bool :=
  literal.head?.any isBoundary && decide ((run .blank literal).2 = .blank)

/-- Literals without variables that close their parentheses; a variable fills
the places between them. -/
def isTemplate (literals : List (List Char)) : Bool :=
  literals.all isLiteral &&
    decide (nesting 0 (literals.flatMap literalTokens) = some 0) &&
    (literals.flatMap literalTokens).all fun token => token.variableName?.isNone

variable {literals : List (List Char)} {sep name text : List Char}

theorem separated_of_isLiteral {literal : List Char} (h : isLiteral literal = true) :
    Separated literal := by
  cases literal with
  | nil => cases h
  | cons c cs =>
    have hc : isBoundary c = true := by
      rw [isLiteral, Bool.and_eq_true] at h
      exact h.1
    exact ⟨c, cs, rfl, hc⟩

theorem run_of_isLiteral {literal : List Char} (h : isLiteral literal = true) :
    run .blank literal = (literalTokens literal, .blank) := by
  rw [isLiteral, Bool.and_eq_true, decide_eq_true_eq] at h
  exact Prod.ext rfl h.2

theorem separated_intercalate (hne : literals ≠ [])
    (hliterals : ∀ literal ∈ literals, isLiteral literal = true) (sep : List Char) :
    Separated (sep.intercalate literals) := by
  cases literals with
  | nil => exact absurd rfl hne
  | cons literal literals =>
    have hfirst := separated_of_isLiteral (hliterals literal List.mem_cons_self)
    cases literals with
    | nil =>
      rw [List.intercalate_singleton]
      exact hfirst
    | cons next literals =>
      rw [List.intercalate_cons_cons, List.append_assoc]
      exact hfirst.append _

theorem run_intercalate (hsep : run .blank sep = ([], .variable name)) (hne : literals ≠ [])
    (hliterals : ∀ literal ∈ literals, isLiteral literal = true) :
    run .blank (sep.intercalate literals) =
      ([Token.variable name].intercalate (literals.map literalTokens), .blank) := by
  induction literals with
  | nil => exact absurd rfl hne
  | cons literal literals ih =>
    obtain ⟨hliteral, hrest⟩ := List.forall_mem_cons.mp hliterals
    cases literals with
    | nil =>
      rw [List.intercalate_singleton, List.map_singleton, List.intercalate_singleton]
      exact run_of_isLiteral hliteral
    | cons next literals =>
      have htail := ih (List.cons_ne_nil _ _) hrest
      obtain ⟨c, cs, hnext, hc⟩ := separated_intercalate (List.cons_ne_nil _ _) hrest sep
      rw [List.intercalate_cons_cons, List.append_assoc, run_append, run_of_isLiteral hliteral]
      dsimp only
      rw [run_append, hsep]
      dsimp only
      rw [hnext, run_boundary rfl hc, ← hnext, htail, List.map_cons, List.map_cons,
        List.map_cons, List.intercalate_cons_cons, List.append_assoc]
      rfl

/-- The tokens of a filled template. -/
def fill (name : List Char) (literals : List (List Char)) : List Token :=
  [Token.variable name].intercalate (literals.map literalTokens)

theorem fill_cons_cons (name literal next : List Char) (literals : List (List Char)) :
    fill name (literal :: next :: literals) =
      literalTokens literal ++ .variable name :: fill name (next :: literals) := by
  rw [fill, fill, List.map_cons, List.map_cons, List.intercalate_cons_cons, List.append_assoc]
  rfl

theorem fill_head {literal : List Char} {token : Token} (h : literalTokens literal = token :: ts)
    (name : List Char) (literals : List (List Char)) :
    ∃ ts', fill name (literal :: literals) = token :: ts' := by
  cases literals with
  | nil => exact ⟨ts, by rw [fill, List.map_singleton, List.intercalate_singleton, h]⟩
  | cons next literals => exact ⟨_, by rw [fill_cons_cons, h, List.cons_append]⟩

theorem fill_singleton (name literal : List Char) : fill name [literal] = literalTokens literal := by
  rw [fill, List.map_singleton, List.intercalate_singleton]

/-- Variables do not open or close anything. -/
theorem nesting_fill (depth : Nat) (name : List Char) (literals : List (List Char)) :
    nesting depth (fill name literals) = nesting depth (literals.flatMap literalTokens) := by
  induction literals generalizing depth with
  | nil => rfl
  | cons literal literals ih =>
    cases literals with
    | nil => rw [fill_singleton, List.flatMap_singleton]
    | cons next literals =>
      have hvariable : ∀ depth ts, nesting depth (.variable name :: ts) = nesting depth ts := by
        intro depth ts
        rw [nesting, if_neg (by simp [comma])]
        rfl
      rw [fill_cons_cons, nesting_append, List.flatMap_cons, nesting_append]
      congr 1
      funext depth
      rw [hvariable, ih]

theorem variablesOf_fill (name : List Char)
    (hnone : ∀ token ∈ literals.flatMap literalTokens, token.variableName? = none) :
    variablesOf (fill name literals) = List.replicate (literals.length - 1) name := by
  have hliteral : ∀ ts : List Token, (∀ token ∈ ts, token.variableName? = none) →
      variablesOf ts = [] := by
    intro ts hts
    exact List.filterMap_eq_nil_iff.mpr hts
  induction literals with
  | nil => rfl
  | cons literal literals ih =>
    rw [List.flatMap_cons] at hnone
    have hfirst := hliteral (literalTokens literal) fun token htoken =>
      hnone token (List.mem_append_left _ htoken)
    have hrest := ih fun token htoken => hnone token (List.mem_append_right _ htoken)
    cases literals with
    | nil =>
      rw [fill_singleton, hfirst]
      rfl
    | cons next literals =>
      rw [fill_cons_cons, variablesOf, List.filterMap_append]
      rw [variablesOf] at hfirst hrest
      rw [hfirst, List.nil_append, List.filterMap_cons]
      simp only [Token.variableName?]
      rw [hrest]
      rfl

/-- A template that starts with a boundary, behind a name. -/
structure Template (literals : List (List Char)) : Prop where
  ne_nil : literals ≠ []
  literal : ∀ literal ∈ literals, isLiteral literal = true
  nesting : nesting 0 (literals.flatMap literalTokens) = some 0
  noVariable : ∀ token ∈ literals.flatMap literalTokens, token.variableName? = none

theorem template_of_isTemplate (hne : literals ≠ []) (h : isTemplate literals = true) :
    Template literals := by
  simp only [isTemplate, Bool.and_eq_true, List.all_eq_true, decide_eq_true_eq,
    Option.isNone_iff_eq_none] at h
  exact ⟨hne, h.1.1, h.1.2, h.2⟩

/-- **A filled template behind a name** is read as the name and its tokens. -/
theorem Template.tokens_name (h : Template literals) (hsep : run .blank sep = ([], .variable text))
    (name : List Char) :
    tokens (quote nameQuote nameQuote name ++ sep.intercalate literals) =
        .name name :: fill text literals ∧
      (run .blank (quote nameQuote nameQuote name ++ sep.intercalate literals)).2.ended = true := by
  have hrun := run_intercalate hsep h.ne_nil h.literal
  have hseparated := separated_intercalate h.ne_nil h.literal sep
  rw [tokens_append_boundary (ended_quote name) hseparated,
    state_append_boundary (ended_quote name) hseparated, tokens_quote, tokens, hrun]
  refine ⟨?_, rfl⟩
  rw [finish, List.append_nil, List.singleton_append]
  rfl

end Tokens
