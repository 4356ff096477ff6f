import SasLibclient.Text.Quoting

/-!
# The tokens of an SQL text

A machine that reads one character after the other: words, variables that start
with `@`, names between backticks, strings between quotes, and single symbols.
`run_append` composes the runs on the parts of a text, so that a text that is
put together from literals and quoted names is read part by part.
-/

namespace Tokens

open Quoting

inductive Token where
  | word (text : List Char)
  | «variable» (text : List Char)
  | name (text : List Char)
  | string (text : List Char)
  | symbol (c : Char)
  /-- the text ends in a name or a string -/
  | unterminated
  deriving DecidableEq, Repr

/-- What the machine is reading. -/
inductive State where
  | blank
  | word (text : List Char)
  | «variable» (text : List Char)
  | quoted (delim : Char) (text : List Char)
  /-- behind a delimiter that may be doubled -/
  | closing (delim : Char) (text : List Char)
  /-- behind a backslash in a string -/
  | escaped (delim : Char) (text : List Char)
  deriving DecidableEq, Repr

def nameQuote : Char := '\x60'

def isQuote (c : Char) : Bool := c == nameQuote || c == '\'' || c == '"'

def isWordChar (c : Char) : Bool := c.isAlphanum || c == '_'

/-- The first character of a token. -/
def start (c : Char) : List Token × State :=
  if isQuote c then ([], .quoted c [])
  else if c = '@' then ([], .variable [])
  else if isWordChar c then ([], .word [c])
  else if c = ' ' ∨ c = '\t' ∨ c = '\n' then ([], .blank)
  else ([.symbol c], .blank)

/-- A token between delimiters. -/
def quotedToken (delim : Char) (text : List Char) : Token :=
  if delim = nameQuote then .name text else .string text

/-- The tokens that a character completes, and the state behind it. -/
def step : State → Char → List Token × State
  | .blank, c => start c
  | .word text, c =>
    if isWordChar c then ([], .word (text ++ [c])) else (.word text :: (start c).1, (start c).2)
  | .variable text, c =>
    if isWordChar c then ([], .variable (text ++ [c]))
    else (.variable text :: (start c).1, (start c).2)
  | .quoted delim text, c =>
    if c = delim then ([], .closing delim text)
    else if c = '\\' ∧ delim ≠ nameQuote then ([], .escaped delim text)
    else ([], .quoted delim (text ++ [c]))
  | .closing delim text, c =>
    if c = delim then ([], .quoted delim (text ++ [c]))
    else (quotedToken delim text :: (start c).1, (start c).2)
  | .escaped delim text, c => ([], .quoted delim (text ++ [c]))

/-- The end of the text. -/
def finish : State → List Token
  | .blank => []
  | .word text => [.word text]
  | .variable text => [.variable text]
  | .closing delim text => [quotedToken delim text]
  | .quoted _ _ | .escaped _ _ => [.unterminated]

def run : State → List Char → List Token × State
  | state, [] => ([], state)
  | state, c :: cs =>
    ((step state c).1 ++ (run (step state c).2 cs).1, (run (step state c).2 cs).2)

/-- The tokens of a text. -/
def tokens (text : List Char) : List Token :=
  (run .blank text).1 ++ finish (run .blank text).2

variable {state : State} {delim c : Char} {text text' name rest : List Char}

theorem run_append (state : State) (text text' : List Char) :
    run state (text ++ text') =
      ((run state text).1 ++ (run (run state text).2 text').1,
        (run (run state text).2 text').2) := by
  induction text generalizing state with
  | nil => rfl
  | cons c cs ih => simp only [List.cons_append, run, ih, List.append_assoc]

/-! ## The parts of a text -/

/-- The text does not end in a name or a string. -/
def State.ended : State → Bool
  | .blank | .word _ | .variable _ => true
  | .closing delim _ => isQuote delim
  | .quoted _ _ | .escaped _ _ => false

/-- The character ends the token before it. -/
def isBoundary (c : Char) : Bool := !isWordChar c && !isQuote c

theorem run_boundary (hstate : state.ended = true) (hc : isBoundary c = true) (cs : List Char) :
    run state (c :: cs) =
      (finish state ++ (run .blank (c :: cs)).1, (run .blank (c :: cs)).2) := by
  obtain ⟨hword, hquote⟩ : isWordChar c = false ∧ isQuote c = false := by
    simpa [isBoundary] using hc
  cases state with
  | blank => rfl
  | word text => simp [run, step, finish, hword]
  | «variable» text => simp [run, step, finish, hword]
  | closing delim text =>
    have hne : c ≠ delim := by
      rintro rfl
      rw [show isQuote c = true from hstate] at hquote
      cases hquote
    simp [run, step, finish, hne]
  | quoted delim text => cases hstate
  | escaped delim text => cases hstate

theorem tokens_append_blank {ts : List Token} (htext : run .blank text = (ts, .blank))
    (rest : List Char) : tokens (text ++ rest) = ts ++ tokens rest := by
  rw [tokens, tokens, run_append, htext, List.append_assoc]

/-- The text starts with a boundary. -/
def Separated (text : List Char) : Prop := ∃ c cs, text = c :: cs ∧ isBoundary c = true

theorem Separated.append (h : Separated text) (rest : List Char) : Separated (text ++ rest) := by
  obtain ⟨c, cs, rfl, hc⟩ := h
  exact ⟨c, cs ++ rest, rfl, hc⟩

theorem tokens_append_boundary (htext : (run .blank text).2.ended = true) (hrest : Separated rest) :
    tokens (text ++ rest) = tokens text ++ tokens rest := by
  obtain ⟨c, cs, rfl, hc⟩ := hrest
  rw [tokens, tokens, tokens, run_append, run_boundary htext hc]
  simp only [List.append_assoc]

theorem state_append_boundary (htext : (run .blank text).2.ended = true) (hrest : Separated rest) :
    (run .blank (text ++ rest)).2 = (run .blank rest).2 := by
  obtain ⟨c, cs, rfl, hc⟩ := hrest
  rw [run_append, run_boundary htext hc]

/-! ## Names, words and variables -/

theorem run_escape (text name : List Char) :
    run (.quoted nameQuote text) (escape nameQuote nameQuote name) =
      ([], .quoted nameQuote (text ++ name)) := by
  induction name generalizing text with
  | nil => simp [escape, run]
  | cons c cs ih =>
    rw [escape]
    by_cases hc : c = nameQuote
    · simp [hc, run, step, ih]
    · simp [hc, run, step, ih]

/-- **A quoted name** is one token, once the next character is not a backtick. -/
theorem run_quote (name : List Char) :
    run .blank (quote nameQuote nameQuote name) = ([], .closing nameQuote name) := by
  have hstart : start nameQuote = ([], .quoted nameQuote []) := rfl
  simp [quote, run, step, hstart, run_append, run_escape]

theorem run_word (htext : ∀ c ∈ text', isWordChar c = true) (text : List Char) :
    run (.word text) text' = ([], .word (text ++ text')) := by
  induction text' generalizing text with
  | nil => simp [run]
  | cons c cs ih =>
    obtain ⟨hc, hcs⟩ := List.forall_mem_cons.mp htext
    simp [run, step, hc, ih hcs]

/-- A word of such characters only. -/
theorem run_word_blank (hne : text ≠ []) (htext : ∀ c ∈ text, isWordChar c = true) :
    run .blank text = ([], .word text) := by
  cases text with
  | nil => exact absurd rfl hne
  | cons c cs =>
    obtain ⟨hc, hcs⟩ := List.forall_mem_cons.mp htext
    have hquote : isQuote c = false := by
      rw [← Bool.not_eq_true]
      intro hquote
      simp only [isQuote, Bool.or_eq_true, beq_iff_eq] at hquote
      rcases hquote with (rfl | rfl) | rfl <;> exact absurd hc (by decide)
    have hat : c ≠ '@' := by
      rintro rfl
      exact absurd hc (by decide)
    simp [run, step, start, hquote, hat, hc, run_word hcs]

theorem run_variable (htext : ∀ c ∈ text', isWordChar c = true) (text : List Char) :
    run (.variable text) text' = ([], .variable (text ++ text')) := by
  induction text' generalizing text with
  | nil => simp [run]
  | cons c cs ih =>
    obtain ⟨hc, hcs⟩ := List.forall_mem_cons.mp htext
    simp [run, step, hc, ih hcs]

theorem isWordChar_of_isDigit (h : c.isDigit = true) : isWordChar c = true := by
  simp [isWordChar, Char.isAlphanum, h]

theorem tokens_quote (name : List Char) : tokens (quote nameQuote nameQuote name) = [.name name] := by
  rw [tokens, run_quote]
  rfl

theorem ended_quote (name : List Char) :
    (run .blank (quote nameQuote nameQuote name)).2.ended = true := by
  rw [run_quote]
  rfl

/-! ## Lists with commas -/

def comma : Token := .symbol ','

theorem comma_toList : ",".toList = [','] := rfl

theorem tokens_intercalate {items : List (List Char)}
    (hitems : ∀ item ∈ items, (run .blank item).2.ended = true) :
    tokens ([','].intercalate items) = [comma].intercalate (items.map tokens) ∧
      (run .blank ([','].intercalate items)).2.ended = true := by
  induction items with
  | nil => exact ⟨rfl, rfl⟩
  | cons item items ih =>
    obtain ⟨hitem, hrest⟩ := List.forall_mem_cons.mp hitems
    cases items with
    | nil =>
      rw [List.intercalate_singleton, List.map_singleton, List.intercalate_singleton]
      exact ⟨rfl, hitem⟩
    | cons next items =>
      obtain ⟨htokens, hended⟩ := ih hrest
      have hcomma : ∀ text, tokens (',' :: text) = comma :: tokens text := fun _ => rfl
      rw [List.intercalate_cons_cons, List.append_assoc, List.singleton_append,
        tokens_append_boundary hitem ⟨_, _, rfl, by decide⟩,
        state_append_boundary hitem ⟨_, _, rfl, by decide⟩, hcomma,
        htokens, List.map_cons, List.map_cons, List.map_cons, List.intercalate_cons_cons,
        List.append_assoc]
      exact ⟨rfl, hended⟩

/-- The names before the first token that is not a comma. -/
def readNames : List Token → Option (List (List Char) × List Token)
  | .name text :: .symbol c :: rest =>
    if c = ',' then (readNames rest).map fun found => (text :: found.1, found.2)
    else some ([text], .symbol c :: rest)
  | .name text :: rest => some ([text], rest)
  | _ => none

/-- The tokens of a list of names. -/
def nameList (names : List (List Char)) : List Token :=
  [comma].intercalate (names.map fun name => [.name name])

theorem readNames_nameList {names : List (List Char)} {rest : List Token} (hne : names ≠ [])
    (hrest : rest.head? ≠ some comma) : readNames (nameList names ++ rest) = some (names, rest) := by
  induction names with
  | nil => exact absurd rfl hne
  | cons name names ih =>
    cases names with
    | nil =>
      rw [nameList, List.map_singleton, List.intercalate_singleton, List.singleton_append]
      cases rest with
      | nil => rfl
      | cons token rest =>
        cases token with
        | symbol c =>
          have hc : c ≠ ',' := fun h => hrest (by rw [h]; rfl)
          rw [readNames, if_neg hc]
        | word | «variable» | name | string | unterminated => rfl
    | cons next names =>
      have htail := ih (List.cons_ne_nil _ _)
      have hlist : nameList (name :: next :: names) =
          .name name :: comma :: nameList (next :: names) := by
        rw [nameList, List.map_cons, List.map_cons, List.intercalate_cons_cons]
        rfl
      rw [hlist, List.cons_append, List.cons_append, comma, readNames, if_pos rfl, htail]
      rfl

/-- **Joined names** are the tokens of the list. -/
theorem tokens_joinNames (names : List (List Char)) :
    tokens (joinNames nameQuote ',' names) = nameList names ∧
      (run .blank (joinNames nameQuote ',' names)).2.ended = true := by
  have hjoin : joinNames nameQuote ',' names =
      [','].intercalate (names.map (quote nameQuote nameQuote)) := by
    induction names with
    | nil => rfl
    | cons name names ih =>
      cases names with
      | nil => rw [joinNames, List.map_singleton, List.intercalate_singleton]
      | cons next names =>
        rw [joinNames, ih, List.map_cons, List.map_cons, List.map_cons,
          List.intercalate_cons_cons, List.append_assoc, List.singleton_append]
        exact List.cons_ne_nil _ _
  have hended : ∀ item ∈ names.map (quote nameQuote nameQuote), (run .blank item).2.ended = true := by
    intro item hitem
    obtain ⟨name, _, rfl⟩ := List.mem_map.mp hitem
    exact ended_quote name
  have hlist := tokens_intercalate hended
  rw [hjoin, hlist.1, List.map_map]
  refine ⟨?_, hlist.2⟩
  congr 1
  exact List.map_congr_left fun name _ => tokens_quote name

/-! ## Readers of token lists -/

/-- What follows the expected tokens. -/
def expect (expected ts : List Token) : Option (List Token) :=
  if expected <+: ts then some (ts.drop expected.length) else none

@[simp] theorem expect_append (expected rest : List Token) :
    expect expected (expected ++ rest) = some rest := by
  rw [expect, if_pos (List.prefix_append _ _), List.drop_left]

theorem expect_cons_ne {expected ts : List Token} {token token' : Token} (h : token ≠ token') :
    expect (token :: expected) (token' :: ts) = none := by
  rw [expect, if_neg]
  intro hprefix
  exact h (List.cons_prefix_cons.mp hprefix).1

/-- A list of names in parentheses, and what follows it. -/
def readParens (ts : List Token) : Option (List (List Char) × List Token) := do
  let ts ← expect [.symbol '('] ts
  let (names, ts) ← readNames ts
  let ts ← expect [.symbol ')'] ts
  return (names, ts)

theorem readParens_nameList {names : List (List Char)} (hne : names ≠ []) (rest : List Token) :
    readParens (.symbol '(' :: (nameList names ++ .symbol ')' :: rest)) = some (names, rest) := by
  have hopen := expect_append [.symbol '('] (nameList names ++ .symbol ')' :: rest)
  have hclose := expect_append [.symbol ')'] rest
  have hnames : readNames (nameList names ++ .symbol ')' :: rest) =
      some (names, .symbol ')' :: rest) := readNames_nameList hne (by simp [comma])
  rw [List.singleton_append] at hopen hclose
  simp [readParens, hopen, hnames, hclose]

end Tokens
