import SasLibclient.Text.Quoting

/-!
# Delimited text

Lines of fields with a separator between fields and one between lines, as LOAD
DATA reads them: a field may be enclosed in quotes, an escape character gives the
next character another meaning, and an escaped character of its own, alone in a
field without quotes, stands for NULL. The reader is an automaton over the
characters.
-/

namespace LoadData

structure Grammar (α : Type) where
  field : α
  line : α
  quote : α
  escape : α
  /-- the character of NULL, after `escape` -/
  null : α
  /-- the meaning of an escaped character -/
  unescape : α → α
  field_ne_line : field ≠ line
  quote_ne_field : quote ≠ field
  quote_ne_line : quote ≠ line
  escape_ne_field : escape ≠ field
  escape_ne_line : escape ≠ line
  escape_ne_quote : escape ≠ quote
  unescape_quote : unescape quote = quote
  unescape_escape : unescape escape = escape

/-- The grammar with these characters, if they can be told apart. -/
def Grammar.make? {α : Type} [DecidableEq α] (field line quote escape null : α)
    (unescape : α → α) : Option (Grammar α) :=
  if h : (field ≠ line ∧ quote ≠ field ∧ quote ≠ line) ∧
      (escape ≠ field ∧ escape ≠ line ∧ escape ≠ quote) ∧
      unescape quote = quote ∧ unescape escape = escape then
    some {
      field := field
      line := line
      quote := quote
      escape := escape
      null := null
      unescape := unescape
      field_ne_line := h.1.1
      quote_ne_field := h.1.2.1
      quote_ne_line := h.1.2.2
      escape_ne_field := h.2.1.1
      escape_ne_line := h.2.1.2.1
      escape_ne_quote := h.2.1.2.2
      unescape_quote := h.2.2.1
      unescape_escape := h.2.2.2 }
  else
    none

/-- What has been read of a field. -/
inductive Mode (α : Type) where
  | start
  /-- no quotes; escaped characters are marked -/
  | plain (read : List (Bool × α))
  | plainEscape (read : List (Bool × α))
  | quoted (read : List α)
  | quotedEscape (read : List α)
  /-- after the closing quote -/
  | closed (read : List α)

/-- The lines before, the fields of the line before, and the field. -/
structure State (α : Type) where
  lines : List (List (Option (List α)))
  fields : List (Option (List α))
  mode : Mode α

namespace Grammar

variable {α : Type} [DecidableEq α] (G : Grammar α)

/-- A field without quotes; `none` is NULL. -/
def plainValue (read : List (Bool × α)) : Option (List α) :=
  if read = [(true, G.null)] then none
  else some (read.map fun c => if c.1 then G.unescape c.2 else c.2)

/-- The value of a field that ends here, if it can. -/
def value : Mode α → Option (Option (List α))
  | .start => some (some [])
  | .plain read => some (G.plainValue read)
  | .closed read => some (some read)
  | _ => none

/-- The next character. -/
def step (s : State α) (c : α) : Option (State α) :=
  let separate : Option (State α) :=
    (G.value s.mode).map fun v =>
      if c = G.field then ⟨s.lines, s.fields ++ [v], .start⟩
      else ⟨s.lines ++ [s.fields ++ [v]], [], .start⟩
  match s.mode with
  | .start =>
    if c = G.field ∨ c = G.line then separate
    else if c = G.quote then some { s with mode := .quoted [] }
    else if c = G.escape then some { s with mode := .plainEscape [] }
    else some { s with mode := .plain [(false, c)] }
  | .plain read =>
    if c = G.field ∨ c = G.line then separate
    else if c = G.escape then some { s with mode := .plainEscape read }
    else some { s with mode := .plain (read ++ [(false, c)]) }
  | .plainEscape read => some { s with mode := .plain (read ++ [(true, c)]) }
  | .quoted read =>
    if c = G.escape then some { s with mode := .quotedEscape read }
    else if c = G.quote then some { s with mode := .closed read }
    else some { s with mode := .quoted (read ++ [c]) }
  | .quotedEscape read => some { s with mode := .quoted (read ++ [G.unescape c]) }
  | .closed _ => if c = G.field ∨ c = G.line then separate else none

def run (s : State α) (text : List α) : Option (State α) := text.foldlM G.step s

/-- The end of the text ends the last line, unless nothing of it has been read. -/
def finish (s : State α) : Option (List (List (Option (List α)))) :=
  match s.mode with
  | .start => some (if s.fields.isEmpty then s.lines else s.lines ++ [s.fields ++ [some []]])
  | mode => (G.value mode).map fun v => s.lines ++ [s.fields ++ [v]]

/-- The lines of a text. -/
def decode (text : List α) : Option (List (List (Option (List α)))) :=
  (G.run ⟨[], [], .start⟩ text).bind G.finish

/-! ## Writing fields -/

/-- The text is one field of this value. -/
def Encodes (text : List α) (v : Option (List α)) : Prop :=
  ∃ mode, mode ≠ .start ∧ G.value mode = some v ∧
    ∀ lines fields, G.run ⟨lines, fields, .start⟩ text = some ⟨lines, fields, mode⟩

/-- A character without a meaning of its own. -/
def Plain (c : α) : Prop := c ≠ G.field ∧ c ≠ G.line ∧ c ≠ G.quote ∧ c ≠ G.escape

variable {G} {s : State α} {text a b : List α} {c : α} {lines : List (List (Option (List α)))}
  {fields : List (Option (List α))}

theorem run_append : G.run s (a ++ b) = (G.run s a).bind fun s => G.run s b := by
  rw [run, List.foldlM_append]
  rfl

theorem run_cons : G.run s (c :: text) = (G.step s c).bind fun s => G.run s text := by
  rw [run, List.foldlM_cons]
  rfl

theorem run_escape (bytes read : List α) :
    G.run ⟨lines, fields, .quoted read⟩ (Quoting.escape G.quote G.escape bytes) =
      some ⟨lines, fields, .quoted (read ++ bytes)⟩ := by
  induction bytes generalizing read with
  | nil => rw [List.append_nil]; rfl
  | cons b bytes ih =>
    have hnext := ih (read ++ [b])
    rw [List.append_assoc, List.singleton_append] at hnext
    rw [Quoting.escape]
    by_cases hspecial : b = G.quote ∨ b = G.escape
    · have hmeaning : G.unescape b = b := by
        rcases hspecial with rfl | rfl
        · exact G.unescape_quote
        · exact G.unescape_escape
      rw [if_pos hspecial, run_cons, step]
      dsimp only
      rw [if_pos rfl, Option.bind_some, run_cons, step]
      dsimp only
      rw [hmeaning, Option.bind_some]
      exact hnext
    · have hquote : b ≠ G.quote := fun h => hspecial (Or.inl h)
      have hescape : b ≠ G.escape := fun h => hspecial (Or.inr h)
      rw [if_neg hspecial, run_cons, step]
      dsimp only
      rw [if_neg hescape, if_neg hquote, Option.bind_some]
      exact hnext

/-- **Quoted bytes** are read back, whatever they are. -/
theorem encodes_quote (bytes : List α) :
    G.Encodes (Quoting.quote G.quote G.escape bytes) (some bytes) := by
  refine ⟨.closed bytes, ?_, rfl, ?_⟩
  · intro h
    cases h
  · intro lines fields
    have hnot : ¬ (G.quote = G.field ∨ G.quote = G.line) := by
      rintro (h | h)
      · exact G.quote_ne_field h
      · exact G.quote_ne_line h
    rw [Quoting.quote, run_cons, step]
    dsimp only
    rw [if_neg hnot, if_pos rfl, Option.bind_some, run_append, run_escape, List.nil_append,
      Option.bind_some, run_cons, step]
    dsimp only
    rw [if_neg G.escape_ne_quote.symm, if_pos rfl]
    rfl

/-- **NULL** is read back. -/
theorem encodes_null : G.Encodes [G.escape, G.null] none := by
  refine ⟨.plain [(true, G.null)], ?_, ?_, ?_⟩
  · intro h
    cases h
  · rw [value, plainValue, if_pos rfl]
  · intro lines fields
    have hnot : ¬ (G.escape = G.field ∨ G.escape = G.line) := by
      rintro (h | h)
      · exact G.escape_ne_field h
      · exact G.escape_ne_line h
    rw [run_cons, step]
    dsimp only
    rw [if_neg hnot, if_neg G.escape_ne_quote, if_pos rfl]
    rfl

theorem run_plain {token : List α} (read : List (Bool × α)) (h : ∀ c ∈ token, G.Plain c) :
    G.run ⟨lines, fields, .plain read⟩ token =
      some ⟨lines, fields, .plain (read ++ token.map fun c => (false, c))⟩ := by
  induction token generalizing read with
  | nil => rw [List.map_nil, List.append_nil]; rfl
  | cons c token ih =>
    obtain ⟨hfield, hline, -, hescape⟩ := h c List.mem_cons_self
    have hnot : ¬ (c = G.field ∨ c = G.line) := by
      rintro (h | h)
      · exact hfield h
      · exact hline h
    have hnext := ih (read ++ [(false, c)]) fun d hd => h d (List.mem_cons_of_mem _ hd)
    rw [List.append_assoc, List.singleton_append] at hnext
    rw [run_cons, step]
    dsimp only
    rw [if_neg hnot, if_neg hescape, Option.bind_some]
    exact hnext

/-- **A token of plain characters** is read back. -/
theorem encodes_plain {token : List α} (hne : token ≠ []) (h : ∀ c ∈ token, G.Plain c) :
    G.Encodes token (some token) := by
  cases token with
  | nil => exact absurd rfl hne
  | cons c token =>
    obtain ⟨hfield, hline, hquote, hescape⟩ := h c List.mem_cons_self
    have hnot : ¬ (c = G.field ∨ c = G.line) := by
      rintro (h | h)
      · exact hfield h
      · exact hline h
    refine ⟨.plain ((c :: token).map fun c => (false, c)), ?_, ?_, ?_⟩
    · intro h
      cases h
    · have hvalue : ((c :: token).map fun c => (false, c)) ≠ [(true, G.null)] := by
        intro heq
        cases heq
      rw [value, plainValue, if_neg hvalue, List.map_map]
      simp [Function.comp_def]
    · intro lines fields
      have hrest : G.run ⟨lines, fields, .plain [(false, c)]⟩ token = _ :=
        run_plain [(false, c)] fun d hd => h d (List.mem_cons_of_mem _ hd)
      rw [run_cons, step]
      dsimp only
      rw [if_neg hnot, if_neg hquote, if_neg hescape, Option.bind_some]
      exact hrest

/-! ## Lines of fields -/

variable (G) in
def joinFields : List (List α) → List α
  | [] => []
  | [text] => text
  | text :: texts => text ++ G.field :: joinFields texts

variable (G) in
def joinLines : List (List α) → List α
  | [] => []
  | [text] => text
  | text :: texts => text ++ G.line :: joinLines texts

variable {mode : Mode α} {v : Option (List α)}

theorem step_field (hvalue : G.value mode = some v) :
    G.step ⟨lines, fields, mode⟩ G.field = some ⟨lines, fields ++ [v], .start⟩ := by
  have hseparate : (G.value mode).map (fun v => if G.field = G.field then
      (⟨lines, fields ++ [v], .start⟩ : State α) else ⟨lines ++ [fields ++ [v]], [], .start⟩) =
      some ⟨lines, fields ++ [v], .start⟩ := by
    rw [hvalue, Option.map_some, if_pos rfl]
  unfold step
  dsimp only
  cases mode with
  | start | plain read | closed read =>
    dsimp only
    rw [if_pos (Or.inl rfl)]
    exact hseparate
  | plainEscape read | quoted read | quotedEscape read => cases hvalue

theorem step_line (hvalue : G.value mode = some v) :
    G.step ⟨lines, fields, mode⟩ G.line = some ⟨lines ++ [fields ++ [v]], [], .start⟩ := by
  have hseparate : (G.value mode).map (fun v => if G.line = G.field then
      (⟨lines, fields ++ [v], .start⟩ : State α) else ⟨lines ++ [fields ++ [v]], [], .start⟩) =
      some ⟨lines ++ [fields ++ [v]], [], .start⟩ := by
    rw [hvalue, Option.map_some, if_neg G.field_ne_line.symm]
  unfold step
  dsimp only
  cases mode with
  | start | plain read | closed read =>
    dsimp only
    rw [if_pos (Or.inr rfl)]
    exact hseparate
  | plainEscape read | quoted read | quotedEscape read => cases hvalue

theorem finish_of_ne (hmode : mode ≠ .start) (hvalue : G.value mode = some v) :
    G.finish ⟨lines, fields, mode⟩ = some (lines ++ [fields ++ [v]]) := by
  cases mode with
  | start => exact absurd rfl hmode
  | plain read | closed read =>
    unfold finish
    dsimp only
    rw [hvalue, Option.map_some]
  | plainEscape read | quoted read | quotedEscape read => cases hvalue

/-- The fields of a line are read one after the other; the last one is open at
the end. -/
theorem run_joinFields {texts : List (List α)} {values : List (Option (List α))}
    (hne : texts ≠ []) (h : List.Forall₂ G.Encodes texts values) :
    ∃ before v mode, values = before ++ [v] ∧ mode ≠ .start ∧ G.value mode = some v ∧
      ∀ lines fields, G.run ⟨lines, fields, .start⟩ (G.joinFields texts) =
        some ⟨lines, fields ++ before, mode⟩ := by
  induction h with
  | nil => exact absurd rfl hne
  | @cons text value texts values hfirst hrest ih =>
    obtain ⟨mode, hmode, hvalue, hrun⟩ := hfirst
    cases hrest with
    | nil =>
      refine ⟨[], value, mode, rfl, hmode, hvalue, ?_⟩
      intro lines fields
      rw [joinFields, hrun, List.append_nil]
    | @cons text' value' texts values hsecond hmore =>
      obtain ⟨before, v, mode', hvalues, hmode', hvalue', hrun'⟩ := ih (List.cons_ne_nil _ _)
      refine ⟨value :: before, v, mode', by rw [hvalues]; rfl, hmode', hvalue', ?_⟩
      intro lines fields
      rw [joinFields, run_append, hrun, Option.bind_some, run_cons, step_field hvalue,
        Option.bind_some, hrun', List.append_assoc, List.singleton_append]
      exact fun h => List.cons_ne_nil _ _ h

/-- **Lines of fields** are read back. -/
theorem decode_joinLines {texts : List (List (List α))} {values : List (List (Option (List α)))}
    (hne : ∀ row ∈ texts, row ≠ []) (h : List.Forall₂ (List.Forall₂ G.Encodes) texts values) :
    G.decode (G.joinLines (texts.map G.joinFields)) = some values := by
  have hlines : ∀ lines, (G.run ⟨lines, [], .start⟩ (G.joinLines (texts.map G.joinFields))).bind
      G.finish = some (lines ++ values) := by
    induction h with
    | nil =>
      intro lines
      rw [List.append_nil]
      rfl
    | @cons row value texts values hfirst hrest ih =>
      obtain ⟨before, v, mode, rfl, hmode, hvalue, hrun⟩ :=
        run_joinFields (hne row List.mem_cons_self) hfirst
      intro lines
      cases hrest with
      | nil =>
        rw [List.map_cons, List.map_nil, joinLines, hrun, Option.bind_some, List.nil_append,
          finish_of_ne hmode hvalue]
      | @cons row' value' texts values hsecond hmore =>
        have hnext := ih (fun row hrow => hne row (List.mem_cons_of_mem _ hrow))
        rw [List.map_cons, joinLines, run_append, hrun, Option.bind_some, run_cons,
          step_line hvalue, Option.bind_some, List.nil_append, hnext, List.append_assoc,
          List.singleton_append]
        exact fun h => List.cons_ne_nil _ _ h
  exact hlines []

end Grammar

end LoadData
