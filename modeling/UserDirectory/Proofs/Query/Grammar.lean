import UserDirectory.Proofs.Query.Formula

/-!
# The grammar of queries

A reader for the directory's query language, as an automaton with a stack:

    query  := unit ((" AND " | " OR ") unit)*
    unit   := "-"? ("(" query ")" | "_exists_:" name | "_missing_:" name | name ":" value)
    value  := term | "(" term (" OR " term)* ")" | range
    range  := ("[" | "{") end " TO " end ("]" | "}")
    end    := "*" | term
    term   := word | a phrase in double quotes, a backslash before any character

The reader takes one character at a time (`State.step`), so that reading a text
and then another is reading them joined (`run_append`); whatever surrounds a
piece of text, what the piece does to the state can be said of the piece alone.

Which of `AND` and `OR` binds tighter is a parameter. An open group
(`Frame`) collects the operands of the tighter word and, at each of the other,
closes them; at its end it is the looser combination of what was closed.

A word has no end of its own: it ends at the first character that cannot
continue it. `State.settle` is that end without the character, and a text that
has been read is told from one broken off by what its last state settles to.
-/

namespace UserDirectory.Query

/-- Characters of a field's name. -/
def isNameChar (c : Char) : Bool := isAlphanumeric c || c == '_' || c == '.'

/-- **Where a value stands.** -/
inductive Slot where
  /-- After the colon. -/
  | value
  /-- In a list of choices, after those that were read. -/
  | choice (read : List Term)
  /-- At the lower end of a range. -/
  | lower (inclusive : Bool)
  /-- At the upper end of a range, after the lower one. -/
  | upper (lower : Option Bound)

/-- **What is being read.** -/
inductive Mode where
  /-- The beginning of a unit. -/
  | unit
  /-- A name, after these characters. -/
  | name (cs : List Char)
  /-- The name that a test of existence asks for. -/
  | operand (present : Bool) (cs : List Char)
  /-- The beginning of a term. -/
  | term (field : String) (slot : Slot)
  /-- A phrase. -/
  | phrase (field : String) (slot : Slot) (cs : List Char)
  /-- A phrase, right after a backslash. -/
  | escape (field : String) (slot : Slot) (cs : List Char)
  /-- A bare word. -/
  | word (field : String) (slot : Slot) (cs : List Char)
  /-- What follows a term in a list or a range; an open end has no term. -/
  | closed (field : String) (slot : Slot) (term : Option Term)
  /-- What follows a unit. -/
  | after
  /-- The joining word, between two units or, in a list or a range, before the
  place given. -/
  | gap (place : Option (String × Slot)) (cs : List Char)

/-- **An open group.** -/
structure Frame where
  /-- The operands of the looser word that are complete. -/
  closed : List Formula := []
  /-- The operands of the tighter word since then. -/
  current : List Formula := []
  /-- A minus stands before the next unit. -/
  negated : Bool := false

/-- **A reader in the middle of a text**: the innermost group and those around
it. -/
structure State where
  mode : Mode
  frame : Frame := {}
  stack : List Frame := []

/-- The reader at the beginning of a text. -/
def State.start : State := { mode := .unit }

namespace Frame

/-- Takes in a unit. -/
def add (F : Frame) (f : Formula) : Frame :=
  { F with current := F.current ++ [if F.negated then f.negate else f], negated := false }

/-- Takes in a joining word. -/
def join (tight c : Connective) (F : Frame) : Frame :=
  if c = tight then F else { closed := F.closed ++ [tight.combine F.current] }

/-- The operands of the looser word. -/
def groups (tight : Connective) (F : Frame) : List Formula :=
  F.closed ++ [tight.combine F.current]

/-- **The formula of a group**, once it is closed. -/
def formula (tight : Connective) (F : Frame) : Formula :=
  tight.other.combine (F.groups tight)

end Frame

namespace State

/-- A unit has been read. -/
def complete (s : State) (f : Formula) : State :=
  { s with mode := .after, frame := s.frame.add f }

/-- A term, or the open end of a range, has been read. -/
def endTerm (s : State) (field : String) (slot : Slot) (term : Option Term) : State :=
  match slot, term with
  | .value, some t => s.complete [.atom (.equals field t)]
  | slot, term => { s with mode := .closed field slot term }

/-- **The word at hand comes to its end.** -/
def settle (s : State) : State :=
  match s.mode with
  | .word field slot cs => s.endTerm field slot (some (.word (String.ofList cs)))
  | .operand present cs =>
    if cs.isEmpty then s
    else
      let field := String.ofList cs
      s.complete [.atom (if present then .present field else .absent field)]
  | _ => s

/-- What follows the colon after a name. -/
def afterName (name : String) : Mode :=
  if name = "_exists_" then .operand true []
  else if name = "_missing_" then .operand false []
  else .term name .value

/-- The beginning of a term. -/
def beginTerm (s : State) (field : String) (slot : Slot) (c : Char) : Option State :=
  if c = '"' then some { s with mode := .phrase field slot [] }
  else if isBareBoundChar c then some { s with mode := .word field slot [c] }
  else
    match slot with
    | .value =>
      if c = '(' then some { s with mode := .term field (.choice []) }
      else if c = '[' then some { s with mode := .term field (.lower true) }
      else if c = '\x7b' then some { s with mode := .term field (.lower false) }
      else none
    | .choice _ => none
    | .lower _ | .upper _ => if c = '*' then some (s.endTerm field slot none) else none

/-- What follows a term in a list or a range. -/
def afterTerm (s : State) (field : String) (slot : Slot) (term : Option Term) (c : Char) :
    Option State :=
  match slot, term with
  | .choice read, some t =>
    if c = ' ' then some { s with mode := .gap (some (field, .choice (read ++ [t]))) [] }
    else if c = ')' then
      some (s.complete (Connective.or.combine
        ((read ++ [t]).map fun t => [.atom (.equals field t)])))
    else none
  | .lower inclusive, term =>
    if c = ' ' then
      some { s with mode := .gap (some (field, .upper (term.map (⟨·.text, inclusive⟩)))) [] }
    else none
  | .upper lower, term =>
    if c = ']' then
      some (s.complete [.atom (.range field lower (term.map (⟨·.text, true⟩)))])
    else if c = '\x7d' then
      some (s.complete [.atom (.range field lower (term.map (⟨·.text, false⟩)))])
    else none
  | _, _ => none

/-- The end of the joining word. -/
def afterGap (tight : Connective) (s : State) (place : Option (String × Slot)) (word : String) :
    Option State :=
  match place with
  | none =>
    if word = "AND" then some { s with mode := .unit, frame := s.frame.join tight .and }
    else if word = "OR" then some { s with mode := .unit, frame := s.frame.join tight .or }
    else none
  | some (field, .choice read) =>
    if word = "OR" then some { s with mode := .term field (.choice read) } else none
  | some (field, .upper lower) =>
    if word = "TO" then some { s with mode := .term field (.upper lower) } else none
  | some _ => none

/-- One character, none that continues a word. -/
def act (tight : Connective) (s : State) (c : Char) : Option State :=
  match s.mode with
  | .unit =>
    if c = '(' then some { mode := .unit, stack := s.frame :: s.stack }
    else if c = '-' then
      if s.frame.negated then none
      else some { s with frame := { s.frame with negated := true } }
    else if isNameChar c then some { s with mode := .name [c] }
    else none
  | .name cs =>
    if c = ':' then some { s with mode := afterName (String.ofList cs) }
    else if isNameChar c then some { s with mode := .name (cs ++ [c]) }
    else none
  | .term field slot => s.beginTerm field slot c
  | .phrase field slot cs =>
    if c = '"' then some (s.endTerm field slot (some (.phrase (String.ofList cs))))
    else if c = '\\' then some { s with mode := .escape field slot cs }
    else some { s with mode := .phrase field slot (cs ++ [c]) }
  | .escape field slot cs => some { s with mode := .phrase field slot (cs ++ [c]) }
  | .closed field slot term => s.afterTerm field slot term c
  | .after =>
    if c = ' ' then some { s with mode := .gap none [] }
    else if c = ')' then
      match s.stack with
      | [] => none
      | outer :: stack => some { mode := .after, frame := outer.add (s.frame.formula tight), stack }
    else none
  | .gap place cs =>
    if c = ' ' then s.afterGap tight place (String.ofList cs)
    else if c.isUpper then some { s with mode := .gap place (cs ++ [c]) }
    else none
  | .word .. | .operand .. => none

/-- **Reads one character**; nothing if it cannot stand here. -/
def step (tight : Connective) (s : State) (c : Char) : Option State :=
  match s.mode with
  | .word field slot cs =>
    if isBareBoundChar c then some { s with mode := .word field slot (cs ++ [c]) }
    else s.settle.act tight c
  | .operand present cs =>
    if isNameChar c then some { s with mode := .operand present (cs ++ [c]) }
    else s.settle.act tight c
  | _ => s.act tight c

/-- Reads a text. -/
def run (tight : Connective) (s : State) (cs : List Char) : Option State := cs.foldlM (step tight) s

/-- The outermost group, if the text may end here. -/
def outcome? (s : State) : Option Frame :=
  match s.settle with
  | ⟨.after, frame, []⟩ => some frame
  | _ => none

@[simp] theorem run_nil (tight : Connective) (s : State) : s.run tight [] = some s := rfl

theorem run_cons (tight : Connective) (s : State) (c : Char) (cs : List Char) :
    s.run tight (c :: cs) = (s.step tight c).bind fun t => t.run tight cs :=
  List.foldlM_cons

/-- **Texts are read one after another.** -/
theorem run_append (tight : Connective) (s : State) (cs ds : List Char) :
    s.run tight (cs ++ ds) = (s.run tight cs).bind fun t => t.run tight ds :=
  List.foldlM_append

theorem run_singleton (tight : Connective) (s : State) (c : Char) :
    s.run tight [c] = s.step tight c := by
  rw [run_cons]
  exact Option.bind_fun_some _

end State

/-- The outermost group of a query that is not empty. -/
def frame? (tight : Connective) (text : String) : Option Frame :=
  (State.start.run tight text.toList).bind State.outcome?

/-- **The operands of the looser word** at the outermost level of a query. -/
def groups? (tight : Connective) (text : String) : Option (List Formula) :=
  (frame? tight text).map (·.groups tight)

/-- **The formula of a query**; the empty text asks nothing. -/
def read? (tight : Connective) (text : String) : Option Formula :=
  if text = "" then some [] else (frame? tight text).map (·.formula tight)

/-- The looser word splits first: `x:1 OR y:2 AND z:3` is a disjunction of two
when `AND` binds tighter. -/
example : (groups? .and "x:1 OR y:2 AND z:3").map (·.length) = some 2 := by decide +kernel

end UserDirectory.Query
