import UserDirectory.Filter.Compile

/-!
# What a query says

The directory's query language has four kinds of atoms – a field has a value,
lies in a range, is there, is not there – and builds on them with negation,
`AND` and `OR`. A `Query.Formula` is such a condition without its spelling.

A conjunction is associative, and parentheses around one that stands inside
another say nothing. So a formula *is* the list of its conjuncts: conjunction
is concatenation, `(a AND b) AND c` and `a AND b AND c` are one formula, and
"the clause is a conjunct of the whole query" is membership. The list without
conjuncts is the formula that asks nothing, which is what a filter without any
text denotes. Disjunctions keep their nesting, since they are always written
in parentheses.

Two operations differ only in what they make of formulas that ask nothing:
`Connective.combine` joins all of its operands, as a reader of text must, and
`Formula.disj` leaves the empty ones out, as the compiler does.
-/

namespace UserDirectory.Query

/-- **A value in a query**: a phrase, by the text between its quotes, or a
bare word. -/
inductive Term where
  | phrase (text : String)
  | word (text : String)
  deriving DecidableEq, Repr

/-- The text of a value, however it is written. -/
def Term.text : Term → String
  | .phrase text => text
  | .word text => text

/-- **One end of a range.** Whether its text was quoted makes no difference. -/
structure Bound where
  text : String
  inclusive : Bool
  deriving DecidableEq, Repr

/-- **An atomic condition** on a field. -/
inductive Atom where
  /-- The field has the value. -/
  | equals (field : String) (value : Term)
  /-- The field lies between two ends, each of which may be open. -/
  | range (field : String) (lower upper : Option Bound)
  /-- The field has a value. -/
  | present (field : String)
  /-- The field has no value. -/
  | absent (field : String)
  deriving DecidableEq, Repr

/-- **A part of a conjunction** that is not a conjunction itself. -/
inductive Conjunct where
  | atom (a : Atom)
  /-- The conjunction does not hold. -/
  | not (f : List Conjunct)
  /-- One of the conjunctions holds. -/
  | any (fs : List (List Conjunct))
  deriving Repr

/-- **A formula**: the conjunction of its members. -/
abbrev Formula := List Conjunct

/-- The two words that join clauses. -/
inductive Connective where
  | and
  | or
  deriving DecidableEq, Repr

/-- The other word. -/
def Connective.other : Connective → Connective
  | .and => .or
  | .or => .and

/-- **Joins formulas.** A single one is itself, whichever the word. -/
def Connective.combine : Connective → List Formula → Formula
  | .and, fs => fs.flatten
  | .or, [] => []
  | .or, [f] => f
  | .or, fs => [.any fs]

/-- A single operand is left as it is. -/
@[simp] theorem Connective.combine_singleton (c : Connective) (f : Formula) :
    c.combine [f] = f := by
  cases c with
  | and => exact List.flatten_singleton
  | or => rfl

/-- Combining formulas that ask something asks something. -/
theorem Connective.combine_ne_nil (c : Connective) {fs : List Formula} (hfs : fs ≠ [])
    (h : ∀ f ∈ fs, f ≠ []) : c.combine fs ≠ [] := by
  match c, fs, hfs with
  | .and, f :: rest, _ =>
    exact List.append_ne_nil_of_left_ne_nil (h f List.mem_cons_self) rest.flatten
  | .or, [f], _ => exact h f List.mem_cons_self
  | .or, _ :: _ :: _, _ => exact List.cons_ne_nil _ _

/-- A disjunction of several formulas is a conjunct of its own. -/
theorem Connective.combine_or_of_two_le {fs : List Formula} (h : 2 ≤ fs.length) :
    Connective.or.combine fs = [.any fs] := by
  match fs, h with
  | _ :: _ :: _, _ => rfl

namespace Formula

/-- The negation, unless the formula asks nothing. -/
def negate (f : Formula) : Formula := if f.isEmpty then [] else [.not f]

/-- The formulas that ask something. -/
def stated (fs : List Formula) : List Formula := fs.filter fun f => !f.isEmpty

/-- **The disjunction of the formulas that ask something.** -/
def disj (fs : List Formula) : Formula := Connective.or.combine (stated fs)

theorem negate_of_ne_nil {f : Formula} (h : f ≠ []) : negate f = [.not f] := by
  rw [negate, if_neg (by simpa using h)]

theorem stated_singleton {f : Formula} (h : f ≠ []) : stated [f] = [f] := by
  cases f with
  | nil => exact absurd rfl h
  | cons c rest => rfl

theorem stated_append (fs gs : List Formula) : stated (fs ++ gs) = stated fs ++ stated gs :=
  List.filter_append fs gs

theorem ne_nil_of_mem_stated {f : Formula} {fs : List Formula} (h : f ∈ stated fs) : f ≠ [] := by
  simpa using (List.mem_filter.1 h).2

/-- **What is not stated adds nothing to a conjunction.** -/
theorem flatten_stated (fs : List Formula) : (stated fs).flatten = fs.flatten :=
  List.flatten_filter_not_isEmpty

/-- Formulas that all ask something are all stated. -/
theorem stated_of_forall {fs : List Formula} (h : ∀ f ∈ fs, f ≠ []) : stated fs = fs :=
  List.filter_eq_self.2 fun f hf => by simpa using h f hf

end Formula

/-! ## Truth

Atoms are judged by the record at hand; the judgement extends to formulas. -/

mutual

/-- A part of a conjunction holds. -/
def Conjunct.Holds (v : Atom → Prop) : Conjunct → Prop
  | .atom a => v a
  | .not f => ¬ Formula.Holds v f
  | .any fs => Formula.AnyHolds v fs

/-- **The formula holds**: each of its conjuncts does. -/
def Formula.Holds (v : Atom → Prop) : List Conjunct → Prop
  | [] => True
  | c :: rest => c.Holds v ∧ Formula.Holds v rest

/-- One of the formulas holds. -/
def Formula.AnyHolds (v : Atom → Prop) : List (List Conjunct) → Prop
  | [] => False
  | f :: rest => Formula.Holds v f ∨ Formula.AnyHolds v rest

end

/-- **A conjunct constrains every record** for which the formula holds. -/
theorem Formula.Holds.of_mem {v : Atom → Prop} {f : Formula} {c : Conjunct}
    (h : Formula.Holds v f) (hc : c ∈ f) : c.Holds v := by
  induction f with
  | nil => exact absurd hc List.not_mem_nil
  | cons d rest ih =>
    rw [Formula.Holds] at h
    rcases List.mem_cons.1 hc with rfl | hc
    · exact h.1
    · exact ih h.2 hc

end UserDirectory.Query
