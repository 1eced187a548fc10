import UserDirectory.Proofs.Query.Terms
import Mathlib.Data.List.Forall2

/-!
# Units and levels

What the compiler writes is made of units: texts that the reader takes in
whole, in whatever group they stand. `ReadsAs tight t f` says of a text `t` that
it is a unit with the formula `f`; the reader then stands behind it, with `f`
added to the group at hand and nothing else changed. Since the state before is
arbitrary, units can be put next to each other (`State.run_level`) and inside
parentheses (`Primary.paren`) without looking at them again.

A unit may begin with a minus, and then no minus may stand before it; a
`Primary` is a unit without one. Everything but a negation is primary.

A level is read alike whichever word binds tighter, because all of its units
are joined by one word: either it is the tighter one and collects them in one
group, or it is the looser one and closes a group after each of them.
-/

namespace UserDirectory.Query

variable {tight : Connective}

/-- **The text is a unit that a minus may precede.** -/
def Primary (tight : Connective) (text : String) (f : Formula) : Prop :=
  ∀ F S, ∃ s, State.run tight ⟨.unit, F, S⟩ text.toList = some s ∧ s.settle = ⟨.after, F.add f, S⟩

/-- **The text is a unit that says `f`.** -/
def ReadsAs (tight : Connective) (text : String) (f : Formula) : Prop :=
  ∀ F S, F.negated = false →
    ∃ s, State.run tight ⟨.unit, F, S⟩ text.toList = some s ∧ s.settle = ⟨.after, F.add f, S⟩

theorem Primary.readsAs {text : String} {f : Formula} (h : Primary tight text f) :
    ReadsAs tight text f :=
  fun F S _ => h F S

/-- **A minus negates the whole unit behind it.** -/
theorem Primary.minus {text : String} {f : Formula} (h : Primary tight text f) :
    ReadsAs tight ("-" ++ text) f.negate := by
  intro F S hF
  obtain ⟨s, hrun, hset⟩ := h { F with negated := true } S
  refine ⟨s, ?_, ?_⟩
  · have hminus : State.step tight ⟨.unit, F, S⟩ '-'
        = some ⟨.unit, { F with negated := true }, S⟩ := by
      simp [State.step, State.act, hF]
    rw [String.toList_append]
    show State.run tight _ ('-' :: text.toList) = some s
    rw [State.run_cons, hminus]
    exact hrun
  · rw [hset, Frame.add, Frame.add, hF]
    rfl

/-! ## Levels -/

/-- The joining word with the blanks around it. -/
def Connective.separator : Connective → String
  | .and => " AND "
  | .or => " OR "

namespace Frame

/-- Takes in several units, with a joining word between neighbours. -/
def addAll (tight c : Connective) (F : Frame) : List Formula → Frame
  | [] => F
  | [f] => F.add f
  | f :: fs => ((F.add f).join tight c).addAll tight c fs

theorem negated_join_add (tight c : Connective) (F : Frame) (f : Formula) :
    ((F.add f).join tight c).negated = false := by
  unfold join
  split <;> rfl

/-- The tighter word collects the units in the group at hand. -/
theorem addAll_self {F : Frame} (hF : F.negated = false) {fs : List Formula} (hfs : fs ≠ []) :
    F.addAll tight tight fs = { F with current := F.current ++ fs } := by
  induction fs generalizing F with
  | nil => exact absurd rfl hfs
  | cons f rest ih =>
    cases rest with
    | nil =>
      rw [addAll, add, hF]
      rfl
    | cons g rest =>
      rw [addAll, join, if_pos rfl, ih rfl (List.cons_ne_nil _ _), add, hF,
        List.append_assoc]
      · rfl
      · exact fun h => List.cons_ne_nil _ _ h

/-- The looser word closes a group after each unit. -/
theorem groups_addAll_of_ne {c : Connective} (hc : c ≠ tight) {F : Frame} (hF : F.negated = false)
    (hcur : F.current = []) {fs : List Formula} (hfs : fs ≠ []) :
    (F.addAll tight c fs).groups tight = F.closed ++ fs := by
  induction fs generalizing F with
  | nil => exact absurd rfl hfs
  | cons f rest ih =>
    have hadd : F.add f = { F with current := [f] } := by
      rw [add, hF, hcur]
      rfl
    cases rest with
    | nil => rw [addAll, groups, hadd, Connective.combine_singleton]
    | cons g rest =>
      -- the joining word closes the group of `f` alone and leaves an empty one
      rw [addAll, join, if_neg hc, hadd, ih rfl rfl (List.cons_ne_nil _ _),
        Connective.combine_singleton, List.append_assoc]
      · rfl
      · exact fun h => List.cons_ne_nil _ _ h

/-- **A group joined by one word is the combination by that word**, whichever
word binds tighter. -/
theorem formula_addAll (c : Connective) {fs : List Formula} (hfs : fs ≠ []) :
    (({} : Frame).addAll tight c fs).formula tight = c.combine fs := by
  by_cases hc : c = tight
  · subst hc
    rw [addAll_self rfl hfs, formula, groups]
    exact Connective.combine_singleton _ _
  · have hother : tight.other = c := by cases tight <;> cases c <;> simp_all [Connective.other]
    rw [formula, groups_addAll_of_ne hc rfl rfl hfs, hother]
    rfl

end Frame

namespace State

/-- **A joining word after a unit** opens the next one. -/
theorem run_separator (c : Connective) {s : State} {F : Frame} {S : List Frame}
    (h : s.settle = ⟨.after, F, S⟩) :
    s.run tight c.separator.toList = some ⟨.unit, F.join tight c, S⟩ := by
  have hblank : s.step tight ' ' = some ⟨.gap none [], F, S⟩ := by
    rw [step_settle (by decide) (by decide), h]
    rfl
  cases c with
  | and =>
    show s.run tight (' ' :: _) = _
    rw [run_cons, hblank]
    rfl
  | or =>
    show s.run tight (' ' :: _) = _
    rw [run_cons, hblank]
    rfl

/-- **A level is read unit by unit.** -/
theorem run_level (c : Connective) {ts : List String} {fs : List Formula}
    (h : List.Forall₂ (ReadsAs tight) ts fs) (hts : ts ≠ []) {F : Frame} (hF : F.negated = false)
    (S : List Frame) :
    ∃ s, run tight ⟨.unit, F, S⟩ (c.separator.intercalate ts).toList = some s ∧
      s.settle = ⟨.after, F.addAll tight c fs, S⟩ := by
  induction h generalizing F with
  | nil => exact absurd rfl hts
  | @cons t f ts fs ht hrest ih =>
    obtain ⟨s, hrun, hset⟩ := ht F S hF
    -- the joining word stands before every unit but the first
    cases hrest with
    | nil => exact ⟨s, by rwa [String.intercalate_singleton], hset⟩
    | @cons u g ts fs hu hrest =>
      obtain ⟨s', hrun', hset'⟩ :=
        ih (List.cons_ne_nil _ _) (F.negated_join_add tight c f)
      refine ⟨s', ?_, hset'⟩
      rw [String.intercalate_cons_cons, String.toList_append, String.toList_append,
        run_append, run_append, hrun, Option.bind_some, run_separator c hset]
      exact hrun'

end State

/-- **A level in parentheses is one unit.** -/
theorem Primary.paren (c : Connective) {ts : List String} {fs : List Formula}
    (h : List.Forall₂ (ReadsAs tight) ts fs) (hts : ts ≠ []) :
    Primary tight (paren (c.separator.intercalate ts)) (c.combine fs) := by
  intro F S
  obtain ⟨s, hrun, hset⟩ := State.run_level c h hts (F := {}) rfl (F :: S)
  have hfs : fs ≠ [] := by
    rintro rfl
    cases h
    exact hts rfl
  have hopen : State.step tight ⟨.unit, F, S⟩ '(' = some ⟨.unit, {}, F :: S⟩ := rfl
  -- the parenthesis ends the last unit's word, if it ends in one, and the group
  have hclose : s.step tight ')' = some ⟨.after, F.add (c.combine fs), S⟩ := by
    rw [State.step_settle (by decide) (by decide), hset]
    show some _ = _
    rw [Frame.formula_addAll c hfs]
  refine ⟨⟨.after, F.add (c.combine fs), S⟩, ?_, rfl⟩
  rw [Query.paren, String.toList_append, String.toList_append]
  show State.run tight _ (['('] ++ _ ++ [')']) = _
  rw [State.run_append, State.run_append, State.run_singleton, hopen, Option.bind_some, hrun,
    Option.bind_some, State.run_singleton, hclose]

/-- A unit in parentheses is itself. -/
theorem ReadsAs.paren {text : String} {f : Formula} (h : ReadsAs tight text f) :
    Primary tight (Query.paren text) f := by
  have hp := Primary.paren .and (List.Forall₂.cons h .nil) (List.cons_ne_nil _ _)
  rwa [String.intercalate_singleton, Connective.combine_singleton] at hp

/-! ## Atoms -/

section Atoms

variable {field : String}

/-- **A test of existence** names its own field. -/
theorem primary_operand (hf : PlainName field) (isThere : Bool) :
    Primary tight (if isThere then present field else absent field)
      [.atom (if isThere then .present field else .absent field)] := by
  intro F S
  have hname : State.run tight ⟨.unit, F, S⟩
      ((if isThere then "_exists_" else "_missing_").toList ++ [':'])
      = some ⟨.operand isThere [], F, S⟩ := by
    cases isThere with
    | true => exact State.run_name (by decide) (List.all_eq_true.1 (by decide))
    | false => exact State.run_name (by decide) (List.all_eq_true.1 (by decide))
  have hfield : State.run tight ⟨.operand isThere [], F, S⟩ field.toList
      = some ⟨.operand isThere field.toList, F, S⟩ := by
    refine State.run_collect_self [] _ fun c hc cs => ?_
    simp only [State.step, if_pos (hf.plain c hc)]
  refine ⟨⟨.operand isThere field.toList, F, S⟩, ?_, ?_⟩
  · have htext : (if isThere then present field else absent field).toList
        = ((if isThere then "_exists_" else "_missing_").toList ++ [':']) ++ field.toList := by
      cases isThere <;> exact String.toList_append
    rw [htext, State.run_append, hname]
    exact hfield
  · have hne : field.toList.isEmpty = false := by simpa using hf.nonempty
    simp [State.settle, State.complete, hne]

theorem primary_present (hf : PlainName field) :
    Primary tight (present field) [.atom (.present field)] :=
  primary_operand hf true

theorem primary_absent (hf : PlainName field) :
    Primary tight (absent field) [.atom (.absent field)] :=
  primary_operand hf false

/-- The name of a compared field, up to its colon. -/
theorem run_field (hf : PlainName field) (F : Frame) (S : List Frame) :
    State.run tight ⟨.unit, F, S⟩ (field.toList ++ [':']) = some ⟨.term field .value, F, S⟩ := by
  rw [State.run_name hf.nonempty hf.plain, State.afterName_of_plain hf]

/-- **A comparison with one value.** -/
theorem primary_equals (hf : PlainName field) (value : Literal) :
    Primary tight (equals field value) [.atom (.equals field value.term)] := by
  intro F S
  obtain ⟨s, hrun, hset⟩ :=
    State.run_literal tight F S value field .value
  refine ⟨s, ?_, hset⟩
  rw [equals, String.toList_append, String.toList_append, State.run_append]
  show (State.run tight _ (field.toList ++ [':'])).bind _ = _
  rw [run_field hf, Option.bind_some, hrun]

/-- The rest of a list of choices, up to its parenthesis. -/
theorem run_choices (tight : Connective) (field : String) (F : Frame) (S : List Frame)
    (value : Literal) (values : List Literal) (read : List Term) :
    State.run tight ⟨.term field (.choice read), F, S⟩
        ((disjoin ((value :: values).map Literal.text)).toList ++ [')'])
      = some ⟨.after, F.add (Connective.or.combine
          ((read ++ (value :: values).map Literal.term).map
            fun t => [.atom (.equals field t)])), S⟩ := by
  induction values generalizing value read with
  | nil =>
    obtain ⟨s, hrun, hset⟩ :=
      State.run_literal tight F S value field (.choice read)
    have hend : s.step tight ')' = some ⟨.after, F.add (Connective.or.combine
        ((read ++ [value.term]).map fun t => [.atom (.equals field t)])), S⟩ := by
      rw [State.step_settle (by decide) (by decide), hset]
      rfl
    rw [List.map_singleton, disjoin, String.intercalate_singleton, State.run_append, hrun,
      Option.bind_some, State.run_singleton, hend]
    rfl
  | cons next rest ih =>
    obtain ⟨s, hrun, hset⟩ :=
      State.run_literal tight F S value field (.choice read)
    have hor : s.run tight " OR ".toList
        = some ⟨.term field (.choice (read ++ [value.term])), F, S⟩ := by
      show s.run tight (' ' :: _) = _
      rw [State.run_cons, State.step_settle (by decide) (by decide), hset]
      rfl
    rw [List.map_cons, List.map_cons, disjoin, String.intercalate_cons_cons,
      String.toList_append, String.toList_append, List.append_assoc, List.append_assoc,
      State.run_append, hrun, Option.bind_some, State.run_append, hor, Option.bind_some]
    refine (ih next (read ++ [value.term])).trans ?_
    rw [List.append_assoc]
    rfl

/-- **A list of choices** is the disjunction of the comparisons. -/
theorem primary_oneOf (hf : PlainName field) (value : Literal) (values : List Literal) :
    Primary tight (field ++ ":" ++ paren (disjoin ((value :: values).map Literal.text)))
      (Connective.or.combine ((value :: values).map fun v => [.atom (.equals field v.term)])) := by
  intro F S
  have hopen : State.run tight ⟨.term field .value, F, S⟩ ['(']
      = some ⟨.term field (.choice []), F, S⟩ := rfl
  have hchoices := run_choices tight field F S value values []
  refine ⟨⟨.after, F.add _, S⟩, ?_, rfl⟩
  rw [paren, String.toList_append, String.toList_append, String.toList_append,
    String.toList_append, State.run_append]
  show (State.run tight _ (field.toList ++ [':'])).bind
    (fun t => State.run tight t (['('] ++ _ ++ [')'])) = _
  rw [run_field hf, Option.bind_some, List.append_assoc, State.run_append, hopen,
    Option.bind_some, hchoices, List.nil_append, List.map_map]
  rfl

/-! ## Ranges -/

/-- The text of one end of a range. -/
def endText : Option Literal → String
  | none => "*"
  | some l => bound l

/-- An end of a range, open or not, is read as its text. -/
theorem run_end (tight : Connective) (l : Option Literal) (field : String) (slot : Slot)
    (hslot : slot ≠ .value) (hchoice : ∀ read, slot ≠ .choice read) (F : Frame) (S : List Frame) :
    ∃ s t, State.run tight ⟨.term field slot, F, S⟩ (endText l).toList = some s ∧
      s.settle = ⟨.closed field slot t, F, S⟩ ∧ t.map Term.text = l.map (·.term.text) := by
  cases l with
  | none =>
    refine ⟨⟨.closed field slot none, F, S⟩, none, ?_, rfl, rfl⟩
    cases slot with
    | value => exact absurd rfl hslot
    | choice read => exact absurd rfl (hchoice read)
    | lower inclusive => rfl
    | upper lower => rfl
  | some l =>
    obtain ⟨s, t, hrun, hset, htext⟩ :=
      State.run_bound tight F S l field slot
    refine ⟨s, some t, hrun, ?_, congrArg some htext⟩
    rw [hset]
    cases slot with
    | value => exact absurd rfl hslot
    | _ => rfl

/-- The bracket before a range. -/
def openBracket (inclusive : Bool) : Char := if inclusive then '[' else '\x7b'

/-- The bracket behind a range. -/
def closeBracket (inclusive : Bool) : Char := if inclusive then ']' else '\x7d'

/-- The end of a range that a literal writes. -/
def endOf (inclusive : Bool) (l : Option Literal) : Option Bound :=
  l.map fun l => ⟨l.term.text, inclusive⟩

theorem map_end {inclusive : Bool} {t : Option Term} {l : Option Literal}
    (h : t.map Term.text = l.map (·.term.text)) :
    t.map (fun t => (⟨t.text, inclusive⟩ : Bound)) = endOf inclusive l := by
  have := congrArg (Option.map fun text => (⟨text, inclusive⟩ : Bound)) h
  rwa [Option.map_map, Option.map_map] at this

/-- **A range** says what its two ends say, however they are quoted. -/
theorem primary_range (hf : PlainName field) (i j : Bool) (lower upper : Option Literal)
    {text : String} (htext : text.toList = field.toList ++ [':'] ++ [openBracket i] ++
      (endText lower).toList ++ " TO ".toList ++ (endText upper).toList ++ [closeBracket j]) :
    Primary tight text [.atom (.range field (endOf i lower) (endOf j upper))] := by
  intro F S
  have hopen : State.run tight ⟨.term field .value, F, S⟩ [openBracket i]
      = some ⟨.term field (.lower i), F, S⟩ := by cases i <;> rfl
  obtain ⟨s, t, hrun, hset, ht⟩ := run_end tight lower field (.lower i)
    Slot.noConfusion (fun _ => Slot.noConfusion) F S
  have hto : s.run tight " TO ".toList
      = some ⟨.term field (.upper (endOf i lower)), F, S⟩ := by
    show s.run tight (' ' :: _) = _
    rw [State.run_cons, State.step_settle (by decide) (by decide), hset, ← map_end ht]
    rfl
  obtain ⟨s', t', hrun', hset', ht'⟩ := run_end tight upper field
    (.upper (endOf i lower)) Slot.noConfusion (fun _ => Slot.noConfusion) F S
  have hclose : s'.step tight (closeBracket j)
      = some ⟨.after, F.add [.atom (.range field (endOf i lower) (endOf j upper))], S⟩ := by
    rw [State.step_settle (by cases j <;> decide) (by cases j <;> decide), hset', ← map_end ht']
    cases j <;> rfl
  refine ⟨⟨.after, F.add _, S⟩, ?_, rfl⟩
  rw [htext, State.run_append, State.run_append, State.run_append, State.run_append,
    State.run_append, run_field hf, Option.bind_some, hopen, Option.bind_some, hrun,
    Option.bind_some, hto, Option.bind_some, hrun', Option.bind_some, State.run_singleton, hclose]

end Atoms

/-! ## Whole queries -/

/-- **A query that is one level joined by `AND`** says the conjunction of its
units, whichever word binds tighter. -/
theorem read?_conjoin {ts : List String} {fs : List Formula}
    (h : List.Forall₂ (ReadsAs tight) ts fs) :
    read? tight (conjoin ts) = some fs.flatten := by
  cases h with
  | nil => rfl
  | @cons t f ts fs ht hrest =>
    obtain ⟨s, hrun, hset⟩ := State.run_level .and (List.Forall₂.cons ht hrest)
      (List.cons_ne_nil _ _) (F := {}) rfl []
    -- an empty text would leave the reader at the beginning of a unit
    have hne : conjoin (t :: ts) ≠ "" := by
      intro hnil
      have hstart : State.start = s := by
        have hrun' : State.run tight State.start (conjoin (t :: ts)).toList = some s := hrun
        rw [hnil] at hrun'
        exact Option.some.inj hrun'
      rw [← hstart] at hset
      exact Mode.noConfusion (congrArg State.mode hset)
    have hframe : frame? tight (conjoin (t :: ts))
        = some (({} : Frame).addAll tight .and (f :: fs)) := by
      show (State.run tight ⟨.unit, {}, []⟩ _).bind State.outcome? = _
      rw [show (conjoin (t :: ts)) = Connective.and.separator.intercalate (t :: ts) from rfl, hrun,
        Option.bind_some, State.outcome?, hset]
    rw [read?, if_neg hne, hframe, Option.map_some,
      Frame.formula_addAll .and (List.cons_ne_nil _ _)]
    rfl

end UserDirectory.Query
