import UserDirectory.Proofs.Query.Grammar

/-!
# Reading names and values

The smallest texts of a query: a field's name, a word, a phrase. Inside each of
them the reader only collects characters, so one lemma covers them all
(`State.run_collect`); the rest is to know which characters each may hold. A
number holds digits, a sign, a point and an exponent, all of them characters of
a word, and a phrase may hold anything because its quotes and backslashes are
escaped.
-/

namespace UserDirectory

/-! ## Characters -/

namespace Query

theorem isBareBoundChar_of_isDigit {c : Char} (h : c.isDigit = true) :
    isBareBoundChar c = true := by
  have hlt : c.toNat < 128 := by
    have h9 : c.toNat ≤ 57 := (Char.isDigit_iff_toNat.1 h).2
    omega
  have hA : isAlphanumeric c = true := by
    rw [isAlphanumeric, if_pos hlt, Char.isAlphanum, h, Bool.or_true]
  rw [isBareBoundChar, hA, Bool.true_or]

theorem isNameChar_ne {c d : Char} (hc : isNameChar c = true) (hd : isNameChar d = false) :
    c ≠ d := by
  rintro rfl
  exact absurd hc (by rw [hd]; exact Bool.false_ne_true)

theorem isBareBoundChar_ne {c d : Char} (hc : isBareBoundChar c = true)
    (hd : isBareBoundChar d = false) : c ≠ d := by
  rintro rfl
  exact absurd hc (by rw [hd]; exact Bool.false_ne_true)

end Query

/-- **A text that the reader takes for a word.** -/
def IsWord (cs : List Char) : Prop := cs ≠ [] ∧ ∀ c ∈ cs, Query.isBareBoundChar c = true

theorem isWord_toDigits (n : Nat) : IsWord (Nat.toDigits 10 n) :=
  ⟨Nat.toDigits_ne_nil, fun _ hc => Query.isBareBoundChar_of_isDigit
    (Nat.isDigit_of_mem_toDigits (by decide) (by decide) hc)⟩

/-- Characters of a word may stand before a word. -/
theorem IsWord.append_left {cs ds : List Char} (hd : IsWord ds)
    (hc : ∀ c ∈ cs, Query.isBareBoundChar c = true) : IsWord (cs ++ ds) := by
  refine ⟨List.append_ne_nil_of_right_ne_nil cs hd.1, fun c h => ?_⟩
  rcases List.mem_append.1 h with h | h
  · exact hc c h
  · exact hd.2 c h

/-- Characters of a word may stand behind a word. -/
theorem IsWord.append_right {cs ds : List Char} (hc : IsWord cs)
    (hd : ∀ c ∈ ds, Query.isBareBoundChar c = true) : IsWord (cs ++ ds) := by
  refine ⟨List.append_ne_nil_of_left_ne_nil hc.1 ds, fun c h => ?_⟩
  rcases List.mem_append.1 h with h | h
  · exact hc.2 c h
  · exact hd c h

theorem IsWord.append {cs ds : List Char} (hc : IsWord cs) (hd : IsWord ds) : IsWord (cs ++ ds) :=
  hc.append_right hd.2

theorem IsWord.cons {c : Char} {cs : List Char} (h : IsWord cs)
    (hc : Query.isBareBoundChar c = true) : IsWord (c :: cs) := by
  show IsWord ([c] ++ cs)
  exact h.append_left (by simpa using hc)

/-! ## Numbers -/

/-- Zeros are characters of a word. -/
theorem isBareBoundChar_of_mem_zeros {n : Nat} {c : Char} (h : c ∈ List.replicate n '0') :
    Query.isBareBoundChar c = true := by
  rw [List.eq_of_mem_replicate h]
  decide

/-- **Positional notation is a word**, wherever the point falls. -/
theorem Binary64.isWord_positional {ds : List Char} (h : IsWord ds) (point : Int) :
    IsWord (positional ds point) := by
  unfold positional
  split
  · exact ((h.append_left fun _ => isBareBoundChar_of_mem_zeros).cons (by decide)).cons (by decide)
  · dsimp only
    split
    -- the point stands behind all digits, or among them
    · exact (h.append_right fun _ => isBareBoundChar_of_mem_zeros).append_right
        (List.all_eq_true.1 (by decide))
    · refine ⟨List.append_ne_nil_of_right_ne_nil _ (List.cons_ne_nil _ _), fun c hc => ?_⟩
      rcases List.mem_append.1 hc with hc | hc
      · exact h.2 c (List.mem_of_mem_take hc)
      · rcases List.mem_cons.1 hc with rfl | hc
        · decide
        · exact h.2 c (List.mem_of_mem_drop hc)

/-- **Scientific notation is a word.** -/
theorem Binary64.isWord_scientific {ds : List Char} (h : IsWord ds) (exponent : Int) :
    IsWord (scientific ds exponent) := by
  have htail : IsWord ('e' :: (if 0 ≤ exponent then '+' else '-') ::
      Nat.toDigits 10 exponent.natAbs) :=
    ((isWord_toDigits _).cons (by split <;> decide)).cons (by decide)
  unfold scientific
  refine htail.append_left fun c hc => ?_
  match ds, h with
  | [d], h => exact h.2 c hc
  | d :: e :: rest, h =>
    rcases List.mem_cons.1 hc with rfl | hc
    · exact h.2 _ List.mem_cons_self
    · rcases List.mem_cons.1 hc with rfl | hc
      · decide
      · exact h.2 c (List.mem_cons_of_mem _ hc)

theorem Binary64.isWord_magnitudeText (x : Binary64) : IsWord x.magnitudeText := by
  unfold magnitudeText
  split
  · exact ⟨by decide, List.all_eq_true.1 (by decide)⟩
  · dsimp only
    split
    · exact isWord_positional (isWord_toDigits _) _
    · exact isWord_scientific (isWord_toDigits _) _

theorem Binary64.isWord_text (x : Binary64) : IsWord x.text.toList := by
  rw [text, String.toList_ofList]
  split
  · exact x.isWord_magnitudeText.cons (by decide)
  · exact x.isWord_magnitudeText

/-- **Every number is written as a word.** -/
theorem Number.isWord_text (n : Number) : IsWord n.text.toList := by
  match n with
  | .real x => exact x.isWord_text
  | .int (.ofNat m) =>
    show IsWord m.repr.toList
    rw [Nat.toList_repr]
    exact isWord_toDigits m
  | .int (.negSucc m) =>
    show IsWord ("-" ++ m.succ.repr).toList
    rw [String.toList_append, Nat.toList_repr]
    exact (isWord_toDigits m.succ).cons (by decide)

/-- **The value that a literal writes.** -/
def Literal.term : Literal → Query.Term
  | .string s => .phrase s
  | .number n => .word n.text
  | .bool b => .word (if b then "true" else "false")

namespace Query

/-! ## Names -/

/-- **A plain name**: letters, digits, low lines and points, and neither of the
two names that stand for tests of existence. -/
structure PlainName (name : String) : Prop where
  nonempty : name ≠ ""
  plain : ∀ c ∈ name.toList, isNameChar c = true
  ne_exists : name ≠ "_exists_"
  ne_missing : name ≠ "_missing_"

instance (name : String) : Decidable (PlainName name) :=
  decidable_of_iff (name ≠ "" ∧ name.toList.all isNameChar = true ∧
      name ≠ "_exists_" ∧ name ≠ "_missing_")
    ⟨fun h => ⟨h.1, List.all_eq_true.1 h.2.1, h.2.2.1, h.2.2.2⟩,
      fun h => ⟨h.1, List.all_eq_true.2 h.2, h.3, h.4⟩⟩

theorem PlainName.toList_ne_nil {name : String} (h : PlainName name) : name.toList ≠ [] :=
  fun hnil => h.nonempty (String.toList_eq_nil_iff.1 hnil)

/-- A point is in a dotted path and in neither of the names of tests. -/
theorem PlainName.dotted {a b : String} (ha : PlainName a) (hb : PlainName b) :
    PlainName (a ++ "." ++ b) := by
  have hdot : '.' ∈ (a ++ "." ++ b).toList := by simp [String.toList_append]
  refine ⟨fun h => ?_, fun c hc => ?_, fun h => ?_, fun h => ?_⟩
  · rw [h] at hdot
    exact absurd hdot (by decide)
  · rw [String.toList_append, String.toList_append] at hc
    rcases List.mem_append.1 hc with hc | hc
    · rcases List.mem_append.1 hc with hc | hc
      · exact ha.plain c hc
      · obtain rfl : c = '.' := by simpa using hc
        decide
    · exact hb.plain c hc
  · rw [h] at hdot
    exact absurd hdot (by decide)
  · rw [h] at hdot
    exact absurd hdot (by decide)

/-- The field in scope, if there is one, has a plain name. -/
def PlainScope (scope : Option String) : Prop := ∀ path ∈ scope, PlainName path

theorem PlainScope.none : PlainScope none := nofun

theorem PlainScope.some {path : String} (h : PlainName path) : PlainScope (some path) :=
  fun _ hp => Option.some.inj hp ▸ h

/-- The path of a plain name in a plain scope is plain. -/
theorem PlainName.scoped {scope : Option String} {name : String} (h : PlainName name)
    (hs : PlainScope scope) : PlainName (scopedPath scope name) := by
  cases scope with
  | none => exact h
  | some path => exact (hs path rfl).dotted h

/-! ## Collecting characters -/

namespace State

variable {tight : Connective} {F : Frame} {S : List Frame}

/-- **A text read in one mode.** If the mode takes in each character, in
whatever spelling, it takes in the text. -/
theorem run_collect {m : List Char → Mode} (spell : Char → List Char) (cs ds : List Char)
    (h : ∀ c ∈ ds, ∀ cs, run tight ⟨m cs, F, S⟩ (spell c) = some ⟨m (cs ++ [c]), F, S⟩) :
    run tight ⟨m cs, F, S⟩ (ds.flatMap spell) = some ⟨m (cs ++ ds), F, S⟩ := by
  induction ds generalizing cs with
  | nil => rw [List.flatMap_nil, run_nil, List.append_nil]
  | cons d ds ih =>
    rw [List.flatMap_cons, run_append, h d List.mem_cons_self, Option.bind_some,
      ih (cs ++ [d]) (fun c hc => h c (List.mem_cons_of_mem _ hc)), List.append_assoc]
    rfl

/-- The same of a text that is spelled as it is. -/
theorem run_collect_self {m : List Char → Mode} (cs ds : List Char)
    (h : ∀ c ∈ ds, ∀ cs, step tight ⟨m cs, F, S⟩ c = some ⟨m (cs ++ [c]), F, S⟩) :
    run tight ⟨m cs, F, S⟩ ds = some ⟨m (cs ++ ds), F, S⟩ := by
  have := run_collect (fun c => [c]) cs ds fun c hc cs => by
    rw [run_singleton]
    exact h c hc cs
  rwa [List.flatMap_singleton'] at this

theorem step_name (cs : List Char) {c : Char} (h : isNameChar c = true) :
    step tight ⟨.name cs, F, S⟩ c = some ⟨.name (cs ++ [c]), F, S⟩ := by
  have hne : c ≠ ':' := isNameChar_ne h (by decide)
  simp only [step, act, if_neg hne, if_pos h]

/-- **A name**, up to its colon. -/
theorem run_name {name : String} (hne : name ≠ "")
    (hplain : ∀ c ∈ name.toList, isNameChar c = true) :
    run tight ⟨.unit, F, S⟩ (name.toList ++ [':']) = some ⟨afterName name, F, S⟩ := by
  obtain ⟨c, cs, hcs⟩ := List.exists_cons_of_ne_nil fun h => hne (String.toList_eq_nil_iff.1 h)
  rw [hcs] at hplain
  have hc : isNameChar c = true := hplain c List.mem_cons_self
  have hfirst : step tight ⟨.unit, F, S⟩ c = some ⟨.name [c], F, S⟩ := by
    have h₁ : c ≠ '(' := isNameChar_ne hc (by decide)
    have h₂ : c ≠ '-' := isNameChar_ne hc (by decide)
    simp only [step, act, if_neg h₁, if_neg h₂, if_pos hc]
  rw [run_append, hcs, run_cons, hfirst, Option.bind_some,
    run_collect_self [c] cs fun d hd ds => step_name ds (hplain d (List.mem_cons_of_mem _ hd)),
    Option.bind_some, run_singleton, List.singleton_append, ← hcs]
  simp only [step, act, if_pos, String.ofList_toList]

/-- A name that is neither of the two tests' begins a comparison. -/
theorem afterName_of_plain {name : String} (h : PlainName name) :
    afterName name = .term name .value := by
  rw [afterName, if_neg h.ne_exists, if_neg h.ne_missing]

/-! ## The end of a word -/

/-- **A character that continues no word ends it.** -/
theorem step_settle {c : Char} (hb : isBareBoundChar c = false) (hn : isNameChar c = false)
    (s : State) : step tight s c = step tight s.settle c := by
  obtain ⟨m, F, S⟩ := s
  cases m with
  | word field slot cs => cases slot <;> simp [step, settle, endTerm, complete, act, hb]
  | operand present cs =>
    cases cs with
    | nil => rfl
    | cons d ds => simp [step, settle, complete, act, hn]
  | _ => rfl

/-- What the end of a term makes of the state does not depend on what was being
read. -/
theorem endTerm_mode (m m' : Mode) (field : String) (slot : Slot) (term : Option Term) :
    endTerm ⟨m, F, S⟩ field slot term = endTerm ⟨m', F, S⟩ field slot term := by
  cases slot <;> cases term <;> rfl

/-- The end of a term leaves no word open. -/
theorem settle_endTerm (s : State) (field : String) (slot : Slot) (term : Option Term) :
    (s.endTerm field slot term).settle = s.endTerm field slot term := by
  cases slot <;> cases term <;> rfl

/-- **A word** stands for itself. -/
theorem run_word {cs : List Char} (h : IsWord cs) (field : String) (slot : Slot) :
    run tight ⟨.term field slot, F, S⟩ cs = some ⟨.word field slot cs, F, S⟩ := by
  obtain ⟨c, ds, rfl⟩ := List.exists_cons_of_ne_nil h.1
  have hc : isBareBoundChar c = true := h.2 c List.mem_cons_self
  have hfirst : step tight ⟨.term field slot, F, S⟩ c = some ⟨.word field slot [c], F, S⟩ := by
    have hne : c ≠ '"' := isBareBoundChar_ne hc (by decide)
    simp only [step, act, beginTerm, if_neg hne, if_pos hc]
  rw [run_cons, hfirst, Option.bind_some]
  refine run_collect_self [c] ds fun d hd es => ?_
  simp only [step, if_pos (h.2 d (List.mem_cons_of_mem _ hd))]

/-- A character of a phrase, escaped where it has to be. -/
theorem run_escapeChar (field : String) (slot : Slot) (cs : List Char) (c : Char) :
    run tight ⟨.phrase field slot cs, F, S⟩ (Literal.escapeChar c)
      = some ⟨.phrase field slot (cs ++ [c]), F, S⟩ := by
  unfold Literal.escapeChar
  split
  · -- the backslash is read first, and makes the character an ordinary one
    rw [run_cons]
    simp [step, act, run_singleton]
  · next h =>
    obtain ⟨h₁, h₂⟩ : c ≠ '\\' ∧ c ≠ '"' := by simpa using h
    rw [run_singleton]
    simp only [step, act, if_neg h₁, if_neg h₂]

/-- **A phrase is read back as its text**, whatever the text. -/
theorem run_phrase (s : String) (field : String) (slot : Slot) :
    run tight ⟨.term field slot, F, S⟩ (Literal.phrase s).toList
      = some (endTerm ⟨.after, F, S⟩ field slot (some (.phrase s))) := by
  have hopen : step tight ⟨.term field slot, F, S⟩ '"' = some ⟨.phrase field slot [], F, S⟩ := by
    simp [step, act, beginTerm]
  rw [Literal.phrase, String.toList_ofList, List.cons_append, run_cons, hopen, Option.bind_some,
    run_append, run_collect _ [] s.toList fun c _ cs => run_escapeChar field slot cs c,
    Option.bind_some, run_singleton, List.nil_append]
  simp only [step, act, if_pos, String.ofList_toList]
  rw [endTerm_mode]

/-- A word ends as the term that it is. -/
theorem settle_word (field : String) (slot : Slot) (cs : List Char) :
    settle ⟨.word field slot cs, F, S⟩
      = endTerm ⟨.after, F, S⟩ field slot (some (.word (String.ofList cs))) :=
  endTerm_mode _ _ _ _ _

variable (tight F S) in
/-- **A term is read as a value**: the text leads to the value's end. -/
theorem run_literal (l : Literal) (field : String) (slot : Slot) :
    ∃ s, run tight ⟨.term field slot, F, S⟩ l.text.toList = some s ∧
      s.settle = endTerm ⟨.after, F, S⟩ field slot (some l.term) := by
  have hword : ∀ text : String, IsWord text.toList →
      ∃ s, run tight ⟨.term field slot, F, S⟩ text.toList = some s ∧
        s.settle = endTerm ⟨.after, F, S⟩ field slot (some (.word text)) := fun text h =>
    ⟨_, run_word h field slot, by rw [settle_word, String.ofList_toList]⟩
  cases l with
  | string s => exact ⟨_, run_phrase s field slot, settle_endTerm _ _ _ _⟩
  | number n => exact hword n.text n.isWord_text
  | bool b =>
    cases b with
    | true => exact hword "true" ⟨by decide, List.all_eq_true.1 (by decide)⟩
    | false => exact hword "false" ⟨by decide, List.all_eq_true.1 (by decide)⟩

variable (tight F S) in
/-- **The end of a range** is read as its text, quoted or not. -/
theorem run_bound (l : Literal) (field : String) (slot : Slot) :
    ∃ s t, run tight ⟨.term field slot, F, S⟩ (bound l).toList = some s ∧
      s.settle = endTerm ⟨.after, F, S⟩ field slot (some t) ∧ t.text = l.term.text := by
  cases l with
  | string text =>
    rw [bound]
    -- without quotes only if it is a word
    split
    · next h =>
      obtain ⟨hall, hne⟩ : (∀ c ∈ text.toList, isBareBoundChar c = true) ∧ text ≠ "" := by
        simpa using h
      refine ⟨_, _, run_word ⟨fun hnil => hne (String.toList_eq_nil_iff.1 hnil), hall⟩ field slot,
        settle_word _ _ _, ?_⟩
      rw [String.ofList_toList]
      rfl
    · exact ⟨_, _, run_phrase text field slot, settle_endTerm _ _ _ _, rfl⟩
  | number n =>
    obtain ⟨s, hs, hset⟩ := run_literal tight F S (.number n) field slot
    exact ⟨s, _, hs, hset, rfl⟩
  | bool b =>
    obtain ⟨s, hs, hset⟩ := run_literal tight F S (.bool b) field slot
    exact ⟨s, _, hs, hset, rfl⟩

end State

end Query

end UserDirectory
