import UserDirectory.Proofs.Query.Units

/-!
# What may stand before a level

A level of units is appended to a text that is not known to be one: any text at
all, with an `AND` between the two. The level's conjuncts are conjuncts of the
whole query exactly when the text in front is a query of one group, that is, no
`OR` stands at its outermost level and no parenthesis, list or phrase of it is
left open (`exists_read?_append_iff`).

Most of the work is in the direction that says no more than this can happen,
since a text left open may swallow a part of the level and have its end supplied
by the rest. There are three places where the reader can stand once the joining
word is read. At the beginning of a unit, all is as it would be without the text.
In a list of choices that wants its `OR`, the level would have to begin with
capitals and a blank, and no unit does. Inside a phrase, every quote of the level
closes what it was meant to open: the two readings, the one meant and the one
inside the phrase, are always on opposite sides of a quote, and one that ends
outside has the other end inside. What keeps the two in step is that no backslash
stands outside the phrases of a level.
-/

namespace UserDirectory.Query

variable {tight : Connective}

/-! ## Quotes -/

/-- **Where a reader stands towards phrases.** -/
inductive Quote where
  | outside
  | inside
  /-- Inside, right after a backslash. -/
  | escaped
  deriving DecidableEq, Repr

namespace Quote

/-- One character later. No backslash may stand outside of phrases. -/
def next : Quote → Char → Option Quote
  | .outside, c => if c = '"' then some .inside else if c = '\\' then none else some .outside
  | .inside, c =>
    some (if c = '"' then .outside else if c = '\\' then .escaped else .inside)
  | .escaped, _ => some .inside

/-- **On opposite sides of a quote**, neither right after a backslash. -/
def Opposite : Quote → Quote → Prop
  | .outside, .inside | .inside, .outside => True
  | _, _ => False

/-- A character that can be read on both sides of a quote leads from each side to
the other, or from neither. -/
theorem Opposite.next {q r q' r' : Quote} (h : Opposite q r) {c : Char}
    (hq : q.next c = some q') (hr : r.next c = some r') : Opposite q' r' := by
  cases q <;> cases r <;> simp only [Opposite] at h <;>
    grind [Quote.next, Opposite]

/-- **Two readings on opposite sides of a quote stay there**, however long the
text. -/
theorem Opposite.run {cs : List Char} {q r q' r' : Quote} (h : Opposite q r)
    (hq : cs.foldlM Quote.next q = some q') (hr : cs.foldlM Quote.next r = some r') :
    Opposite q' r' := by
  induction cs generalizing q r with
  | nil =>
    obtain rfl := Option.some.inj hq
    obtain rfl := Option.some.inj hr
    exact h
  | cons c cs ih =>
    rw [List.foldlM_cons] at hq hr
    obtain ⟨q₁, hq₁, hq⟩ := Option.bind_eq_some_iff.1 hq
    obtain ⟨r₁, hr₁, hr⟩ := Option.bind_eq_some_iff.1 hr
    exact ih (h.next hq₁ hr₁) hq hr

end Quote

/-- What a mode says about phrases. -/
def Mode.quote : Mode → Quote
  | .phrase .. => .inside
  | .escape .. => .escaped
  | _ => .outside

namespace State

theorem quote_endTerm (s : State) (field : String) (slot : Slot) (term : Option Term) :
    (s.endTerm field slot term).mode.quote = .outside := by
  cases slot <;> cases term <;> rfl

theorem quote_afterName (name : String) : (afterName name).quote = .outside := by
  unfold afterName
  split
  · rfl
  · split <;> rfl

/-- The end of a word is on the same side of a quote as the word. -/
theorem quote_settle (s : State) : s.settle.mode.quote = s.mode.quote := by
  obtain ⟨m, F, S⟩ := s
  cases m with
  | word field slot cs => exact quote_endTerm _ _ _ _
  | operand present cs => cases cs <;> rfl
  | _ => rfl

theorem quote_act {s t : State} {c : Char} (h : s.act tight c = some t) :
    s.mode.quote.next c = some t.mode.quote := by
  -- neither a quote nor a backslash belongs to a name, a word or a joining word
  have hq : isNameChar '"' = false ∧ isBareBoundChar '"' = false := by decide
  have hb : isNameChar '\\' = false ∧ isBareBoundChar '\\' = false := by decide
  have hupper : c.isUpper = true → c ≠ '"' ∧ c ≠ '\\' := by
    intro hc
    constructor <;> rintro rfl <;> exact absurd hc (by decide)
  obtain ⟨m, F, S⟩ := s
  cases m with
  | name cs =>
    simp only [act] at h
    grind [Quote.next, Mode.quote, quote_afterName]
  | term field slot =>
    simp only [act, beginTerm] at h
    grind [Quote.next, Mode.quote, quote_endTerm]
  | phrase field slot cs =>
    simp only [act] at h
    grind [Quote.next, Mode.quote, quote_endTerm]
  | closed field slot term =>
    simp only [act, afterTerm] at h
    grind [complete, Quote.next, Mode.quote]
  | gap place cs =>
    simp only [act, afterGap] at h
    grind [Quote.next, Mode.quote]
  | _ =>
    simp only [act] at h
    grind [Quote.next, Mode.quote]

/-- **What a step can be**: one more character of a word or of a tested name, or
else the end of the word at hand and a step that continues none. -/
theorem step_cases {s t : State} {c : Char} (h : s.step tight c = some t) :
    (∃ field slot cs, isBareBoundChar c = true ∧ s.mode = .word field slot cs ∧
        t.mode = .word field slot (cs ++ [c])) ∨
      (∃ present cs, isNameChar c = true ∧ s.mode = .operand present cs ∧
        t.mode = .operand present (cs ++ [c])) ∨
      s.settle.act tight c = some t := by
  obtain ⟨m, F, S⟩ := s
  cases m with
  | word field slot cs =>
    simp only [step] at h
    split at h
    · next hc =>
      obtain rfl := Option.some.inj h
      exact .inl ⟨field, slot, cs, hc, rfl, rfl⟩
    · exact .inr (.inr h)
  | operand present cs =>
    simp only [step] at h
    split at h
    · next hc =>
      obtain rfl := Option.some.inj h
      exact .inr (.inl ⟨present, cs, hc, rfl, rfl⟩)
    · exact .inr (.inr h)
  | _ => exact .inr (.inr h)

/-- **Quotes alone tell where a reader stands towards phrases.** -/
theorem quote_step {s t : State} {c : Char} (h : s.step tight c = some t) :
    s.mode.quote.next c = some t.mode.quote := by
  have houtside : c ≠ '"' → c ≠ '\\' → Quote.next .outside c = some .outside := by
    intro hq hb
    simp only [Quote.next, if_neg hq, if_neg hb]
  rcases step_cases h with ⟨field, slot, cs, hc, hs, ht⟩ | ⟨present, cs, hc, hs, ht⟩ | h
  · rw [hs, ht]
    exact houtside (isBareBoundChar_ne hc (by decide)) (isBareBoundChar_ne hc (by decide))
  · rw [hs, ht]
    exact houtside (isNameChar_ne hc (by decide)) (isNameChar_ne hc (by decide))
  · rw [← quote_settle]
    exact quote_act h

theorem quote_run {cs : List Char} {s t : State} (h : s.run tight cs = some t) :
    cs.foldlM Quote.next s.mode.quote = some t.mode.quote := by
  induction cs generalizing s with
  | nil =>
    obtain rfl := Option.some.inj h
    rfl
  | cons c cs ih =>
    rw [run_cons] at h
    obtain ⟨u, hu, h⟩ := Option.bind_eq_some_iff.1 h
    rw [List.foldlM_cons, quote_step hu]
    exact ih h

end State

/-! ## Capitals -/

/-- At the beginning of a unit, or in the name that may stand there. -/
def Mode.Leading : Mode → Prop
  | .unit | .name _ => True
  | _ => False

namespace State

theorem leading_step {s t : State} {c : Char} (hs : s.mode.Leading) (hc : c.isUpper = true)
    (h : s.step tight c = some t) : t.mode.Leading := by
  have hparen : c ≠ '(' ∧ c ≠ ':' := by
    constructor <;> rintro rfl <;> exact absurd hc (by decide)
  obtain ⟨m, F, S⟩ := s
  cases m with
  | unit =>
    simp only [step, act] at h
    grind [Mode.Leading]
  | name cs =>
    simp only [step, act] at h
    grind [Mode.Leading]
  | _ => exact absurd hs id

/-- **What can be read inside a joining word leaves no unit finished**: the first
blank ends the word, and no name holds one. -/
theorem leading_run {place : Option (String × Slot)} {cs ds : List Char} {F : Frame}
    {S : List Frame} {s t t' : State} (hs : s.mode.Leading) (h : s.run tight cs = some t)
    (hgap : run tight ⟨.gap place ds, F, S⟩ cs = some t') : t.mode.Leading := by
  induction cs generalizing s ds with
  | nil =>
    obtain rfl := Option.some.inj h
    exact hs
  | cons c cs ih =>
    rw [run_cons] at h hgap
    obtain ⟨s₁, hs₁, h⟩ := Option.bind_eq_some_iff.1 h
    obtain ⟨g₁, hg₁, hgap⟩ := Option.bind_eq_some_iff.1 hgap
    -- a blank would end the joining word, but cannot stand in a unit's beginning
    by_cases hblank : c = ' '
    · subst hblank
      have hnone : s.step tight ' ' = none := by
        obtain ⟨m, F, S⟩ := s
        cases m with
        | unit => rfl
        | name cs => rfl
        | _ => exact absurd hs id
      rw [hnone] at hs₁
      exact absurd hs₁ nofun
    · simp only [step, act, if_neg hblank] at hg₁
      split at hg₁
      · next hc =>
        obtain rfl := Option.some.inj hg₁
        exact ih (leading_step hs hc hs₁) h hgap
      · exact absurd hg₁ nofun

/-! ## The joining word -/

/-- **A unit that is complete has used up its minus.** -/
theorem negated_of_act {s : State} {c : Char} {F : Frame} {S : List Frame}
    (h : s.act tight c = some ⟨.after, F, S⟩) : F.negated = false := by
  obtain ⟨m, G, T⟩ := s
  cases m with
  | name cs =>
    simp only [act] at h
    grind [afterName]
  | term field slot =>
    simp only [act, beginTerm, endTerm] at h
    grind
  | phrase field slot cs =>
    simp only [act, endTerm, complete, Frame.add] at h
    grind
  | closed field slot term =>
    simp only [act, afterTerm, complete, Frame.add] at h
    grind
  | after =>
    simp only [act, Frame.add] at h
    grind
  | gap place cs =>
    simp only [act, afterGap] at h
    grind
  | _ =>
    simp only [act] at h
    grind

/-- **No minus is left over** where a text may go on behind a unit. -/
theorem negated_of_step {s t : State} {c : Char} {F : Frame} {S : List Frame}
    (h : s.step tight c = some t) (ht : t.settle = ⟨.after, F, S⟩) : F.negated = false := by
  obtain ⟨m, G, T⟩ := t
  cases m with
  | word field slot cs =>
    cases slot with
    | value =>
      obtain rfl : G.add _ = F := congrArg State.frame ht
      rfl
    | _ => exact Mode.noConfusion (congrArg State.mode ht)
  | operand present cs =>
    cases cs with
    | nil => exact Mode.noConfusion (congrArg State.mode ht)
    | cons d ds =>
      obtain rfl : G.add _ = F := congrArg State.frame ht
      rfl
  | after =>
    -- no word is at hand, so it was the character itself that ended the unit
    obtain rfl : G = F := congrArg State.frame ht
    rcases step_cases h with ⟨field, slot, cs, -, -, ht⟩ | ⟨present, cs, -, -, ht⟩ | h
    · exact Mode.noConfusion ht
    · exact Mode.noConfusion ht
    · exact negated_of_act h
  | _ => exact Mode.noConfusion (congrArg State.mode ht)

/-- A joining word leads to a unit, to a choice or to the upper end of a range. -/
theorem afterGap_cases {s t : State} {place : Option (String × Slot)} {word : String}
    (h : s.afterGap tight place word = some t) :
    (∃ F, t = ⟨.unit, F, s.stack⟩) ∨
      (∃ field read, t = ⟨.term field (.choice read), s.frame, s.stack⟩) ∨
      ∃ field lower, t = ⟨.term field (.upper lower), s.frame, s.stack⟩ := by
  unfold afterGap at h
  split at h
  · split at h
    · exact .inl ⟨_, (Option.some.inj h).symm⟩
    · split at h
      · exact .inl ⟨_, (Option.some.inj h).symm⟩
      · exact absurd h nofun
  · split at h
    · exact .inr (.inl ⟨_, _, (Option.some.inj h).symm⟩)
    · exact absurd h nofun
  · split at h
    · exact .inr (.inr ⟨_, _, (Option.some.inj h).symm⟩)
    · exact absurd h nofun
  · exact absurd h nofun

/-- No minus is left over where a text may end. -/
theorem negated_of_run {cs : List Char} {s : State} {F : Frame} {S : List Frame}
    (h : State.start.run tight cs = some s) (hs : s.settle = ⟨.after, F, S⟩) :
    F.negated = false := by
  rcases List.eq_nil_or_concat' cs with rfl | ⟨ds, c, rfl⟩
  · obtain rfl := Option.some.inj h
    exact Mode.noConfusion (congrArg State.mode hs)
  · rw [run_append] at h
    obtain ⟨t, -, h⟩ := Option.bind_eq_some_iff.1 h
    rw [run_singleton] at h
    exact negated_of_step h hs

/-- The word is no end of a list or a range. -/
theorem run_and_of_closed (field : String) (slot : Slot) (term : Option Term) (F : Frame)
    (S : List Frame) : run tight ⟨.closed field slot term, F, S⟩ " AND ".toList = none := by
  cases slot <;> cases term <;> rfl

/-- **Where an `AND` leads**: from behind a unit to the next unit; in a phrase
nowhere else; in a list of choices, where it may be one of them, to the next
joining word. -/
theorem run_and_cases {s t : State} (h : s.run .and " AND ".toList = some t) :
    (∃ F S, s.settle = ⟨.after, F, S⟩ ∧ t = ⟨.unit, F, S⟩) ∨ t.mode.quote = .inside ∨
      ∃ place, t.mode = .gap place [] := by
  have hafter : ∀ {F S}, s.settle = ⟨.after, F, S⟩ → t = ⟨.unit, F, S⟩ := fun hs =>
    Option.some.inj (h.symm.trans (run_separator .and hs))
  have htext : " AND ".toList = ' ' :: "AND ".toList := by decide
  -- the blank ends the word at hand, and the rest is read behind it
  have hsettle : s.settle.run .and " AND ".toList = some t := by
    rw [← h, htext, run_cons, run_cons, step_settle (by decide) (by decide) s]
  obtain ⟨m, F, S⟩ := s
  cases m with
  | after => exact .inl ⟨F, S, rfl, hafter rfl⟩
  | word field slot cs =>
    cases slot with
    | value => exact .inl ⟨F.add _, S, rfl, hafter rfl⟩
    | _ => exact absurd (hsettle.symm.trans (run_and_of_closed _ _ _ _ _)) nofun
  | operand present cs =>
    cases cs with
    | nil => exact absurd hsettle nofun
    | cons d ds => exact .inl ⟨F.add _, S, rfl, hafter rfl⟩
  | phrase field slot cs =>
    have hq := quote_run h
    exact .inr (.inl (Option.some.inj hq).symm)
  | escape field slot cs =>
    have hq := quote_run h
    exact .inr (.inl (Option.some.inj hq).symm)
  | closed field slot term => exact absurd (h.symm.trans (run_and_of_closed _ _ _ _ _)) nofun
  | gap place cs =>
    rw [htext, run_cons] at h
    obtain ⟨u, hu, h⟩ := Option.bind_eq_some_iff.1 h
    rcases afterGap_cases (show afterGap .and _ place _ = some u from hu) with
      ⟨G, rfl⟩ | ⟨field, read, rfl⟩ | ⟨field, lower, rfl⟩
    · exact absurd h nofun
    · obtain rfl := Option.some.inj h
      exact .inr (.inr ⟨_, rfl⟩)
    · exact absurd h nofun
  | term field slot => cases slot <;> exact absurd h nofun
  | _ => exact absurd h nofun

/-- A reader that may stop has no phrase open and no name begun. -/
theorem mode_of_settle_after {s : State} {F : Frame} {S : List Frame}
    (h : s.settle = ⟨.after, F, S⟩) : s.mode.quote = .outside ∧ ¬s.mode.Leading := by
  refine ⟨?_, ?_⟩
  · rw [← quote_settle, h]
    rfl
  · obtain ⟨m, G, T⟩ := s
    cases m with
    | unit | name => exact Mode.noConfusion (congrArg State.mode h)
    | _ => exact id

/-- **A level that is read to its end behind an `AND`** stands behind a unit: what
is in front of it left nothing open that the level could have closed. -/
theorem settle_of_run_and {ts : List String} {fs : List Formula}
    (h : List.Forall₂ (ReadsAs .and) ts fs) (hts : ts ≠ []) {s t u : State} {G : Frame}
    (hand : s.run .and " AND ".toList = some t)
    (hrun : t.run .and (conjoin ts).toList = some u) (hu : u.settle = ⟨.after, G, []⟩) :
    ∃ F S, s.settle = ⟨.after, F, S⟩ ∧ t = ⟨.unit, F, S⟩ := by
  -- the level as it is meant
  obtain ⟨n, hn, hnset⟩ := run_level .and h hts (F := {}) rfl []
  obtain ⟨hnq, hnl⟩ := mode_of_settle_after hnset
  rcases run_and_cases hand with hunit | hinside | ⟨place, hgap⟩
  · exact hunit
  · -- inside a phrase of the text, the level is on the wrong side of every quote
    have hq : Quote.Opposite .outside t.mode.quote := by
      rw [hinside]
      exact trivial
    have hopp := hq.run (quote_run hn) (quote_run hrun)
    rw [hnq, (mode_of_settle_after hu).1] at hopp
    exact absurd hopp id
  · -- before a joining word, the level has to be capitals only
    obtain ⟨m, F, S⟩ := t
    obtain rfl : m = .gap place [] := hgap
    exact absurd (leading_run (s := ⟨.unit, {}, []⟩) trivial hn hrun) hnl

end State

/-! ## The level behind the text -/

theorem outcome?_eq_some_iff {s : State} {F : Frame} :
    s.outcome? = some F ↔ s.settle = ⟨.after, F, []⟩ := by
  unfold State.outcome?
  constructor
  · intro h
    split at h
    · next hs => rw [hs, Option.some.inj h]
    · exact absurd h nofun
  · intro h
    rw [h]

/-- **A text is a query** if its reading ends behind a unit, outside any group. -/
theorem frame?_eq_some_iff {text : String} {F : Frame} :
    frame? tight text = some F ↔
      ∃ s, State.start.run tight text.toList = some s ∧ s.settle = ⟨.after, F, []⟩ := by
  unfold frame?
  rw [Option.bind_eq_some_iff]
  exact exists_congr fun s => and_congr_right fun _ => outcome?_eq_some_iff

/-- A query of one group has closed none. -/
theorem groups?_eq_singleton_iff {text : String} :
    (∃ g, groups? tight text = some [g]) ↔ ∃ F, frame? tight text = some F ∧ F.closed = [] := by
  unfold groups? Frame.groups
  constructor
  · rintro ⟨g, hg⟩
    obtain ⟨F, hF, hgroups⟩ := Option.map_eq_some_iff.1 hg
    exact ⟨F, hF, (List.append_eq_singleton_iff.1 hgroups).elim (·.1)
      fun h => absurd h.2 (List.cons_ne_nil _ _)⟩
  · rintro ⟨F, hF, hclosed⟩
    refine ⟨tight.combine F.current, ?_⟩
    rw [hF, Option.map_some, hclosed]
    rfl

/-- **A query of several groups** is their disjunction. -/
theorem read?_of_two_le {text : String} {gs : List Formula} (h : groups? .and text = some gs)
    (hlen : 2 ≤ gs.length) : read? .and text = some [.any gs] := by
  obtain ⟨F, hF, rfl⟩ := Option.map_eq_some_iff.1 h
  have hne : text ≠ "" := by
    rintro rfl
    exact absurd hF nofun
  rw [read?, if_neg hne, hF, Option.map_some]
  exact congrArg some (Connective.combine_or_of_two_le hlen)

/-- **The conjuncts of a level behind a text.** A level is appended to a text with
an `AND` between the two. Then a clause of the level is a conjunct of the whole
query if and only if the text on its own is a query of one group. -/
theorem exists_read?_append_iff {text : String} {ts : List String} {fs : List Formula}
    (h : List.Forall₂ (ReadsAs .and) ts fs) (hts : ts ≠ []) {a : Atom}
    (ha : .atom a ∈ fs.flatten) :
    (∃ f, read? .and (text ++ " AND " ++ conjoin ts) = some f ∧ .atom a ∈ f) ↔
      ∃ g, groups? .and text = some [g] := by
  have hfs : fs ≠ [] := by
    rintro rfl
    exact absurd ha List.not_mem_nil
  have hne : text ++ " AND " ++ conjoin ts ≠ "" := fun he =>
    absurd (String.append_eq_empty_iff.1 (String.append_eq_empty_iff.1 he).1).2 (by decide)
  rw [groups?_eq_singleton_iff, read?, if_neg hne]
  constructor
  · rintro ⟨f, hf, hmem⟩
    obtain ⟨G, hG, rfl⟩ := Option.map_eq_some_iff.1 hf
    obtain ⟨u, hrun, hu⟩ := frame?_eq_some_iff.1 hG
    rw [String.toList_append, String.toList_append, State.run_append, State.run_append] at hrun
    obtain ⟨t, ht, hrun⟩ := Option.bind_eq_some_iff.1 hrun
    obtain ⟨s, hs, hand⟩ := Option.bind_eq_some_iff.1 ht
    obtain ⟨F, S, hset, rfl⟩ := State.settle_of_run_and h hts hand hrun hu
    have hF := State.negated_of_run hs hset
    -- behind a unit the level is read as it is meant
    obtain ⟨u', hrun', hu'⟩ := State.run_level .and h hts hF S
    obtain rfl : u' = u := Option.some.inj (hrun'.symm.trans hrun)
    rw [hu', Frame.addAll_self hF hfs] at hu
    obtain rfl : S = [] := congrArg State.stack hu
    obtain rfl := congrArg State.frame hu
    refine ⟨F, frame?_eq_some_iff.2 ⟨s, hs, hset⟩, ?_⟩
    -- a group closed before makes the whole a disjunction, without conjuncts
    by_contra hclosed
    have hlen : 2 ≤ (F.closed ++ [(F.current ++ fs).flatten]).length := by
      have := List.length_pos_iff.2 hclosed
      rw [List.length_append, List.length_singleton]
      omega
    have hany : Conjunct.atom a ∈ [.any (F.closed ++ [(F.current ++ fs).flatten])] :=
      Connective.combine_or_of_two_le hlen ▸ hmem
    exact Conjunct.noConfusion (List.mem_singleton.1 hany)
  · rintro ⟨F, hframe, hclosed⟩
    obtain ⟨s, hs, hset⟩ := frame?_eq_some_iff.1 hframe
    have hF := State.negated_of_run hs hset
    obtain ⟨u, hrun, hu⟩ := State.run_level .and h hts hF []
    rw [Frame.addAll_self hF hfs] at hu
    have hand : s.run .and " AND ".toList = some ⟨.unit, F, []⟩ := State.run_separator .and hset
    have hwhole : frame? .and (text ++ " AND " ++ conjoin ts)
        = some { F with current := F.current ++ fs } := by
      refine frame?_eq_some_iff.2 ⟨u, ?_, hu⟩
      rw [String.toList_append, String.toList_append, State.run_append, State.run_append, hs,
        Option.bind_some, hand, Option.bind_some]
      exact hrun
    refine ⟨(F.current ++ fs).flatten, ?_, ?_⟩
    · rw [hwhole, Option.map_some, Frame.formula, Frame.groups, hclosed]
      rfl
    · rw [List.flatten_append]
      exact List.mem_append_right _ ha

end UserDirectory.Query
