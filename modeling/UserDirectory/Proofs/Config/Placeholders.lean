import Mathlib.Data.List.Infix
import UserDirectory.Config.Placeholder
import UserDirectory.Proofs.Results

/-!
# Which placeholders are replaced

The replacement looks at each line from the left and stops at the first `#`. It
knows nothing of the strings of the document, so that a `#` inside a string
ends it as well as one that opens a comment: of a string that holds a
placeholder, the part before the placeholder decides.

The exact statement (`expandPlaceholders_quoted`) is for one such string in a
text that has no other placeholder. The line is cut at its placeholder. What
stands before it is copied as far as the first `#` (`expandLine_append`), and
what stands behind it, and every other line, holds nothing to replace
(`expandLine_of_plain`). Lines are put together again with a line feed between
them, whatever stood there before.
-/

namespace UserDirectory

variable {env : Environment} {cs rest : List Char}

/-! ## Placeholders of a text -/

/-- The placeholder of a name: `$`, and the name in braces. -/
def placeholder (name : List Char) : List Char := '$' :: '\x7b' :: name ++ ['\x7d']

/-- **The names that a placeholder can have**: some characters, and no closing brace. -/
def IsVariableName (name : List Char) : Prop := name ≠ [] ∧ '\x7d' ∉ name

instance (name : List Char) : Decidable (IsVariableName name) :=
  inferInstanceAs (Decidable (_ ∧ _))

/-- **A placeholder stands somewhere in the text.** -/
def HoldsPlaceholder (cs : List Char) : Prop :=
  ∃ name, IsVariableName name ∧ placeholder name <:+: cs

/-- The text has no `$` with an opening brace behind it. -/
def NoOpening (cs : List Char) : Prop := ¬ ['$', '\x7b'] <:+: cs

instance (cs : List Char) : Decidable (NoOpening cs) := inferInstanceAs (Decidable (¬ _))

theorem NoOpening.not_holdsPlaceholder (h : NoOpening cs) : ¬ HoldsPlaceholder cs := by
  rintro ⟨name, -, hpart⟩
  have hopen : ['$', '\x7b'] <+: placeholder name := ⟨name ++ ['\x7d'], rfl⟩
  exact h (hopen.isInfix.trans hpart)

theorem NoOpening.of_append_right (h : NoOpening (cs ++ rest)) : NoOpening rest :=
  fun hpart => h (hpart.trans (List.suffix_append cs rest).isInfix)

/-- Behind a text without an opening, a character other than the brace opens nothing. -/
theorem NoOpening.concat (h : NoOpening cs) {c : Char} (hc : c ≠ '\x7b') :
    NoOpening (cs ++ [c]) := by
  intro hpart
  rcases List.infix_concat_iff.1 hpart with ⟨front, hend⟩ | hpart
  · rw [List.append_cons front '$' ['\x7b']] at hend
    exact hc (List.cons.inj (List.append_inj_right' hend rfl)).1.symm
  · exact h hpart

/-- A text without `$` in front of it opens nothing either. -/
theorem NoOpening.append_left (h : NoOpening rest) (hcs : '$' ∉ cs) : NoOpening (cs ++ rest) := by
  induction cs with
  | nil => exact h
  | cons c tail ih =>
    intro hpart
    rcases List.infix_cons_iff.1 hpart with ⟨after, hstart⟩ | hpart
    · exact hcs ((List.cons.inj hstart).1 ▸ List.mem_cons_self)
    · exact ih (fun hmem => hcs (List.mem_cons_of_mem c hmem)) hpart

/-- **A name is read** up to its closing brace. -/
theorem placeholderName?_append {name : List Char} (h : IsVariableName name) (rest : List Char) :
    placeholderName? (name ++ '\x7d' :: rest) = some (String.ofList name, rest) := by
  have hall : ∀ c ∈ name, (c != '\x7d') = true := fun c hc => by
    have hne : c ≠ '\x7d' := fun heq => h.2 (heq ▸ hc)
    simpa using hne
  have htake : (name ++ '\x7d' :: rest).takeWhile (· != '\x7d') = name := by
    rw [List.takeWhile_append_of_pos hall]
    simp
  have hdrop : (name ++ '\x7d' :: rest).dropWhile (· != '\x7d') = '\x7d' :: rest := by
    rw [List.dropWhile_append_of_pos hall]
    simp
  obtain ⟨c, tail, rfl⟩ := List.exists_cons_of_ne_nil h.1
  rw [placeholderName?, htake, hdrop]

/-- Where a name is read, a placeholder stands. -/
theorem holdsPlaceholder_of_name {name : String} (h : placeholderName? cs = some (name, rest)) :
    HoldsPlaceholder ('$' :: '\x7b' :: cs) := by
  rw [placeholderName?] at h
  split at h
  · next c tail d after htake hdrop =>
    have hclose : d = '\x7d' := by
      have hd := List.head?_dropWhile_not (· != '\x7d') cs
      rw [hdrop] at hd
      simpa using hd
    have hfree : '\x7d' ∉ c :: tail := fun hmem => by
      rw [← htake] at hmem
      simpa using List.all_eq_true.1 List.all_takeWhile _ hmem
    refine ⟨c :: tail, ⟨List.cons_ne_nil c tail, hfree⟩, [], after, ?_⟩
    have hcs : (c :: tail) ++ d :: after = cs := by
      rw [← htake, ← hdrop, List.takeWhile_append_dropWhile]
    rw [← hcs, hclose]
    simp [placeholder]
  · exact absurd h nofun

/-! ## One line -/

/-- A character that is neither `#` nor opens a placeholder is copied. -/
theorem expandLine_cons {c : Char} (hc : c ≠ '#') (hopen : ¬ ['$', '\x7b'] <+: c :: rest) :
    expandLine env (c :: rest) = (expandLine env rest).map (c :: ·) := by
  rw [expandLine]
  · exact hc
  · rintro tail rfl rfl
    exact hopen ⟨tail, rfl⟩

/-- A `$` with a brace is copied where no name can be read behind it. -/
theorem expandLine_open (h : placeholderName? rest = none) :
    expandLine env ('$' :: '\x7b' :: rest) = (expandLine env ('\x7b' :: rest)).map ('$' :: ·) := by
  rw [expandLine]
  split
  · rfl
  · next hsome =>
    rw [h] at hsome
    cases hsome

/-- **Behind a `#` nothing is replaced.** -/
theorem expandLine_hash (rest : List Char) : expandLine env ('#' :: rest) = .ok ('#' :: rest) := by
  rw [expandLine]

/-- **A line without placeholders** stays as it is. -/
theorem expandLine_of_plain (h : ¬ HoldsPlaceholder cs) : expandLine env cs = .ok cs := by
  induction cs with
  | nil => rw [expandLine]
  | cons c rest ih =>
    have htail : expandLine env rest = .ok rest := ih fun hrest => by
      obtain ⟨name, hname, hpart⟩ := hrest
      exact h ⟨name, hname, hpart.trans (List.suffix_cons c rest).isInfix⟩
    by_cases hc : c = '#'
    · rw [hc]
      exact expandLine_hash rest
    by_cases hopen : ['$', '\x7b'] <+: c :: rest
    · obtain ⟨after, hafter⟩ := hopen
      obtain ⟨rfl, rfl⟩ := List.cons.inj hafter
      have hnone : placeholderName? after = none :=
        Option.eq_none_iff_forall_ne_some.2 fun _ hsome => h (holdsPlaceholder_of_name hsome)
      show expandLine env ('$' :: '\x7b' :: after) = _
      rw [expandLine_open hnone]
      exact congrArg (Except.map ('$' :: ·)) htail
    · rw [expandLine_cons hc hopen, htail]
      rfl

/-- **A text without `#` and without an opening is copied**, whatever follows it. -/
theorem expandLine_append (hhash : '#' ∉ cs) (hopen : NoOpening cs)
    (hrest : rest.head? ≠ some '\x7b') :
    expandLine env (cs ++ rest) = (expandLine env rest).map (cs ++ ·) := by
  induction cs with
  | nil =>
    show expandLine env rest = (expandLine env rest).map id
    cases expandLine env rest <;> rfl
  | cons c tail ih =>
    have htail : NoOpening tail := @NoOpening.of_append_right [c] tail hopen
    have hhead : ¬ ['$', '\x7b'] <+: c :: (tail ++ rest) := by
      rintro ⟨after, hafter⟩
      obtain ⟨rfl, hbrace⟩ := List.cons.inj hafter
      cases tail with
      | nil => exact hrest (congrArg List.head? hbrace).symm
      | cons d tail =>
        obtain ⟨rfl, -⟩ := List.cons.inj hbrace
        exact hopen ⟨[], tail, rfl⟩
    rw [List.cons_append, expandLine_cons (fun hc => hhash (hc ▸ List.mem_cons_self)) hhead,
      ih (fun hmem => hhash (List.mem_cons_of_mem c hmem)) htail]
    cases expandLine env rest <;> rfl

/-- **A placeholder at the head of a line** gives way to the value of its variable. -/
theorem expandLine_placeholder {name : List Char} (hname : IsVariableName name) {value : String}
    (henv : env (String.ofList name) = some value) (hrest : ¬ HoldsPlaceholder rest) :
    expandLine env (placeholder name ++ rest) = .ok (value.toList ++ rest) := by
  have hread : placeholderName? (name ++ '\x7d' :: rest) = some (String.ofList name, rest) :=
    placeholderName?_append hname rest
  have hline : placeholder name ++ rest = '$' :: '\x7b' :: (name ++ '\x7d' :: rest) := by
    simp [placeholder]
  rw [hline, expandLine]
  split
  · next hnone =>
    rw [hread] at hnone
    cases hnone
  · next read after hsome =>
    rw [hread] at hsome
    obtain ⟨rfl, rfl⟩ := Prod.mk.inj (Option.some.inj hsome)
    rw [henv]
    show (if _ then _ else (expandLine env rest).map (value.toList ++ ·)) = _
    rw [expandLine_of_plain hrest]
    exact ite_id _

/-- **A line with one placeholder**: what stands before it decides. -/
theorem expandLine_single {front name back : List Char} (hfront : NoOpening front)
    (hname : IsVariableName name) (hback : ¬ HoldsPlaceholder back) {value : String}
    (henv : env (String.ofList name) = some value) :
    expandLine env (front ++ placeholder name ++ back)
      = .ok (if '#' ∈ front then front ++ placeholder name ++ back
          else front ++ value.toList ++ back) := by
  rw [List.append_assoc, List.append_assoc]
  split
  · next hhash =>
    obtain ⟨before, after, rfl, hbefore⟩ := List.eq_append_cons_of_mem hhash
    have hopen : NoOpening before := fun hpart =>
      hfront (hpart.trans (List.prefix_append before ('#' :: after)).isInfix)
    rw [List.append_assoc, List.cons_append, expandLine_append hbefore hopen (by simp),
      expandLine_hash]
    rfl
  · next hhash =>
    rw [expandLine_append hhash hfront (by simp [placeholder]),
      expandLine_placeholder hname henv hback]
    rfl

/-! ## A whole text -/

/-- Lines with a line feed behind each are lines with one between any two, and one at the end. -/
theorem unlines_eq_intercalate {lines : List (List Char)} (h : lines ≠ []) :
    unlines lines = ['\n'].intercalate lines ++ ['\n'] := by
  match lines with
  | [line] => simp [unlines]
  | line :: next :: rest =>
    rw [List.intercalate_cons_cons, List.append_assoc,
      ← unlines_eq_intercalate (List.cons_ne_nil next rest)]
    rfl

theorem mapM_expandLine_of_plain {lines : List (List Char)}
    (h : ∀ line ∈ lines, ¬ HoldsPlaceholder line) : lines.mapM (expandLine env) = .ok lines := by
  induction lines with
  | nil => rfl
  | cons line rest ih =>
    rw [List.mapM_cons, expandLine_of_plain (h line List.mem_cons_self),
      ih fun other hmem => h other (List.mem_cons_of_mem line hmem)]
    rfl

/-- **A text with one line to replace**: the lines are put together again with a line feed between
them, and one behind the last line if the text had one there. -/
theorem expandPlaceholders_line {text : String} {before after : List (List Char)}
    {line line' : List Char} (hlines : linesOf text.toList = before ++ line :: after)
    (hplain : ∀ other ∈ before ++ after, ¬ HoldsPlaceholder other)
    (hline : expandLine env line = .ok line') :
    expandPlaceholders env text = .ok (String.ofList (['\n'].intercalate (before ++ line' :: after)
      ++ if text.toList.getLast? = some '\n' then ['\n'] else [])) := by
  have hmapM : (linesOf text.toList).mapM (expandLine env) = .ok (before ++ line' :: after) := by
    rw [hlines, List.mapM_append, List.mapM_cons, hline,
      mapM_expandLine_of_plain fun other hmem => hplain other (List.mem_append_left after hmem),
      mapM_expandLine_of_plain fun other hmem => hplain other (List.mem_append_right before hmem)]
    rfl
  have hjoin : unlines (before ++ line' :: after)
      = ['\n'].intercalate (before ++ line' :: after) ++ ['\n'] :=
    unlines_eq_intercalate (List.append_ne_nil_of_right_ne_nil before (List.cons_ne_nil _ _))
  rw [expandPlaceholders]
  simp only [hmapM, beq_iff_eq]
  refine congrArg (Except.ok ∘ String.ofList) ?_
  split
  · exact hjoin
  · rw [hjoin, List.dropLast_concat, List.append_nil]

/-- **A key without quotes**: letters, digits, `_` and `-`. -/
def IsBareKey (key : List Char) : Prop :=
  key ≠ [] ∧ ∀ c ∈ key, c.isAlphanum = true ∨ c = '_' ∨ c = '-'

instance (key : List Char) : Decidable (IsBareKey key) :=
  @instDecidableAnd (key ≠ []) _ _ (List.decidableBAll _ key)

/-- The line that sets a key to a string. -/
def stringLine (key text : List Char) : List Char := key ++ " = \"".toList ++ text ++ ['"']

theorem IsBareKey.not_mem {key : List Char} (h : IsBareKey key) {c : Char}
    (hc : c.isAlphanum = false) (hu : c ≠ '_') (hd : c ≠ '-') : c ∉ key := fun hmem => by
  rcases h.2 c hmem with halpha | hu' | hd'
  · rw [hc] at halpha
    exact absurd halpha Bool.false_ne_true
  · exact hu hu'
  · exact hd hd'

/-- **Of a string with a placeholder, the front decides**: the placeholder gives way to the value
of its variable if no `#` stands before it in the string. If one does, the line stays as it is, as
all other lines do. -/
theorem expandPlaceholders_quoted {key front name back : List Char} {value text : String}
    {before after : List (List Char)} (hkey : IsBareKey key) (hname : IsVariableName name)
    (hfront : NoOpening front) (hback : NoOpening back)
    (henv : env (String.ofList name) = some value)
    (hlines : linesOf text.toList
      = before ++ stringLine key (front ++ placeholder name ++ back) :: after)
    (hplain : ∀ other ∈ before ++ after, ¬ HoldsPlaceholder other) :
    expandPlaceholders env text = .ok (String.ofList (['\n'].intercalate (before
      ++ stringLine key (if '#' ∈ front then front ++ placeholder name ++ back
          else front ++ value.toList ++ back) :: after)
      ++ if text.toList.getLast? = some '\n' then ['\n'] else [])) := by
  refine expandPlaceholders_line hlines hplain ?_
  have hhash : '#' ∈ key ++ " = \"".toList ++ front ↔ '#' ∈ front := by
    have hfree : '#' ∉ key := hkey.not_mem (by decide) (by decide) (by decide)
    simp [hfree]
  have hopen : NoOpening (key ++ " = \"".toList ++ front) := by
    have hfree : '$' ∉ key := hkey.not_mem (by decide) (by decide) (by decide)
    exact hfront.append_left (by simp [hfree])
  have hline := expandLine_single hopen hname
    (hback.concat (c := '"') (by decide)).not_holdsPlaceholder henv
  simp only [hhash] at hline
  have hassoc : ∀ mid : List Char, stringLine key (front ++ mid ++ back)
      = key ++ " = \"".toList ++ front ++ mid ++ (back ++ ['"']) := fun mid => by
    simp [stringLine]
  rw [hassoc, hline]
  split <;> rw [hassoc]

/-- A secret from the environment, in a file with other line ends. -/
theorem expandPlaceholders_quoted_secret :
    expandPlaceholders (Environment.ofTable [("SECRET", "s#1")])
        "# login\r\nclient_secret = \"p-$\x7bSECRET\x7d\"\n"
      = .ok "# login\nclient_secret = \"p-s#1\"\n" := by
  have hkey : IsBareKey "client_secret".toList := by decide
  have hname : IsVariableName "SECRET".toList := by decide
  have hfront : NoOpening "p-".toList := by decide
  have hback : NoOpening [] := by decide
  have hother : NoOpening "# login".toList := by decide
  have henv : Environment.ofTable [("SECRET", "s#1")] (String.ofList "SECRET".toList)
      = some "s#1" := rfl
  have hlines : linesOf "# login\r\nclient_secret = \"p-$\x7bSECRET\x7d\"\n".toList
      = ["# login".toList] ++ stringLine "client_secret".toList
        ("p-".toList ++ placeholder "SECRET".toList ++ []) :: [] := rfl
  refine (expandPlaceholders_quoted hkey hname hfront hback henv hlines ?_).trans rfl
  intro other hmem
  obtain rfl : other = "# login".toList := by simpa using hmem
  exact hother.not_holdsPlaceholder

/-- **A `#` in a string is taken for a comment**: the string stays with its placeholder, although
the variable is set and nothing of the line is a comment. -/
theorem expandPlaceholders_hash_in_string :
    let line := stringLine "client_secret".toList ("a#".toList ++ placeholder "SUFFIX".toList)
    let env := Environment.ofTable [("SUFFIX", "x")]
    env "SUFFIX" = some "x" ∧ expandPlaceholders env (String.ofList line) = .ok (String.ofList line)
      ∧ String.ofList line ≠ "client_secret = \"a#x\"" := by
  intro line env
  have hline : expandLine env line = .ok line := by
    have hfront : '#' ∉ "client_secret = \"a".toList ∧ NoOpening "client_secret = \"a".toList := by
      decide
    exact (expandLine_append hfront.1 hfront.2 (by decide)).trans
      (congrArg (Except.map ("client_secret = \"a".toList ++ ·))
        (expandLine_hash (placeholder "SUFFIX".toList ++ ['"'])))
  have hlines : linesOf (String.ofList line).toList = [] ++ line :: [] := by
    rw [String.toList_ofList]
    rfl
  have htext := expandPlaceholders_line hlines nofun hline
  rw [String.toList_ofList] at htext
  exact ⟨rfl, htext, by decide⟩

end UserDirectory
