import UserDirectory.Filter.Basic

/-!
# Phrases end at their own quote

A string operand is put between double quotes and may hold anything, quotes and
backslashes among it. That it cannot reach out of its quotes is a matter of how
it is read: a scan from left to right, in which a backslash makes the next
character literal and the first quote without a backslash ends the phrase. The
scan knows nothing of the string, and so whatever follows the phrase must not
matter to where it ends.

Escaping is described on the whole text, as a backslash before each backslash
and then a backslash before each quote. The scan goes character by character,
and so do the proofs: both replacements together put the same few characters in
place of one character, wherever it stands (`Literal.flatMap_escapeChar`), and
the scan takes these few characters at once (`scanBody_escapeChar`). The other
order of the two replacements would not do, as it escapes the backslashes that
stand before quotes.
-/

namespace UserDirectory

/-! ## Escaping as two replacements -/

/-- The text with a backslash before each of its `mark`s. -/
def guardEach (mark : Char) (cs : List Char) : List Char :=
  cs.flatMap fun c => if c = mark then ['\\', c] else [c]

namespace Literal

/-- **Escaping is two replacements**: first each backslash is doubled, then each quote gets one. -/
theorem flatMap_escapeChar (cs : List Char) :
    cs.flatMap escapeChar = guardEach '"' (guardEach '\\' cs) := by
  rw [guardEach, guardEach, List.flatMap_assoc]
  refine congrArg (cs.flatMap ·) (funext fun c => ?_)
  show (if c == '\\' || c == '"' then ['\\', c] else [c])
    = (if c = '\\' then ['\\', c] else [c]).flatMap fun d => if d = '"' then ['\\', d] else [d]
  by_cases hslash : c = '\\'
  · rw [hslash]
    rfl
  · rw [if_neg hslash, List.flatMap_singleton]
    simp [hslash]

end Literal

/-! ## Scanning a phrase -/

/-- What stands before the first quote that no backslash makes literal, and what follows this
quote. -/
def scanBody : List Char → Option (List Char × List Char)
  | [] => none
  | '"' :: rest => some ([], rest)
  | ['\\'] => none
  | '\\' :: c :: rest => (scanBody rest).map (Prod.map ('\\' :: c :: ·) id)
  | c :: rest => (scanBody rest).map (Prod.map (c :: ·) id)

/-- **The phrase at the head of a text**: what stands between its quotes, and what follows it. -/
def scanPhrase? : List Char → Option (List Char × List Char)
  | '"' :: rest => scanBody rest
  | _ => none

/-- The text that is meant: a backslash goes, and the next character stays whatever it is. -/
def unescape : List Char → List Char
  | '\\' :: c :: rest => c :: unescape rest
  | c :: rest => c :: unescape rest
  | [] => []

/-- The scan takes what stands for one character at once. -/
theorem scanBody_escapeChar (c : Char) (rest : List Char) :
    scanBody (Literal.escapeChar c ++ rest)
      = (scanBody rest).map (Prod.map (Literal.escapeChar c ++ ·) id) := by
  rw [Literal.escapeChar]
  split
  · rfl
  · next h =>
    obtain ⟨hslash, hquote⟩ : c ≠ '\\' ∧ c ≠ '"' := by simpa using h
    show scanBody (c :: rest) = (scanBody rest).map (Prod.map (c :: ·) id)
    rw [scanBody]
    · exact hquote
    · exact fun h _ => hslash h
    · exact fun _ _ h _ => hslash h

/-- What stands for a character means this character. -/
theorem unescape_escapeChar (c : Char) (rest : List Char) :
    unescape (Literal.escapeChar c ++ rest) = c :: unescape rest := by
  rw [Literal.escapeChar]
  split
  · rfl
  · next h =>
    have hslash : c ≠ '\\' := fun hc => h (by simp [hc])
    show unescape (c :: rest) = c :: unescape rest
    rw [unescape]
    exact fun _ _ h _ => hslash h

/-- **An escaped text is scanned to its end**, and no further. -/
theorem scanBody_escaped (cs rest : List Char) :
    scanBody (cs.flatMap Literal.escapeChar ++ '"' :: rest)
      = some (cs.flatMap Literal.escapeChar, rest) := by
  induction cs with
  | nil => rfl
  | cons c cs ih =>
    rw [List.flatMap_cons, List.append_assoc, scanBody_escapeChar, ih]
    rfl

theorem unescape_escaped (cs : List Char) : unescape (cs.flatMap Literal.escapeChar) = cs := by
  induction cs with
  | nil => rfl
  | cons c cs ih => rw [List.flatMap_cons, unescape_escapeChar, ih]

/-- **A phrase is scanned to its own closing quote**, whatever follows it. -/
theorem scanPhrase?_phrase (s : String) (rest : List Char) :
    scanPhrase? ((Literal.phrase s).toList ++ rest)
      = some (s.toList.flatMap Literal.escapeChar, rest) := by
  rw [Literal.phrase, String.toList_ofList, List.append_assoc]
  exact scanBody_escaped s.toList rest

namespace Literal

/-- **A string operand ends at its own closing quote.** Its text is the escaped string between two
quotes. Whatever follows it, the scan that starts at the opening quote comes to the end of the
escaped string, leaves what follows, and the string is what the scanned text means. -/
theorem scan_string (s : String) (rest : List Char) :
    (string s).text.toList = '"' :: guardEach '"' (guardEach '\\' s.toList) ++ ['"'] ∧
      scanPhrase? ((string s).text.toList ++ rest)
        = some (guardEach '"' (guardEach '\\' s.toList), rest) ∧
      String.ofList (unescape (guardEach '"' (guardEach '\\' s.toList))) = s := by
  rw [← flatMap_escapeChar s.toList]
  refine ⟨?_, scanPhrase?_phrase s rest, ?_⟩
  · rw [text, phrase, String.toList_ofList]
  · rw [unescape_escaped, String.ofList_toList]

/-- **Texts that begin with a phrase** are equal only if the phrases are, and what follows them. -/
theorem phrase_append_inj {s t : String} {rest rest' : List Char}
    (h : (phrase s).toList ++ rest = (phrase t).toList ++ rest') : s = t ∧ rest = rest' := by
  have hscan : some (s.toList.flatMap escapeChar, rest)
      = some (t.toList.flatMap escapeChar, rest') := by
    rw [← scanPhrase?_phrase, h, scanPhrase?_phrase]
  obtain ⟨hbody, hrest⟩ := Prod.mk.inj (Option.some.inj hscan)
  refine ⟨String.toList_inj.1 ?_, hrest⟩
  rw [← unescape_escaped s.toList, hbody, unescape_escaped]

end Literal

end UserDirectory
