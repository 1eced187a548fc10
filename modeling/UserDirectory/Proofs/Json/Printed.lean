import Mathlib.Tactic.IntervalCases
import UserDirectory.Json.Printer
import UserDirectory.Json.Reader
import UserDirectory.Proofs.Query.Terms

/-!
# What a JSON text determines

The text of a value says which value it is and where it ends, whatever follows it
in a longer text (`Json.chars_append_injective`). So an array can be taken apart
item by item, and two values with one text are the same – except that a number is
known by its digits only, and two numbers that are written alike are not told
apart (`Json.Alike`).

Every value but a number ends by itself. A string does because its quotes are
escaped, so that the reader of strings gets back what was written
(`Json.stringBody?_escaped`); a number ends at the first character that cannot
belong to it, and inside a text such a character always follows.
-/

namespace UserDirectory

namespace Json

/-! ## Strings -/

/-- A control character is written as an escape that reads back. -/
theorem escape?_control {c : Char} (h : c.toNat < 0x20) :
    ∃ ds, escapeChar c = '\\' :: ds ∧ ∀ rest, escape? (ds ++ rest) = some (c, rest) := by
  obtain ⟨n, hn, rfl⟩ : ∃ n < 0x20, c = Char.ofNat n := ⟨c.toNat, h, (Char.ofNat_toNat c).symm⟩
  interval_cases n <;> exact ⟨_, rfl, fun _ => rfl⟩

/-- **One character of a string** reads back, and the reader goes on behind it. -/
theorem stringBody?_escapeChar (fuel : Nat) (acc rest : List Char) (c : Char) :
    stringBody? (fuel + 1) acc (escapeChar c ++ rest) = stringBody? fuel (c :: acc) rest := by
  by_cases hquote : c = '"'
  · subst hquote
    rfl
  by_cases hslash : c = '\\'
  · subst hslash
    rfl
  by_cases hcontrol : c.toNat < 0x20
  · obtain ⟨ds, hds, hread⟩ := escape?_control hcontrol
    rw [hds, List.cons_append, stringBody?, hread]
    rfl
  · have hself : escapeChar c = [c] := by
      simp [escapeChar, hquote, hslash, Nat.le_of_not_lt hcontrol]
    rw [hself, List.singleton_append]
    simp [stringBody?, hcontrol]

/-- **A string reads back from its escapes**, up to its closing quote. -/
theorem stringBody?_escaped (cs acc rest : List Char) {fuel : Nat} (h : cs.length < fuel) :
    stringBody? fuel acc (cs.flatMap escapeChar ++ '"' :: rest) =
      some (String.ofList (acc.reverse ++ cs), rest) := by
  induction cs generalizing acc fuel with
  | nil =>
    obtain ⟨n, rfl⟩ := Nat.exists_eq_add_of_lt h
    simp [stringBody?]
  | cons c cs ih =>
    obtain ⟨n, rfl⟩ : ∃ n, fuel = n + 1 := ⟨fuel - 1, by omega⟩
    rw [List.flatMap_cons, List.append_assoc, stringBody?_escapeChar,
      ih (c :: acc) (Nat.lt_of_succ_lt_succ h), List.reverse_cons, List.append_assoc,
      List.singleton_append]

theorem quotedChars_append (s : String) (rest : List Char) :
    quotedChars s ++ rest = '"' :: (s.toList.flatMap escapeChar ++ '"' :: rest) := by
  simp [quotedChars]

/-- **A string in quotes** says where it ends. -/
theorem quotedChars_append_injective {s t : String} {rest rest' : List Char}
    (h : quotedChars s ++ rest = quotedChars t ++ rest') : s = t ∧ rest = rest' := by
  rw [quotedChars_append, quotedChars_append] at h
  -- both texts go through one reader, with fuel for either
  have hread := congrArg (stringBody? (s.toList.length + t.toList.length + 1) [])
    (List.cons.inj h).2
  rw [stringBody?_escaped _ _ _ (by omega), stringBody?_escaped _ _ _ (by omega),
    List.reverse_nil, List.nil_append, List.nil_append, String.ofList_toList,
    String.ofList_toList] at hread
  exact Prod.mk.inj (Option.some.inj hread)

end Json

/-! ## Numbers -/

/-- **No word goes on here**: nothing follows, or something that is no part of a word. -/
def EndsWord (rest : List Char) : Prop := ∀ c ∈ rest.head?, Query.isBareBoundChar c = false

/-- A word says where it ends, if no word follows it. -/
theorem IsWord.append_injective {cs ds : List Char} (hcs : IsWord cs) (hds : IsWord ds)
    {rest rest' : List Char} (hrest : EndsWord rest) (hrest' : EndsWord rest')
    (h : cs ++ rest = ds ++ rest') : cs = ds ∧ rest = rest' := by
  have htake : ∀ {w r : List Char}, IsWord w → EndsWord r →
      (w ++ r).takeWhile Query.isBareBoundChar = w := by
    intro w r hw hr
    rw [List.takeWhile_append_of_pos hw.2]
    cases r with
    | nil => exact List.append_nil w
    | cons c r => rw [List.takeWhile_cons_of_neg (by simp [hr c rfl]), List.append_nil]
  have heq : cs = ds := by rw [← htake hcs hrest, h, htake hds hrest']
  exact ⟨heq, List.append_cancel_left (heq ▸ h)⟩

/-- A character that a number can begin with. -/
def beginsNumber (c : Char) : Bool := c.isDigit || c == '-'

theorem exists_digit_cons (n : Nat) :
    ∃ c cs, Nat.toDigits 10 n = c :: cs ∧ c.isDigit = true := by
  obtain ⟨c, cs, h⟩ := List.exists_cons_of_ne_nil (Nat.toDigits_ne_nil (n := n) (b := 10))
  exact ⟨c, cs, h, Nat.isDigit_of_mem_toDigits (by decide) (by decide) (h ▸ List.mem_cons_self)⟩

theorem Binary64.exists_cons_positional {c : Char} (hc : c.isDigit = true) (cs : List Char)
    (point : Int) : ∃ d ds, positional (c :: cs) point = d :: ds ∧ d.isDigit = true := by
  unfold positional
  split
  · exact ⟨'0', _, rfl, by decide⟩
  · next hpoint =>
    obtain ⟨n, hn⟩ := Nat.exists_eq_succ_of_ne_zero (n := point.toNat) (by omega)
    rw [hn]
    dsimp only
    split <;> exact ⟨c, _, rfl, hc⟩

/-- The magnitude of a number begins with a digit. -/
theorem Binary64.exists_digit_cons (x : Binary64) :
    ∃ c cs, x.magnitudeText = c :: cs ∧ c.isDigit = true := by
  unfold magnitudeText
  split
  · exact ⟨'0', _, rfl, by decide⟩
  dsimp only
  obtain ⟨c, cs, hdigits, hc⟩ := UserDirectory.exists_digit_cons
    (trimZeros 20 x.shortest.1 x.shortest.2).1
  rw [hdigits]
  split
  · exact exists_cons_positional hc cs _
  · unfold scientific
    cases cs <;> exact ⟨c, _, rfl, hc⟩

/-- **A number begins with a digit or a minus.** -/
theorem Number.exists_cons (n : Number) :
    ∃ c cs, n.text.toList = c :: cs ∧ beginsNumber c = true := by
  have hdigit : ∀ {c : Char}, c.isDigit = true → beginsNumber c = true := fun h => by
    rw [beginsNumber, h, Bool.true_or]
  match n with
  | .real x =>
    show ∃ c cs, (String.ofList _).toList = c :: cs ∧ _
    rw [String.toList_ofList]
    obtain ⟨c, cs, hcs, hc⟩ := x.exists_digit_cons
    split
    · exact ⟨'-', _, rfl, by decide⟩
    · exact ⟨c, cs, hcs, hdigit hc⟩
  | .int (.ofNat m) =>
    obtain ⟨c, cs, hcs, hc⟩ := exists_digit_cons m
    exact ⟨c, cs, by rw [← hcs, ← Nat.toList_repr]; rfl, hdigit hc⟩
  | .int (.negSucc m) =>
    refine ⟨'-', m.succ.repr.toList, ?_, by decide⟩
    show ("-" ++ m.succ.repr).toList = _
    rw [String.toList_append]
    rfl

namespace Json

/-! ## Values -/

/-- The kind of value that begins with a character, by the constructors of values. -/
def kindOf (c : Char) : Option Nat :=
  if c = 'n' then some 0
  else if c = 't' ∨ c = 'f' then some 1
  else if beginsNumber c then some 2
  else if c = '"' then some 3
  else if c = '[' then some 4
  else if c = '\x7b' then some 5
  else none

/-- **A value shows its kind** with its first character. -/
theorem exists_cons_chars (v : Json) : ∃ c cs, v.chars = c :: cs ∧ kindOf c = some v.ctorIdx := by
  cases v with
  | null => exact ⟨'n', _, rfl, rfl⟩
  | bool b => cases b <;> exact ⟨_, _, rfl, rfl⟩
  | num n =>
    obtain ⟨c, cs, hcs, hc⟩ := n.exists_cons
    refine ⟨c, cs, by rw [chars, hcs], ?_⟩
    have hne : c ≠ 'n' ∧ c ≠ 't' ∧ c ≠ 'f' := by
      refine ⟨?_, ?_, ?_⟩ <;> rintro rfl <;> exact absurd hc (by decide)
    rw [kindOf, if_neg hne.1, if_neg (by simp [hne]), if_pos hc]
    rfl
  | str s => exact ⟨'"', _, rfl, rfl⟩
  | arr items => exact ⟨'[', _, by rw [chars]; rfl, rfl⟩
  | obj fields => exact ⟨'\x7b', _, by rw [chars]; rfl, rfl⟩

/-- Texts that begin alike are of one kind. -/
theorem ctorIdx_eq_of_chars {v w : Json} {rest rest' : List Char}
    (h : v.chars ++ rest = w.chars ++ rest') : v.ctorIdx = w.ctorIdx := by
  obtain ⟨c, cs, hcs, hc⟩ := v.exists_cons_chars
  obtain ⟨d, ds, hds, hd⟩ := w.exists_cons_chars
  rw [hcs, hds] at h
  obtain ⟨rfl, -⟩ := List.cons.inj h
  exact Option.some.inj (hc.symm.trans hd)

/-- No value begins with a character that ends one. -/
theorem chars_append_ne_cons {v : Json} {c : Char} (hc : kindOf c = none) (rest rest' : List Char) :
    v.chars ++ rest ≠ c :: rest' := by
  obtain ⟨d, ds, hds, hd⟩ := v.exists_cons_chars
  rw [hds]
  intro h
  obtain ⟨rfl, -⟩ := List.cons.inj h
  rw [hc] at hd
  exact absurd hd nofun

/-- The items that follow the first, with the comma before them. -/
def furtherItems : List Json → List Char
  | [] => []
  | v :: rest => ',' :: itemChars (v :: rest)

/-- The fields that follow the first, with the comma before them. -/
def furtherFields : List (String × Json) → List Char
  | [] => []
  | e :: rest => ',' :: fieldChars (e :: rest)

theorem itemChars_cons (v : Json) (rest : List Json) :
    itemChars (v :: rest) = v.chars ++ furtherItems rest := by
  cases rest with
  | nil => rw [itemChars, furtherItems, List.append_nil]
  | cons w rest => rw [itemChars, furtherItems]; exact List.cons_ne_nil _ _

theorem fieldChars_cons (k : String) (v : Json) (rest : List (String × Json)) :
    fieldChars ((k, v) :: rest) = quotedChars k ++ ':' :: (v.chars ++ furtherFields rest) := by
  cases rest with
  | nil => rw [fieldChars, furtherFields, List.append_nil]
  | cons w rest =>
    rw [fieldChars, furtherFields, List.append_assoc, List.cons_append]
    exact List.cons_ne_nil _ _

/-- Behind an item no word goes on. -/
theorem endsWord_furtherItems (items : List Json) (rest : List Char) :
    EndsWord (furtherItems items ++ ']' :: rest) := by
  cases items <;> rintro c ⟨⟩ <;> decide

/-- Behind the value of a field no word goes on. -/
theorem endsWord_furtherFields (fields : List (String × Json)) (rest : List Char) :
    EndsWord (furtherFields fields ++ '\x7d' :: rest) := by
  cases fields <;> rintro c ⟨⟩ <;> decide

mutual

/-- **Two values are alike**: the same, but for numbers that are written alike. -/
def Alike : Json → Json → Prop
  | .null, .null => True
  | .bool a, .bool b => a = b
  | .num a, .num b => a.text = b.text
  | .str a, .str b => a = b
  | .arr a, .arr b => AlikeItems a b
  | .obj a, .obj b => AlikeFields a b
  | _, _ => False

/-- The items are alike, one by one. -/
def AlikeItems : List Json → List Json → Prop
  | [], [] => True
  | v :: vs, w :: ws => v.Alike w ∧ AlikeItems vs ws
  | _, _ => False

/-- The fields have the same keys, and their values are alike. -/
def AlikeFields : List (String × Json) → List (String × Json) → Prop
  | [], [] => True
  | (k, v) :: vs, (l, w) :: ws => k = l ∧ v.Alike w ∧ AlikeFields vs ws
  | _, _ => False

end

mutual

/-- **A value can be read off a text that begins with it**, as far as it is told from
those alike, and so can the place where it ends. -/
theorem chars_append_injective (v w : Json) {rest rest' : List Char} (hrest : EndsWord rest)
    (hrest' : EndsWord rest') (h : v.chars ++ rest = w.chars ++ rest') :
    v.Alike w ∧ rest = rest' := by
  have hkind := ctorIdx_eq_of_chars h
  match v, w, hkind with
  | .null, .null, _ => exact ⟨trivial, List.append_cancel_left h⟩
  | .bool a, .bool b, _ =>
    cases a <;> cases b
    · exact ⟨rfl, List.append_cancel_left h⟩
    · exact absurd (List.cons.inj h).1 (by decide)
    · exact absurd (List.cons.inj h).1 (by decide)
    · exact ⟨rfl, List.append_cancel_left h⟩
  | .num a, .num b, _ =>
    rw [chars, chars] at h
    obtain ⟨htext, hend⟩ := a.isWord_text.append_injective b.isWord_text hrest hrest' h
    exact ⟨String.toList_inj.1 htext, hend⟩
  | .str a, .str b, _ =>
    rw [chars, chars] at h
    exact quotedChars_append_injective h
  | .arr a, .arr b, _ =>
    rw [chars, chars, List.cons_append, List.cons_append, List.append_assoc, List.append_assoc] at h
    exact itemChars_append_injective a b (List.cons.inj h).2
  | .obj a, .obj b, _ =>
    rw [chars, chars, List.cons_append, List.cons_append, List.append_assoc, List.append_assoc] at h
    exact fieldChars_append_injective a b (List.cons.inj h).2

/-- The items of an array can be read off, up to its bracket. -/
theorem itemChars_append_injective (vs ws : List Json) {rest rest' : List Char}
    (h : itemChars vs ++ ([']'] ++ rest) = itemChars ws ++ ([']'] ++ rest')) :
    AlikeItems vs ws ∧ rest = rest' := by
  match vs, ws with
  | [], [] =>
    rw [itemChars] at h
    exact ⟨trivial, (List.cons.inj h).2⟩
  | [], w :: ws =>
    rw [itemChars, itemChars_cons, List.append_assoc] at h
    exact absurd h.symm (chars_append_ne_cons (by decide) _ _)
  | v :: vs, [] =>
    rw [itemChars, itemChars_cons, List.append_assoc] at h
    exact absurd h (chars_append_ne_cons (by decide) _ _)
  | v :: vs, w :: ws =>
    rw [itemChars_cons, itemChars_cons, List.append_assoc, List.append_assoc] at h
    obtain ⟨halike, hfurther⟩ := chars_append_injective v w (endsWord_furtherItems vs rest)
      (endsWord_furtherItems ws rest') h
    have htail : AlikeItems vs ws ∧ rest = rest' := by
      match vs, ws with
      | [], [] => exact ⟨trivial, (List.cons.inj hfurther).2⟩
      | [], _ :: _ => exact absurd (List.cons.inj hfurther).1 (by decide)
      | _ :: _, [] => exact absurd (List.cons.inj hfurther).1 (by decide)
      | v' :: vs, w' :: ws =>
        exact itemChars_append_injective (v' :: vs) (w' :: ws) (List.cons.inj hfurther).2
    exact ⟨⟨halike, htail.1⟩, htail.2⟩

/-- The fields of an object can be read off, up to its brace. -/
theorem fieldChars_append_injective (vs ws : List (String × Json)) {rest rest' : List Char}
    (h : fieldChars vs ++ (['\x7d'] ++ rest) = fieldChars ws ++ (['\x7d'] ++ rest')) :
    AlikeFields vs ws ∧ rest = rest' := by
  match vs, ws with
  | [], [] =>
    rw [fieldChars] at h
    exact ⟨trivial, (List.cons.inj h).2⟩
  | [], (l, w) :: ws =>
    rw [fieldChars, fieldChars_cons, List.append_assoc, quotedChars_append] at h
    exact absurd (List.cons.inj h).1 (by decide)
  | (k, v) :: vs, [] =>
    rw [fieldChars, fieldChars_cons, List.append_assoc, quotedChars_append] at h
    exact absurd (List.cons.inj h).1 (by decide)
  | (k, v) :: vs, (l, w) :: ws =>
    rw [fieldChars_cons, fieldChars_cons, List.append_assoc, List.append_assoc] at h
    obtain ⟨rfl, hvalue⟩ := quotedChars_append_injective h
    have hvalue : v.chars ++ furtherFields vs ++ (['\x7d'] ++ rest)
        = w.chars ++ furtherFields ws ++ (['\x7d'] ++ rest') := (List.cons.inj hvalue).2
    rw [List.append_assoc, List.append_assoc] at hvalue
    obtain ⟨halike, hfurther⟩ := chars_append_injective v w (endsWord_furtherFields vs rest)
      (endsWord_furtherFields ws rest') hvalue
    have htail : AlikeFields vs ws ∧ rest = rest' := by
      match vs, ws with
      | [], [] => exact ⟨trivial, (List.cons.inj hfurther).2⟩
      | [], _ :: _ => exact absurd (List.cons.inj hfurther).1 (by decide)
      | _ :: _, [] => exact absurd (List.cons.inj hfurther).1 (by decide)
      | e :: vs, f :: ws =>
        exact fieldChars_append_injective (e :: vs) (f :: ws) (List.cons.inj hfurther).2
    exact ⟨⟨rfl, halike, htail.1⟩, htail.2⟩

end

/-- **Values with one text are alike.** -/
theorem alike_of_text_eq {v w : Json} (h : v.text = w.text) : v.Alike w := by
  have hend : EndsWord [] := nofun
  refine (chars_append_injective v w hend hend ?_).1
  rw [List.append_nil, List.append_nil]
  exact String.ofList_injective h

end Json

end UserDirectory
