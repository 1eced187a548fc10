/-!
# Blanks

The blanks are the characters with Unicode's white space property. Trimming removes them from both
ends of a text, and words are what they separate.
-/

namespace UserDirectory

/-- **A white space character**, by the Unicode property. -/
def isBlank (c : Char) : Bool :=
  let n := c.toNat
  (9 ≤ n && n ≤ 13) || n == 0x20 || n == 0x85 || n == 0xA0 || n == 0x1680
    || (0x2000 ≤ n && n ≤ 0x200A) || n == 0x2028 || n == 0x2029 || n == 0x202F || n == 0x205F
    || n == 0x3000

/-- The characters without blanks at either end. -/
def trimChars (cs : List Char) : List Char :=
  ((cs.dropWhile isBlank).reverse.dropWhile isBlank).reverse

/-- **The text without blanks at either end.** -/
def trimBlanks (s : String) : String := String.ofList (trimChars s.toList)

/-- The pieces of a list between the elements that satisfy the test, empty pieces included. -/
def splitAtAll {α : Type} (p : α → Bool) : List α → List (List α)
  | [] => [[]]
  | c :: rest =>
    if p c then [] :: splitAtAll p rest
    else
      match splitAtAll p rest with
      | [] => [[c]]
      | piece :: pieces => (c :: piece) :: pieces

/-- The words of a text: the nonempty pieces between blanks. -/
def blankSeparated (s : String) : List String :=
  ((splitAtAll isBlank s.toList).filter (!·.isEmpty)).map String.ofList

/-- The pieces of a text between the occurrences of a character, empty ones included. -/
def splitAtChar (c : Char) (s : String) : List String :=
  (splitAtAll (· == c) s.toList).map String.ofList

/-- The texts one after another, with a separator between neighbours. -/
def joinWith (separator : String) (parts : List String) : String := separator.intercalate parts

end UserDirectory
