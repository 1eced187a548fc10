/-!
# Powers of two and ten

The powers that number formats are made of, and the bounds of machine words. They are natural
numbers, whatever they are compared with.
-/

namespace UserDirectory

/-- `2 ^ k`. -/
abbrev twoTo (k : Nat) : Nat := Nat.pow 2 k

/-- `10 ^ k`. -/
abbrev tenTo (k : Nat) : Nat := Nat.pow 10 k

/-- Unsigned machine words stay below this bound. -/
def wordLimit : Nat := twoTo 64

/-- Signed machine words stay below this bound, and at or above its negative. -/
def signedLimit : Nat := twoTo 63

end UserDirectory
