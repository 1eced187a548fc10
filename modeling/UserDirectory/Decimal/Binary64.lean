import UserDirectory.Decimal.Power

/-!
# Finite binary64 numbers

A finite binary64 number is a sign, a mantissa `m < 2 ^ 53` and an exponent `q` between `-1074`
and `971`, and stands for `± m * 2 ^ q`. Keeping the three parts, rather than a machine word, makes
every operation exact arithmetic on `Nat` followed by one rounding.

`Binary64.round` is that rounding: the multiple of the unit of the last place nearest to a
quotient, ties to the even mantissa. Products and quotients of numbers, and the two ways of reading
a decimal, are all stated through it.
-/

namespace UserDirectory

/-- **A finite binary64 number**, `± mantissa * 2 ^ exponent`. Numbers made by `Binary64.round` are
canonical: the mantissa has 53 bits, or the exponent is `-1074`. -/
structure Binary64 where
  /-- Whether the sign is minus; zero has both signs. -/
  negative : Bool
  /-- The mantissa, below `2 ^ 53`. -/
  mantissa : Nat
  /-- The power of two of the last place. -/
  exponent : Int
  deriving DecidableEq, Repr, Inhabited

namespace Binary64

/-- The exponent of the smallest numbers. -/
def minExponent : Int := -1074

/-- The exponent of the largest numbers. -/
def maxExponent : Int := 971

/-- Zero, of either sign. -/
def zero (negative : Bool) : Binary64 := ⟨negative, 0, minExponent⟩

/-- The number is zero, of either sign. -/
def isZero (x : Binary64) : Bool := x.mantissa == 0

/-- The number with its sign replaced. -/
def withSign (negative : Bool) (x : Binary64) : Binary64 := { x with negative }

/-- The quotient `num / den` to the nearest natural number, a half to the even neighbour. -/
def roundQuotient (num den : Nat) : Nat :=
  let q := num / den
  let twice := 2 * (num % den)
  if twice < den then q
  else if den < twice then q + 1
  else q + q % 2

/-- `n * 2 ^ e` as a pair of numerator and denominator. -/
def scaleTwo (n : Nat) (e : Int) : Nat × Nat :=
  if 0 ≤ e then (n * twoTo e.toNat, 1) else (n, twoTo (-e).toNat)

/-- **The binary64 number nearest to `num / den`**, ties to the even mantissa, or `none` when that
is beyond the largest one. -/
def round (negative : Bool) (num den : Nat) : Option Binary64 :=
  if num = 0 then some (zero negative)
  else
    let top : Int := (num.log2 : Int) - den.log2
    let atPlace (q : Int) : Nat :=
      if 0 ≤ q then roundQuotient num (den * twoTo q.toNat)
      else roundQuotient (num * twoTo (-q).toNat) den
    let q := max (top - 53) minExponent
    -- `top` may exceed the true power by one, so the first place may be one too fine
    let q := if atPlace q < twoTo 53 then q else q + 1
    let m := atPlace q
    let (m, q) := if m = twoTo 53 then (twoTo 52, q + 1) else (m, q)
    if maxExponent < q then none else some ⟨negative, m, q⟩

/-- The magnitude as a quotient. -/
def magnitude (x : Binary64) : Nat × Nat := scaleTwo x.mantissa x.exponent

/-- The product of two numbers, rounded once. -/
def mul (x y : Binary64) : Option Binary64 :=
  let (a, b) := x.magnitude
  let (c, d) := y.magnitude
  round (x.negative != y.negative) (a * c) (b * d)

/-- The quotient of two numbers, rounded once. -/
def div (x y : Binary64) : Option Binary64 :=
  let (a, b) := x.magnitude
  let (c, d) := y.magnitude
  if c = 0 then none else round (x.negative != y.negative) (a * d) (b * c)

/-- The number nearest to a natural number. -/
def ofNat? (n : Nat) : Option Binary64 := round false n 1

/-- `digits * 10 ^ exponent`, correctly rounded; `none` beyond the largest number. An exponent far
outside the range is settled without computing its power. -/
def ofDecimal? (negative : Bool) (digits : Nat) (exponent : Int) : Option Binary64 :=
  if digits = 0 then some (zero negative)
  else
    let top : Int := (Nat.toDigits 10 digits).length + exponent
    if 400 < top then none
    else if top < -400 then some (zero negative)
    else if 0 ≤ exponent then round negative (digits * tenTo exponent.toNat) 1
    else round negative digits (tenTo (-exponent).toNat)

/-- The largest power of ten that is a binary64 number. -/
def maxPowerOfTen : Nat := 308

/-- The number nearest to `10 ^ k`. -/
def powerOfTen? (k : Nat) : Option Binary64 := ofDecimal? false 1 k

/-- Divides by powers of ten of at most `maxPowerOfTen`, one rounding for each. -/
def divPowerOfTen? : Nat → Binary64 → Nat → Option Binary64
  | 0, _, _ => none
  | fuel + 1, x, k =>
    if k ≤ maxPowerOfTen then (powerOfTen? k).bind x.div
    else if x.isZero then some x
    else
      ((powerOfTen? maxPowerOfTen).bind x.div).bind
        fun y => divPowerOfTen? fuel y (k - maxPowerOfTen)

/-- **Scaling in machine steps**: the significand is rounded to a binary64 number first and then
multiplied or divided by a rounded power of ten. The result can differ from `ofDecimal?` in the
last place; a number too large gives `none`. -/
def ofScaled? (negative : Bool) (significand : Nat) (exponent : Int) : Option Binary64 :=
  (ofNat? significand).bind fun x =>
    let scaled :=
      if 0 ≤ exponent then
        if x.isZero then some x
        else if (maxPowerOfTen : Int) < exponent then none
        else (powerOfTen? exponent.toNat).bind x.mul
      -- three divisions bring every significand to zero
      else divPowerOfTen? 4 x (-exponent).toNat
    scaled.map (withSign negative)

/-- The machine word of the number: sign, biased exponent, fraction. -/
def toBits (x : Binary64) : Nat :=
  let sign := if x.negative then twoTo 63 else 0
  if x.mantissa < twoTo 52 then sign + x.mantissa
  else sign + (x.exponent + 1075).toNat * twoTo 52 + (x.mantissa - twoTo 52)

end Binary64

end UserDirectory
