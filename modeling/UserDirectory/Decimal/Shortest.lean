import UserDirectory.Decimal.Binary64

/-!
# Shortest decimal text of a binary64 number

The text of a number is the shortest decimal that rounds back to it and, of the shortest ones, the
nearest to it. `Binary64.shortest` finds the digits in exact arithmetic: for one, two, … digits it
tests the two neighbours of the number on the decimal grid against the interval of reals that round
to the number, and the first grid with a hit wins.

`Binary64.text` writes the digits: positional from `1e-5` up to `1e16`, always with a fraction, and
scientific elsewhere, always with the sign of the exponent.
-/

namespace UserDirectory.Binary64

/-- The reals that round to a number, in quarters of its last place: the number itself is `4 * m`,
a half place lies on either side, and only a quarter below a power of two. The ends belong to the
interval exactly when the mantissa is even. -/
structure Interval where
  /-- The number, in units. -/
  value : Nat
  /-- The lower end, in units. -/
  lower : Nat
  /-- The upper end, in units. -/
  upper : Nat
  /-- Whether the ends round to the number too. -/
  closed : Bool
  /-- Numerator and denominator of the unit. -/
  unit : Nat × Nat

/-- The interval of a nonzero number. -/
def interval (x : Binary64) : Interval :=
  let m := x.mantissa
  let narrow := m == twoTo 52 && x.exponent != minExponent
  { value := 4 * m
    lower := if narrow then 4 * m - 1 else 4 * m - 2
    upper := 4 * m + 2
    closed := m % 2 == 0
    unit := scaleTwo 1 (x.exponent - 2) }

/-- The exponent `e` with `10 ^ e ≤ num / den < 10 ^ (e + 1)`, for a positive quotient. -/
def decimalExponent (num den : Nat) : Int :=
  if den ≤ num then ((Nat.toDigits 10 (num / den)).length : Int) - 1
  else -((Nat.toDigits 10 ((den - 1) / num)).length : Int)

/-- The grid point `d * 10 ^ k` in the interval's own units, as a quotient. -/
def gridPoint (i : Interval) (d : Nat) (k : Int) : Nat × Nat :=
  let (u, v) := i.unit
  if 0 ≤ k then (d * tenTo k.toNat * v, u) else (d * v, u * tenTo (-k).toNat)

/-- Whether the grid point lies in the interval. -/
def Interval.holds (i : Interval) (d : Nat) (k : Int) : Bool :=
  let (a, b) := gridPoint i d k
  if i.closed then i.lower * b ≤ a && a ≤ i.upper * b else i.lower * b < a && a < i.upper * b

/-- The nearer of the two neighbours of the number on the grid `10 ^ k` that round to it; of two
equally near the even one. -/
def Interval.nearest? (i : Interval) (k : Int) : Option Nat :=
  let (u, v) := i.unit
  let d :=
    if 0 ≤ k then i.value * u / (v * tenTo k.toNat) else i.value * u * tenTo (-k).toNat / v
  match i.holds d k, i.holds (d + 1) k with
  | false, false => none
  | true, false => some d
  | false, true => some (d + 1)
  | true, true =>
    let (a, b) := gridPoint i d k
    let (a', _) := gridPoint i (d + 1) k
    let below := i.value * b - a
    let above := a' - i.value * b
    if below < above then some d
    else if above < below then some (d + 1)
    else some (d + d % 2)

/-- Tries the grids from coarse to fine. -/
def Interval.search (i : Interval) : Nat → Int → Nat × Int
  | 0, k => (i.value, k)
  | fuel + 1, k =>
    match i.nearest? k with
    | some d => (d, k)
    | none => i.search fuel (k - 1)

/-- **The shortest digits of a nonzero number**: `(d, k)` stands for `d * 10 ^ k`. Seventeen digits
always suffice. -/
def shortest (x : Binary64) : Nat × Int :=
  let i := x.interval
  let (u, v) := i.unit
  i.search 18 (decimalExponent (i.value * u) v)

/-- Digits without the zeros at their end, with the power of ten raised to match. -/
def trimZeros : Nat → Nat → Int → Nat × Int
  | 0, d, k => (d, k)
  | fuel + 1, d, k =>
    if d % 10 = 0 && d != 0 then trimZeros fuel (d / 10) (k + 1) else (d, k)

/-- Where positional notation begins and ends: numbers from `10 ^ (-5)` up to `10 ^ 16`. -/
def positionalFrom : Int := -5

/-- The first power of ten that is written scientifically. -/
def positionalUpTo : Int := 16

/-- The digits `ds` with the point after the first `point` of them, filled with zeros on either
side so that both parts are nonempty. -/
def positional (ds : List Char) (point : Int) : List Char :=
  if point ≤ 0 then '0' :: '.' :: (List.replicate (-point).toNat '0' ++ ds)
  else
    let n := point.toNat
    if ds.length ≤ n then ds ++ List.replicate (n - ds.length) '0' ++ ['.', '0']
    else ds.take n ++ '.' :: ds.drop n

/-- One digit, the others behind a point if there are any, and the signed exponent. -/
def scientific (ds : List Char) (exponent : Int) : List Char :=
  let mantissa :=
    match ds with
    | [] => []
    | [d] => [d]
    | d :: rest => d :: '.' :: rest
  let sign := if 0 ≤ exponent then '+' else '-'
  mantissa ++ 'e' :: sign :: Nat.toDigits 10 exponent.natAbs

/-- The text of the magnitude. -/
def magnitudeText (x : Binary64) : List Char :=
  if x.isZero then ['0', '.', '0']
  else
    let (d, k) := x.shortest
    let (d, k) := trimZeros 20 d k
    let ds := Nat.toDigits 10 d
    let exponent := k + ds.length - 1
    if positionalFrom ≤ exponent && exponent < positionalUpTo then positional ds (exponent + 1)
    else scientific ds exponent

/-- **The text of a number**: the sign and the shortest digits that read back. -/
def text (x : Binary64) : String :=
  String.ofList (if x.negative then '-' :: x.magnitudeText else x.magnitudeText)

end UserDirectory.Binary64
