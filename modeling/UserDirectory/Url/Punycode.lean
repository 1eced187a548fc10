/-!
# Punycode

The form in which a label beyond ASCII is written in a host name (RFC 3492): its ASCII characters, a
hyphen, and then the others, each as the distance in the order of insertions, in digits whose
weights adapt to the distances seen.
-/

namespace UserDirectory.Punycode

/-- A digit below 36. -/
def digit (n : Nat) : Char := if n < 26 then Char.ofNat (97 + n) else Char.ofNat (22 + n)

/-- The number of a digit, of either case. -/
def value? (c : Char) : Option Nat :=
  if 'a' ≤ c ∧ c ≤ 'z' then some (c.toNat - 97)
  else if 'A' ≤ c ∧ c ≤ 'Z' then some (c.toNat - 65)
  else if '0' ≤ c ∧ c ≤ '9' then some (c.toNat - 22)
  else none

/-- How often a distance is divided before it is small; `fuel` bounds the divisions. -/
def reduce : Nat → Nat → Nat → Nat × Nat
  | 0, delta, k => (delta, k)
  | fuel + 1, delta, k => if 455 < delta then reduce fuel (delta / 35) (k + 36) else (delta, k)

/-- The bias after a distance. -/
def adapt (delta points : Nat) (first : Bool) : Nat :=
  let delta := if first then delta / 700 else delta / 2
  let (delta, k) := reduce 64 (delta + delta / points) 0
  k + 36 * delta / (delta + 38)

/-- The threshold of the digit at a weight. -/
def threshold (k bias : Nat) : Nat := min 26 (max 1 (k - bias))

/-- A distance as digits; `fuel` bounds their number. -/
def distanceDigits : Nat → Nat → Nat → Nat → List Char
  | 0, _, _, _ => []
  | fuel + 1, q, k, bias =>
    let t := threshold k bias
    if q < t then [digit q]
    else digit (t + (q - t) % (36 - t)) :: distanceDigits fuel ((q - t) / (36 - t)) (k + 36) bias

/-- What has been written so far. -/
structure Progress where
  /-- The code point reached. -/
  point : Nat
  /-- The distance gone since the last insertion. -/
  delta : Nat
  bias : Nat
  /-- How many characters have been handled. -/
  handled : Nat
  /-- The digits, the last one first. -/
  output : List Char

/-- One character of the label, while all characters at the code point reached are inserted. -/
def scanChar (basic : Nat) (p : Progress) (c : Char) : Progress :=
  let n := c.toNat
  if n < p.point then { p with delta := p.delta + 1 }
  else if n == p.point then
    let digits := distanceDigits 64 p.delta 36 p.bias
    { p with
      output := digits.reverse ++ p.output
      bias := adapt p.delta (p.handled + 1) (p.handled == basic)
      delta := 0
      handled := p.handled + 1 }
  else p

/-- Moves on to the next code point that the label holds and inserts its characters; `fuel` bounds
the code points. -/
def encodeFrom (label : List Char) (basic : Nat) : Nat → Progress → Progress
  | 0, p => p
  | fuel + 1, p =>
    match ((label.map Char.toNat).filter (p.point ≤ ·)).min? with
    | none => p
    | some m =>
      let p := { p with point := m, delta := p.delta + (m - p.point) * (p.handled + 1) }
      let p := label.foldl (scanChar basic) p
      encodeFrom label basic fuel { p with point := p.point + 1, delta := p.delta + 1 }

/-- **The Punycode of a label.** -/
def encode (label : List Char) : List Char :=
  let ascii := label.filter fun c => c.toNat < 128
  let start := if ascii.isEmpty then [] else ascii ++ ['-']
  let p := encodeFrom label ascii.length (label.length + 1) ⟨128, 0, 72, ascii.length, []⟩
  start ++ p.output.reverse

/-- A distance read from digits: the distance and the rest. -/
def readDistance? : List Char → Nat → Nat → Nat → Nat → Option (Nat × List Char)
  | [], _, _, _, _ => none
  | c :: rest, k, weight, bias, sum => do
    let d ← value? c
    let sum := sum + d * weight
    let t := threshold k bias
    if d < t then some (sum, rest) else readDistance? rest (k + 36) (weight * (36 - t)) bias sum

/-- Inserts the characters that the digits write; `fuel` bounds their number. -/
def decodeFrom? : Nat → List Char → Nat → Nat → Nat → List Char → Option (List Char)
  | 0, _, _, _, _, _ => none
  | fuel + 1, digits, point, index, bias, out =>
    if digits.isEmpty then some out
    else do
      let (distance, rest) ← readDistance? digits 36 1 bias 0
      let length := out.length + 1
      let total := index + distance
      let bias := adapt distance length (index == 0)
      let point := point + total / length
      let index := total % length
      if point < 0x110000 && !(0xD800 ≤ point && point < 0xE000) then
        decodeFrom? fuel rest point (index + 1) bias
          (out.take index ++ Char.ofNat point :: out.drop index)
      else none

/-- **Reads the Punycode of a label.** -/
def decode? (text : List Char) : Option (List Char) :=
  let tail := (text.reverse.takeWhile (· != '-')).reverse
  let head := text.take (text.length - tail.length)
  let ascii := head.dropLast
  decodeFrom? (text.length + 1) tail 128 0 72 ascii

end UserDirectory.Punycode
