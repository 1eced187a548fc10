import UserDirectory.Decimal.Shortest
import UserDirectory.Table

/-!
# JSON values

The directory's data are JSON values. `Json` is the plain tree; an object is a table, and a value
is `WellFormed` when every object in it, at any depth, is ordered. Readers produce well-formed
values, and `Json.ordered` makes one of any tree, the last of equal keys counting.

A number is exact: an integer, or a finite binary64 number when it was written with a fraction or an
exponent or lies beyond 64 bits.
-/

namespace UserDirectory

/-- **A number**: an integer of at most 64 bits, or a binary64 number. -/
inductive Number where
  /-- An integer, between `-2 ^ 63` and `2 ^ 64 - 1` when it was read. -/
  | int (n : Int)
  /-- Any other number. -/
  | real (x : Binary64)
  deriving DecidableEq, Repr, Inhabited

/-- The text of a number: the digits of an integer, the shortest digits of another. -/
def Number.text : Number → String
  | .int n => toString n
  | .real x => x.text

/-- **A JSON value.** -/
inductive Json where
  | null
  | bool (b : Bool)
  | num (n : Number)
  | str (s : String)
  | arr (items : List Json)
  | obj (fields : List (String × Json))
  deriving Repr, Inhabited

/-- **A record**: the fields of an object. -/
abbrev Record := Table Json

namespace Json

/-! ## Equality -/

mutual

/-- Equality of two values is decided node by node. -/
def decEq : (a b : Json) → Decidable (a = b)
  | .null, .null => isTrue rfl
  | .bool a, .bool b => decidable_of_iff (a = b) (by simp)
  | .num a, .num b => decidable_of_iff (a = b) (by simp)
  | .str a, .str b => decidable_of_iff (a = b) (by simp)
  | .arr a, .arr b =>
    match decEqItems a b with
    | isTrue h => isTrue (h ▸ rfl)
    | isFalse h => isFalse fun e => h (Json.arr.inj e)
  | .obj a, .obj b =>
    match decEqFields a b with
    | isTrue h => isTrue (h ▸ rfl)
    | isFalse h => isFalse fun e => h (Json.obj.inj e)
  | .null, .bool _ | .null, .num _ | .null, .str _ | .null, .arr _ | .null, .obj _
  | .bool _, .null | .bool _, .num _ | .bool _, .str _ | .bool _, .arr _ | .bool _, .obj _
  | .num _, .null | .num _, .bool _ | .num _, .str _ | .num _, .arr _ | .num _, .obj _
  | .str _, .null | .str _, .bool _ | .str _, .num _ | .str _, .arr _ | .str _, .obj _
  | .arr _, .null | .arr _, .bool _ | .arr _, .num _ | .arr _, .str _ | .arr _, .obj _
  | .obj _, .null | .obj _, .bool _ | .obj _, .num _ | .obj _, .str _ | .obj _, .arr _ =>
    isFalse nofun

/-- Equality of two arrays. -/
def decEqItems : (a b : List Json) → Decidable (a = b)
  | [], [] => isTrue rfl
  | [], _ :: _ => isFalse nofun
  | _ :: _, [] => isFalse nofun
  | x :: xs, y :: ys =>
    match decEq x y, decEqItems xs ys with
    | isTrue h, isTrue t => isTrue (h ▸ t ▸ rfl)
    | isFalse h, _ => isFalse fun e => h (List.cons.inj e).1
    | _, isFalse t => isFalse fun e => t (List.cons.inj e).2

/-- Equality of the fields of two objects. -/
def decEqFields : (a b : List (String × Json)) → Decidable (a = b)
  | [], [] => isTrue rfl
  | [], _ :: _ => isFalse nofun
  | _ :: _, [] => isFalse nofun
  | (k, x) :: xs, (l, y) :: ys =>
    match (inferInstance : Decidable (k = l)), decEq x y, decEqFields xs ys with
    | isTrue k, isTrue h, isTrue t => isTrue (k ▸ h ▸ t ▸ rfl)
    | isFalse k, _, _ => isFalse fun e => k (Prod.mk.inj (List.cons.inj e).1).1
    | _, isFalse h, _ => isFalse fun e => h (Prod.mk.inj (List.cons.inj e).1).2
    | _, _, isFalse t => isFalse fun e => t (List.cons.inj e).2

end

instance : DecidableEq Json := decEq

/-! ## Views -/

/-- The text of a string. -/
def string? : Json → Option String
  | .str s => some s
  | _ => none

/-- The truth value of a boolean. -/
def bool? : Json → Option Bool
  | .bool b => some b
  | _ => none

/-- The fields of an object. -/
def record? : Json → Option Record
  | .obj fields => some fields
  | _ => none

/-- The items of an array. -/
def items? : Json → Option (List Json)
  | .arr items => some items
  | _ => none

/-- The value of an unsigned integer. -/
def nat? : Json → Option Nat
  | .num (.int (.ofNat n)) => some n
  | _ => none

/-- The value is `null`. -/
def isNull : Json → Bool
  | .null => true
  | _ => false

/-- The field of an object; nothing in any other value. -/
def field? (v : Json) (key : String) : Option Json :=
  v.record?.bind fun fields => Table.get? fields key

/-- A natural number as a value. -/
def ofNat (n : Nat) : Json := .num (.int n)

/-- A list of strings as an array. -/
def ofStrings (items : List String) : Json := .arr (items.map .str)

/-! ## Measure and order -/

mutual

/-- How deeply arrays and objects are nested. -/
def height : Json → Nat
  | .arr items => heightItems items + 1
  | .obj fields => heightFields fields + 1
  | _ => 0

/-- The greatest height of the items. -/
def heightItems : List Json → Nat
  | [] => 0
  | v :: rest => max v.height (heightItems rest)

/-- The greatest height of the fields. -/
def heightFields : List (String × Json) → Nat
  | [] => 0
  | (_, v) :: rest => max v.height (heightFields rest)

end

mutual

/-- **Every object in the value is ordered.** -/
def WellFormed : Json → Prop
  | .arr items => WellFormedItems items
  | .obj fields => Table.Ordered fields ∧ WellFormedFields fields
  | _ => True

/-- Every item is well formed. -/
def WellFormedItems : List Json → Prop
  | [] => True
  | v :: rest => v.WellFormed ∧ WellFormedItems rest

/-- Every field is well formed. -/
def WellFormedFields : List (String × Json) → Prop
  | [] => True
  | (_, v) :: rest => v.WellFormed ∧ WellFormedFields rest

end

mutual

/-- **The well-formed value with the same content**: every object becomes a table. -/
def ordered : Json → Json
  | .arr items => .arr (orderedItems items)
  | .obj fields => .obj (Table.ofList (orderedFields fields))
  | v => v

/-- Orders each item. -/
def orderedItems : List Json → List Json
  | [] => []
  | v :: rest => v.ordered :: orderedItems rest

/-- Orders each field's value. -/
def orderedFields : List (String × Json) → List (String × Json)
  | [] => []
  | (k, v) :: rest => (k, v.ordered) :: orderedFields rest

end

end Json

end UserDirectory
