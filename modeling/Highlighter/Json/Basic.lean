/-! The values of JSON documents. -/

namespace Highlighter

/-- A JSON value. The members of an object keep their order, and a key may occur more than once. -/
inductive Json
  | null
  | bool (b : Bool)
  /-- A number written without fraction and exponent. -/
  | integer (n : Int)
  /-- Any other number: its sign, its digits as a whole number, and the power of ten they are scaled
  by. -/
  | decimal (negative : Bool) (digits : Nat) (exponent : Int)
  | string (s : String)
  | array (items : List Json)
  | object (members : List (String × Json))
  /-- A string with half of a surrogate pair, or an object with such a key. It may
  stand where nothing is read. -/
  | unreadable
  deriving Inhabited, BEq, Repr

namespace Json

def nat (n : Nat) : Json := .integer n

def strings (items : List String) : Json := .array (items.map .string)

/-- An object without the members that are absent. -/
def present (members : List (String × Option Json)) : Json :=
  .object (members.filterMap fun m => m.2.map (m.1, ·))

def string? : Json → Option String
  | .string s => some s
  | _ => none

def bool? : Json → Option Bool
  | .bool b => some b
  | _ => none

def natBelow? (bound : Nat) : Json → Option Nat
  | .integer n => if 0 ≤ n ∧ n < bound then some n.toNat else none
  | _ => none

def items? : Json → Option (List Json)
  | .array items => some items
  | _ => none

def strings? (j : Json) : Option (List String) := j.items?.bind (·.mapM string?)

end Json

end Highlighter
