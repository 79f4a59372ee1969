import Highlighter.Error
import Highlighter.Text.Property

/-! Colours, written in hexadecimal digits. -/

namespace Highlighter

open Text

/-- A colour with its opacity. -/
structure Color where
  red : UInt8
  green : UInt8
  blue : UInt8
  alpha : UInt8
  deriving DecidableEq, Repr, Inhabited

namespace Color

def rgb (red green blue : UInt8) : Color := ⟨red, green, blue, 255⟩

def white : Color := rgb 255 255 255

def black : Color := rgb 0 0 0

/-- The value of a hexadecimal digit, in either case. -/
def digitValue (c : Char) : Nat :=
  if isAsciiDigit c then c.toNat - '0'.toNat
  else if 'a' ≤ c then c.toNat - 'a'.toNat + 10
  else c.toNat - 'A'.toNat + 10

/-- The number of one or two hexadecimal digits, of which a plus sign may stand in
place of the first of two. -/
def component? : List Char → Option Nat
  | [d] => if isHexDigit d then some (digitValue d) else none
  | ['+', d] => if isHexDigit d then some (digitValue d) else none
  | [d, e] => if isHexDigit d && isHexDigit e then some (digitValue d * 16 + digitValue e) else none
  | _ => none

/-- A text in groups of two characters. -/
def pairs : List Char → List (List Char)
  | d :: e :: rest => [d, e] :: pairs rest
  | [d] => [[d]]
  | [] => []

def ofComponents? : List Nat → Option Color
  | [r, g, b] => some (rgb (.ofNat r) (.ofNat g) (.ofNat b))
  | [r, g, b, a] => some ⟨.ofNat r, .ofNat g, .ofNat b, .ofNat a⟩
  | _ => none

/-- Reads the components of a colour, each multiplied by `factor`. -/
def readComponents (value : String) (factor : Nat) (groups : List (List Char)) :
    Except Error Color := do
  let components ← groups.mapM fun group =>
    match component? group with
    | some n => .ok (n * factor)
    | none => .error (.invalidColor value ("invalid hex component '" ++ String.ofList group ++ "'"))
  match ofComponents? components with
  | some color => return color
  | none => throw (.invalidColor value ("invalid length " ++ toString groups.length))

/-- Reads a colour: one digit or two for each of three or four components, after any number of hash
signs, or a name. A single digit stands for two of its kind. -/
def ofHex (value : String) : Except Error Color :=
  let digits := value.toList.dropWhile (· == '#')
  if digits = "white".toList then .ok white
  else if digits = "black".toList then .ok black
  else if !digits.all isAscii then .error (.invalidColor value "not ascii")
  -- All characters are of one byte by now, so that this is the length in bytes as well.
  else match digits.length with
    | 3 | 4 => readComponents value 17 (digits.map ([·]))
    | 6 | 8 => readComponents value 1 (pairs digits)
    | n => .error (.invalidColor value ("invalid length " ++ toString n))

def hexDigit (n : Nat) : Char :=
  if n < 10 then Char.ofNat ('0'.toNat + n) else Char.ofNat ('A'.toNat + (n - 10))

def writeComponent (n : UInt8) : List Char := [hexDigit (n.toNat / 16), hexDigit (n.toNat % 16)]

/-- The colour in hexadecimal digits. Opacity is written only where it is not full. -/
def toHex (c : Color) : String :=
  let components := [c.red, c.green, c.blue] ++ if c.alpha < 255 then [c.alpha] else []
  String.ofList ('#' :: components.flatMap writeComponent)

end Color

end Highlighter
