import Highlighter.Text.Property

/-! Numbers written in decimal digits, as they occur in suffixes, in options and in ranges: nothing
but ASCII digits after an optional sign, and no value out of range. -/

namespace Highlighter.Text

/-- The value of a run of decimal digits, continuing from `acc`. -/
def digitsValue (acc : Nat) : List Char → Nat
  | [] => acc
  | c :: cs => digitsValue (acc * 10 + (c.toNat - '0'.toNat)) cs

/-- The value of one or more decimal digits. -/
def natural? (cs : List Char) : Option Nat :=
  if !cs.isEmpty && cs.all isAsciiDigit then some (digitsValue 0 cs) else none

/-- Reads a number below `bound`, with an optional plus sign. -/
def unsigned? (bound : Nat) (s : String) : Option Nat :=
  let digits := match s.toList with
    | '+' :: cs => cs
    | cs => cs
  (natural? digits).filter (· < bound)

/-- Reads a number of at least `-bound` and below `bound`, with an optional sign. -/
def signed? (bound : Nat) (s : String) : Option Int :=
  match s.toList with
  | '-' :: cs => (natural? cs).bind fun n => if n ≤ bound then some (-(n : Int)) else none
  | '+' :: cs => (natural? cs).bind fun n => if n < bound then some (n : Int) else none
  | cs => (natural? cs).bind fun n => if n < bound then some (n : Int) else none

end Highlighter.Text
