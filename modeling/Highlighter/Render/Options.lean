/-! How highlighted code is shown, whatever it is shown on: which lines have numbers, which stand
out, and which are left out. -/

namespace Highlighter

/-- Lines from one number to another, both included. Nothing lies in a range that ends before it
starts. -/
structure LineRange where
  first : Nat
  last : Nat
  deriving DecidableEq, Repr, Inhabited

def LineRange.has (r : LineRange) (line : Nat) : Bool := r.first ≤ line && line ≤ r.last

/-- The greatest line number that is shown; all lines from there on have it. -/
def greatestLineNumber : Int := 9223372036854775807

/-- How highlighted code is shown. Ranges count the lines of the text from one. -/
structure RenderOptions where
  lineNumbers : Bool := false
  /-- The number that the first line has. -/
  firstNumber : Int := 1
  highlighted : List LineRange := []
  hidden : List LineRange := []
  deriving DecidableEq, Repr, Inhabited

namespace RenderOptions

def isHidden (o : RenderOptions) (line : Nat) : Bool := o.hidden.any (·.has line)

def isHighlighted (o : RenderOptions) (line : Nat) : Bool := o.highlighted.any (·.has line)

/-- The number shown for a line, which is counted from zero here. -/
def lineNumber (o : RenderOptions) (index : Nat) : Int :=
  min (o.firstNumber + index) greatestLineNumber

/-- The room that line numbers take when there are `count` lines. The number of the first line or
that of the last one is the longest. -/
def lineNumberWidth (o : RenderOptions) (count : Nat) : Nat :=
  max (toString o.firstNumber).length (toString (o.lineNumber (count - 1))).length

end RenderOptions

end Highlighter
