/-! Tables of code points, held as ranges and runs, and the look-ups in them. -/

namespace Highlighter.Text

/-- Closed ranges of code points. -/
abbrev RangeTable := List (Nat × Nat)

/-- Some range of the table holds the character. -/
def RangeTable.has (table : RangeTable) (c : Char) : Bool :=
  table.any fun r => r.1 ≤ c.toNat && c.toNat ≤ r.2

/-- A run of code points `step` apart, and the image of its first; the images lie as far
apart as the code points. -/
structure CaseRun where
  first : Nat
  last : Nat
  step : Nat
  image : Nat

namespace CaseRun

/-- The image of a code point of the run. -/
def imageOf? (run : CaseRun) (code : Nat) : Option Nat :=
  if run.first ≤ code ∧ code ≤ run.last ∧ (code - run.first) % run.step = 0 then
    some (run.image + (code - run.first))
  else none

/-- The code point of the run with a given image. -/
def sourceOf? (run : CaseRun) (image : Nat) : Option Nat :=
  if run.image ≤ image then
    let code := run.first + (image - run.image)
    if code ≤ run.last ∧ (image - run.image) % run.step = 0 then some code else none
  else none

end CaseRun

end Highlighter.Text
