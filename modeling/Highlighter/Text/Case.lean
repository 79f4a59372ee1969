import Highlighter.Text.CaseTable
import Highlighter.Text.Property

/-! Letter case: lower-casing of texts, and the folding that a search without regard to
case compares characters by. -/

namespace Highlighter.Text

/-- The lower case of one character by itself. Only the dotted capital I has one of two
characters. -/
def lowerChar (c : Char) : List Char :=
  if isAscii c then [c.toLower]
  else if c.toNat = 0x130 then ['i', Char.ofNat 0x307]
  else match lowercaseRuns.findSome? (·.imageOf? c.toNat) with
    | some code => [Char.ofNat code]
    | none => [c]

/-- The first character that is not case-ignorable has case. -/
def casedAhead (cs : List Char) : Bool :=
  match cs.dropWhile isCaseIgnorable with
  | c :: _ => isCased c
  | [] => false

/-- Lower-cases `rest`, which follows `before`, nearest first. A capital sigma becomes the final
form where a cased character precedes it and none follows, case-ignorable ones not counted. -/
def lowerAfter (before : List Char) : List Char → List Char
  | [] => []
  | c :: rest =>
    let here :=
      if c = 'Σ' then [if casedAhead before && !casedAhead rest then 'ς' else 'σ']
      else lowerChar c
    here ++ lowerAfter (c :: before) rest

/-- The lower case of a text. -/
def lowercase (s : String) : String := String.ofList (lowerAfter [] s.toList)

/-- The case folding of a character: one to three characters, equal for two characters exactly when
they differ in case alone. -/
def foldCase (c : Char) : List Char :=
  match foldRuns.findSome? (·.imageOf? c.toNat) with
  | some code => [Char.ofNat code]
  | none =>
    match longFolds.find? (·.1 == c.toNat) with
    | some entry => entry.2.map Char.ofNat
    | none => [c]

/-- The characters with a given folding. -/
def unfoldCase : List Char → List Char
  | [k] =>
    (if foldCase k = [k] then [k] else []) ++
      (foldRuns.filterMap (·.sourceOf? k.toNat)).map Char.ofNat
  | key =>
    (longFolds.filter fun entry => entry.2.map Char.ofNat == key).map fun entry =>
      Char.ofNat entry.1

/-- The other characters that differ from `c` in case alone. -/
def caseVariants (c : Char) : List Char := (unfoldCase (foldCase c)).filter (· != c)

/-- The characters whose folding has several characters, each with its folding. -/
def expandingFolds : List (Char × List Char) :=
  longFolds.map fun entry => (Char.ofNat entry.1, entry.2.map Char.ofNat)

end Highlighter.Text
