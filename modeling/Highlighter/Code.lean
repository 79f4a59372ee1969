import Highlighter.Scan.Tokens
import Highlighter.Text.Cursor
import Highlighter.Text.Split

/-! Highlighted code: what scanning has found, cut into lines. -/

namespace Highlighter

open Text

/-- A part of a line with the categories around it, the outermost first. -/
structure Piece where
  text : String
  categories : List Category
  deriving DecidableEq, Repr, Inhabited

namespace Piece

/-- The innermost category, which decides how the text looks. -/
def category? (p : Piece) : Option Category := p.categories.getLast?

end Piece

abbrev Line := List Piece

/-- A text that has been highlighted. -/
structure Code where
  language : String
  relevance : UInt32
  /-- The text is not in the language, and is shown as plain text instead. -/
  illegal : Bool
  /-- The regions of the text, in which every line ends on a newline alone. -/
  regions : List Region
  lines : List Line
  deriving DecidableEq, Repr, Inhabited

/-- Lines under construction: those that are complete, the last one first, and the pieces of the
line at hand, the last one first. -/
structure LineBuilder where
  complete : List Line
  pieces : List Piece

namespace LineBuilder

def empty : LineBuilder := ⟨[], []⟩

/-- Adds text to the line at hand. If `merge`, it continues the last piece where that has the same
categories. -/
def addText (merge : Bool) (categories : List Category) (text : List Char) (b : LineBuilder) :
    LineBuilder :=
  if text = [] then b
  else
    let piece : Piece := ⟨String.ofList text, categories⟩
    match b.pieces with
    | last :: rest =>
      if merge && last.categories == categories then
        { b with pieces := { last with text := last.text ++ piece.text } :: rest }
      else { b with pieces := piece :: last :: rest }
    | [] => { b with pieces := [piece] }

def newLine (b : LineBuilder) : LineBuilder := ⟨b.pieces.reverse :: b.complete, []⟩

/-- Adds the parts of a token between its newlines. -/
def addParts (merge : Bool) (categories : List Category) :
    List (List Char) → LineBuilder → LineBuilder
  | [], b => b
  | [part], b => b.addText merge categories part
  | part :: parts, b => addParts merge categories parts (b.addText merge categories part).newLine

/-- Adds tokens that lie one after another in a text. -/
def addTokens (merge : Bool) : List Char → List Token → LineBuilder → LineBuilder
  | _, [], b => b
  | text, t :: tokens, b =>
    let (here, rest) := splitAtByte (t.stop - t.start) text
    addTokens merge rest tokens (b.addParts merge t.categories (splitOn '\n' here))

/-- The lines, of which there is always one. -/
def lines (b : LineBuilder) : List Line := b.newLine.complete.reverse

end LineBuilder

/-- A text as a single token without categories; there is none in an empty text. -/
def plainTokens (text : List Char) : Tokens :=
  ⟨[], if text = [] then [] else [⟨0, byteLength text, []⟩], 0⟩

/-- Highlighted code from what scanning has found. If `merge`, neighbouring pieces of a line with
the same categories are one. -/
def Code.ofTokens (language : String) (text : List Char) (found : Tokens)
    (illegal merge : Bool) : Code :=
  { language, relevance := found.relevance, illegal, regions := found.regions
    lines := (LineBuilder.empty.addTokens merge text found.tokens).lines }

end Highlighter
