import Highlighter.Text.Split

/-! How letters are drawn. -/

namespace Highlighter

open Text

/-- How letters are drawn. -/
structure FontStyle where
  bold : Bool := false
  underline : Bool := false
  italic : Bool := false
  deriving DecidableEq, Repr, Inhabited

namespace FontStyle

def plain : FontStyle := {}

def isPlain (f : FontStyle) : Bool := f == plain

/-- Adds what a word asks for. Other words are passed over. -/
def addWord (f : FontStyle) (word : List Char) : FontStyle :=
  if word = "bold".toList then { f with bold := true }
  else if word = "italic".toList then { f with italic := true }
  else if word = "underline".toList then { f with underline := true }
  else f

/-- What the words of a text ask for. -/
def ofText (s : String) : FontStyle := (words s.toList).foldl addWord plain

/-- The style as a number, with a bit for each property. -/
def bits (f : FontStyle) : Nat := f.bold.toNat + 2 * f.underline.toNat + 4 * f.italic.toNat

/-- What is chosen of three items for bold, italic and underlined letters. -/
def choose {α : Type} (f : FontStyle) (bold italic underline : α) : List α :=
  [(f.bold, bold), (f.italic, italic), (f.underline, underline)].filterMap fun (on, item) =>
    if on then some item else none

def cssProperties (f : FontStyle) : List String :=
  f.choose "font-weight: bold;" "font-style: italic;" "text-decoration: underline;"

def terminalCodes (f : FontStyle) : List Nat := f.choose 1 3 4

end FontStyle

end Highlighter
