import Highlighter.Grammar.Document
import Highlighter.Theme.Basic

/-! Themes as JSON documents, in which colours are still texts. -/

namespace Highlighter

open Json

/-- What a document sets for a category. -/
structure StyleDocument where
  foreground : Option String := none
  fontStyle : Option String := none
  deriving DecidableEq, Repr, Inhabited

/-- A theme as it is written. -/
structure ThemeDocument where
  name : String
  foreground : String
  background : String
  highlightBackground : Option String
  lineNumberForeground : Option String
  /-- What is set for categories, in their fixed order. -/
  styles : List (Category × StyleDocument)
  deriving DecidableEq, Repr

namespace StyleDocument

/-- The fields of a style, in the order in which an array lists them. -/
def fieldNames : List String := ["foreground", "fontStyle"]

def toJson (s : StyleDocument) : Json :=
  .present [("foreground", s.foreground.map .string), ("fontStyle", s.fontStyle.map .string)]

def ofJson? (room : Nat) (j : Json) : Option StyleDocument := enter room fun _ => do
  let f ← fields? fieldNames 0 j
  return { foreground := ← optional string? (f.get 0),
           fontStyle := ← optional string? (f.get 1) }

/-- The rule that a style comes to. -/
def compile (s : StyleDocument) : Except Error StyleRule := do
  return { foreground := ← s.foreground.mapM Color.ofHex,
           font := s.fontStyle.map FontStyle.ofText }

end StyleDocument

namespace ThemeDocument

/-- The fields of a theme, in the order in which an array lists them. -/
def fieldNames : List String :=
  ["name", "foreground", "background", "highlightBackground", "lineNumberForeground", "styles"]

/-- How many fields a theme must have. -/
def requiredFields : Nat := 3

def toJson (t : ThemeDocument) : Json :=
  .present [("name", some (.string t.name)), ("foreground", some (.string t.foreground)),
    ("background", some (.string t.background)),
    ("highlightBackground", t.highlightBackground.map .string),
    ("lineNumberForeground", t.lineNumberForeground.map .string),
    ("styles", some (.object (t.styles.map fun entry => (entry.1.name, entry.2.toJson))))]

/-- The styles of a document in the order of their categories. The last one of a category counts. -/
def arrange (styles : List (Category × StyleDocument)) : List (Category × StyleDocument) :=
  Category.all.filterMap fun c => (styles.reverse.lookup c).map (c, ·)

/-- Reads the styles of categories, in a structure with room for `room` more arrays and objects. -/
def styles? (room : Nat) (j : Json) : Option (List (Category × StyleDocument)) := do
  let entries ← entries? room (StyleDocument.ofJson? (room - 1)) j
  let styles ← entries.mapM fun entry => (Category.ofName? entry.1).map (·, entry.2)
  return arrange styles

def ofJson? (j : Json) : Option ThemeDocument := enter nestingLimit fun room => do
  let f ← fields? fieldNames requiredFields j
  return { name := ← required string? (f.get 0)
           foreground := ← required string? (f.get 1)
           background := ← required string? (f.get 2)
           highlightBackground := ← optional string? (f.get 3)
           lineNumberForeground := ← optional string? (f.get 4)
           styles := ← orElse (styles? room) [] (f.get 5) }

def ofText (text : String) : Except Error ThemeDocument :=
  match (Json.parse? text).bind ofJson? with
  | some t => .ok t
  | none => .error .malformed

/-- The theme that a document describes. The first broken colour is reported, of which those
of categories come first. -/
def compile (t : ThemeDocument) : Except Error Theme := do
  let rules ← t.styles.mapM fun entry => do return (entry.1, ← entry.2.compile)
  let foreground ← Color.ofHex t.foreground
  let background ← Color.ofHex t.background
  let highlightBackground ← t.highlightBackground.mapM Color.ofHex
  let lineNumberForeground ← t.lineNumberForeground.mapM Color.ofHex
  return { name := t.name, plain := ⟨foreground, .plain⟩, background, highlightBackground,
           lineNumberForeground, rules }

end ThemeDocument

/-- The theme that a text is a document of, with its colours read. -/
def Theme.ofText (text : String) : Except Error Theme := do (← ThemeDocument.ofText text).compile

end Highlighter
