import Highlighter.Code
import Highlighter.Dict
import Highlighter.Markup
import Highlighter.Render.Options
import Highlighter.Text.Case

/-! Highlighted code as HTML. Nothing is styled in place: categories become classes, which a
style sheet gives a look. -/

namespace Highlighter

open Text

def blockClass : String := "cohl"

def lineClass : String := "cohl-l"

def highlightClass : String := "cohl-hl"

def numberClass : String := "cohl-ln"

/-- What highlighted code is written with, besides the code itself. -/
structure HtmlRenderer where
  metadata : Dict String := .empty
  classPrefix : String := defaultClassPrefix

/-- A piece of a line within one element for each of its categories. -/
def Piece.toMarkup (classPrefix : String) (p : Piece) : Markup :=
  p.categories.foldr (fun c inner => .span (c.cssClass classPrefix) [inner]) (.text p.text)

/-- A piece of a line on its own. -/
def Piece.toHtml (classPrefix : String) (p : Piece) : String := (p.toMarkup classPrefix).render

namespace HtmlRenderer

/-- The name of a data attribute: the key in lower case, with a hyphen for each character that is
neither alphanumeric nor a hyphen. -/
def attributeName (key : String) : String :=
  "data-" ++ String.ofList ((lowercase key).toList.map fun c =>
    if isAlphanumeric c || c == '-' then c else '-')

def attributes (h : HtmlRenderer) (language : String) : List Attribute :=
  [⟨"class", "language-" ++ escapeText language⟩, ⟨"data-lang", escapeText language⟩] ++
    h.metadata.entries.map fun entry => ⟨attributeName entry.1, escapeText entry.2⟩

/-- A line, which is counted from zero here. -/
def line (h : HtmlRenderer) (o : RenderOptions) (index : Nat) (pieces : Line) : Markup :=
  let number : List Markup :=
    if o.lineNumbers then [.span numberClass [.text (toString (o.lineNumber index))]] else []
  let styleClass :=
    if o.isHighlighted (index + 1) then lineClass ++ " " ++ highlightClass else lineClass
  .span styleClass (number ++ pieces.map (·.toMarkup h.classPrefix))

def lines (h : HtmlRenderer) (o : RenderOptions) (lines : List Line) : List Markup :=
  lines.zipIdx.filterMap fun (pieces, index) =>
    if o.isHidden (index + 1) then none else some (h.line o index pieces)

def toMarkup (h : HtmlRenderer) (code : Code) (o : RenderOptions) : Markup :=
  .element "pre" [⟨"class", blockClass⟩]
    [.element "code" (h.attributes code.language) (h.lines o code.lines)]

/-- Highlighted code as HTML. Lines are not separated: as blocks, each starts on a line of its
own. -/
def render (h : HtmlRenderer) (code : Code) (o : RenderOptions) : String :=
  (h.toMarkup code o).render

end HtmlRenderer

end Highlighter
