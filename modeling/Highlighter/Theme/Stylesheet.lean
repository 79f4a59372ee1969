import Highlighter.Render.Html
import Highlighter.Theme.Basic

/-! Style sheets for highlighted code in HTML. -/

namespace Highlighter

/-- What holds of some elements in a style sheet. -/
structure StyleBlock where
  selector : String
  /-- Properties, each with the semicolon after it. -/
  properties : List String
  deriving DecidableEq, Repr

/-- A block as it is written: a line for each property. -/
def StyleBlock.write (b : StyleBlock) : String :=
  b.selector ++ " \x7b\n" ++ String.join (b.properties.map fun p => "  " ++ p ++ "\n") ++ "\x7d\n"

/-- The elements of a style class. -/
def classSelector (styleClass : String) : String := "." ++ styleClass

/-- How lines and line numbers are laid out in any theme. -/
def layoutBlocks : List StyleBlock :=
  [⟨classSelector lineClass, ["display: block;"]⟩,
   ⟨classSelector numberClass,
    ["display: inline-block;", "user-select: none;", "white-space: pre;", "margin-right: 0.4em;",
     "padding: 0.4em;", "min-width: 3ch;", "text-align: right;", "opacity: 0.8;"]⟩]

/-- The style sheet that highlighted code needs in any theme. -/
def layoutStylesheet : String := String.join (layoutBlocks.map (·.write))

namespace Color

def foregroundProperty (c : Color) : String := "color: " ++ c.toHex ++ ";"

def backgroundProperty (c : Color) : String := "background-color: " ++ c.toHex ++ ";"

end Color

/-- What a rule sets, as properties. -/
def StyleRule.properties (rule : StyleRule) : List String :=
  (rule.foreground.map (·.foregroundProperty)).toList ++
    ((rule.font.map (·.cssProperties)).getD [])

namespace Theme

/-- The block of a category, unless nothing is set for it. -/
def ruleBlock? (classPrefix : String) (entry : Category × StyleRule) : Option StyleBlock :=
  match entry.2.properties with
  | [] => none
  | properties => some ⟨classSelector (entry.1.cssClass classPrefix), properties⟩

def blocks (t : Theme) (classPrefix : String) : List StyleBlock :=
  ⟨"pre" ++ classSelector blockClass,
    [t.plain.foreground.foregroundProperty, t.background.backgroundProperty]⟩ ::
  ((t.highlightBackground.map fun c =>
      ⟨classSelector highlightClass, [c.backgroundProperty]⟩).toList ++
    (t.lineNumberForeground.map fun c =>
      ⟨classSelector numberClass, [c.foregroundProperty]⟩).toList ++
    t.rules.filterMap (ruleBlock? classPrefix))

def stylesheet (t : Theme) (classPrefix : String) : String :=
  String.join ((t.blocks classPrefix).map (·.write))

end Theme

end Highlighter
