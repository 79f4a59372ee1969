import Highlighter.Category
import Highlighter.Theme.Color
import Highlighter.Theme.FontStyle

/-! Themes: the look of each category. -/

namespace Highlighter

/-- The look of a text. -/
structure Style where
  foreground : Color
  font : FontStyle
  deriving DecidableEq, Repr

/-- What a theme sets for a category. What it does not set is as in the category around
it, or as in plain text. -/
structure StyleRule where
  foreground : Option Color := none
  font : Option FontStyle := none
  deriving DecidableEq, Repr, Inhabited

/-- The look of a text that looks like `base` but for what the rule sets. -/
def StyleRule.applyTo (rule : StyleRule) (base : Style) : Style :=
  ⟨rule.foreground.getD base.foreground, rule.font.getD base.font⟩

structure Theme where
  name : String
  /-- The look of text without categories. -/
  plain : Style
  background : Color
  highlightBackground : Option Color
  lineNumberForeground : Option Color
  /-- What is set for categories, in their fixed order. -/
  rules : List (Category × StyleRule)
  deriving DecidableEq, Repr

namespace Theme

/-- The look of text within some categories, the outermost first. -/
def styleFor (t : Theme) (categories : List Category) : Style :=
  (categories.filterMap fun c => t.rules.lookup c).foldl
    (fun style rule => rule.applyTo style) t.plain

/-- The theme that is used where none is given. -/
def light : Theme where
  name := "cohl-light"
  plain := ⟨.rgb 0x24 0x29 0x2E, .plain⟩
  background := .white
  highlightBackground := some (.rgb 0xFF 0xFB 0xDD)
  lineNumberForeground := some (.rgb 0x95 0x9D 0xA5)
  rules :=
    [(.keyword, { foreground := some (.rgb 0xD7 0x3A 0x49) }),
     (.literal, { foreground := some (.rgb 0x00 0x5C 0xC5) }),
     (.builtIn, { foreground := some (.rgb 0xE3 0x62 0x09) }),
     (.type, { foreground := some (.rgb 0x6F 0x42 0xC1) }),
     (.string, { foreground := some (.rgb 0x03 0x2F 0x62) }),
     (.number, { foreground := some (.rgb 0x00 0x5C 0xC5) }),
     (.comment, { foreground := some (.rgb 0x6A 0x73 0x7D), font := some { italic := true } }),
     (.doctag, { foreground := some (.rgb 0xD7 0x3A 0x49), font := some { bold := true } }),
     (.title, { foreground := some (.rgb 0x6F 0x42 0xC1) }),
     (.errormsg, { foreground := some (.rgb 0xB3 0x1D 0x28), font := some { bold := true } }),
     (.metadata, { foreground := some (.rgb 0x73 0x5C 0x0F) })]

end Theme

end Highlighter
