import Highlighter.Code
import Highlighter.Render.Options
import Highlighter.Theme.Basic

/-! Highlighted code for terminals that show any colour. -/

namespace Highlighter

/-- A part of what is sent to a terminal. -/
inductive TerminalToken
  /-- Sets the look of what follows; zero resets it. -/
  | look (codes : List Nat)
  | text (s : String)
  deriving DecidableEq, Repr

namespace TerminalToken

def write : TerminalToken → String
  | look codes => "\x1b[" ++ ";".intercalate (codes.map toString) ++ "m"
  | text s => s

/-- Back to the look of the terminal. -/
def reset : TerminalToken := look [0]

end TerminalToken

namespace Color

/-- The codes that set the colour of text. -/
def foregroundCodes (c : Color) : List Nat := [38, 2, c.red.toNat, c.green.toNat, c.blue.toNat]

/-- The codes that set the colour behind text. -/
def backgroundCodes (c : Color) : List Nat := [48, 2, c.red.toNat, c.green.toNat, c.blue.toNat]

end Color

/-- A piece of a line in a theme, on a background of its own if one is given. -/
def Piece.terminalTokens (t : Theme) (background : Option Color) (p : Piece) : List TerminalToken :=
  let style := t.styleFor p.categories
  [.look (style.foreground.foregroundCodes ++ ((background.map (·.backgroundCodes)).getD []) ++
     style.font.terminalCodes),
   .text p.text, .reset]

def Piece.toTerminal (t : Theme) (background : Option Color) (p : Piece) : String :=
  String.join ((p.terminalTokens t background).map (·.write))

namespace Theme

/-- A line number with blanks before it, `width` wide. -/
def numberTokens (t : Theme) (width : Nat) (number : Int) : List TerminalToken :=
  let digits := toString number
  let padded := String.ofList (List.replicate (width - digits.length) ' ') ++ digits
  let cell : TerminalToken := .text ("  " ++ padded ++ " ")
  match t.lineNumberForeground with
  | some color => [.look color.foregroundCodes, cell, .reset]
  | none => [cell]

/-- A line, which is counted from zero here. -/
def lineTokens (t : Theme) (o : RenderOptions) (width index : Nat) (pieces : Line) :
    List TerminalToken :=
  let background := if o.isHighlighted (index + 1) then t.highlightBackground else none
  (if o.lineNumbers then t.numberTokens width (o.lineNumber index) else []) ++
    pieces.flatMap (·.terminalTokens t background)

/-- A line is the empty end of a text that does not end in the middle of a line. -/
def isFinalNewline (count index : Nat) (pieces : Line) : Bool :=
  index + 1 == count && pieces.isEmpty && count > 1

def terminalLines (t : Theme) (code : Code) (o : RenderOptions) : List (List TerminalToken) :=
  let count := code.lines.length
  let width := o.lineNumberWidth count
  code.lines.zipIdx.filterMap fun (pieces, index) =>
    if isFinalNewline count index pieces || o.isHidden (index + 1) then none
    else some (t.lineTokens o width index pieces)

def renderTerminal (t : Theme) (code : Code) (o : RenderOptions) : String :=
  "\n".intercalate ((t.terminalLines code o).map fun line => String.join (line.map (·.write)))

end Theme

end Highlighter
