import Highlighter.Registry
import Highlighter.Render.Html
import Highlighter.Text.Numeral

/-! Fenced code blocks: what the info string after a fence says of the language of the block and
of how it is to be shown. -/

namespace Highlighter

open Text

/-- What an info string says. -/
structure Fence where
  language : String := ""
  options : RenderOptions := {}
  /-- All other settings, by their names. -/
  rest : Dict String := .empty

namespace Fence

/-- Line numbers and ends of ranges are below this bound. -/
def lineBound : Nat := UInt64.size

/-- The first line number is at least minus this bound and below it. -/
def startBound : Nat := 9223372036854775808

def lineNumber? (cs : List Char) : Option Nat := unsigned? lineBound (String.ofList cs)

/-- Reads a line or a range of lines, whose ends may be in either order. -/
def range? (cs : List Char) : Option LineRange :=
  match cutAt? '-' cs with
  | some (left, right) => do
    let a ← lineNumber? left
    let b ← lineNumber? right
    return ⟨min a b, max a b⟩
  | none => (lineNumber? cs).map fun n => ⟨n, n⟩

/-- Reads ranges between white space. What is no range is passed over. -/
def ranges (cs : List Char) : List LineRange := (words cs).filterMap range?

def numbersKey : String := "linenos"

def startKey : String := "linenostart"

def highlightKey : String := "hl_lines"

def hideKey : String := "hide_lines"

def set (f : Fence) (key : String) (value : List Char) : Fence :=
  if key = numbersKey then { f with options.lineNumbers := true }
  else if key = startKey then
    match signed? startBound (String.ofList value) with
    | some n => { f with options.firstNumber := n }
    | none => f
  else if key = highlightKey then
    { f with options.highlighted := f.options.highlighted ++ ranges value }
  else if key = hideKey then { f with options.hidden := f.options.hidden ++ ranges value }
  else { f with rest := f.rest.insert key (String.ofList value) }

/-- Takes in a word of its own: the language, unless it turns line numbers on. -/
def addWord (f : Fence) (word : String) : Fence :=
  if word = numbersKey then { f with options.lineNumbers := true } else { f with language := word }

/-- Takes in a part of an info string. -/
def addPart (f : Fence) (part : List Char) : Fence :=
  let part := trim part
  if part = [] then f
  else match cutAt? '=' part with
    | some (key, value) => f.set (String.ofList (trim key)) (trim value)
    | none => f.addWord (String.ofList part)

/-- Reads an info string, the parts of which lie between commas. -/
def ofInfo (info : String) : Fence := (splitOn ',' info.toList).foldl addPart {}

end Fence

/-- Highlights a fenced block as HTML. A block without a language, or in an unknown one, is plain
text. -/
def Registry.renderFence (r : Registry) (info content : String) : Except Error String := do
  let fence := Fence.ofInfo info
  let language := if fence.language = "" then plainTag else fence.language
  let code ← r.highlight content { language, plainFallback := true }
  return { metadata := fence.rest : HtmlRenderer }.render code fence.options

end Highlighter
