/-! Marked-up text: elements with attributes around text, as it is written in HTML. -/

namespace Highlighter

/-- A character as it is written within text and within the value of an attribute. -/
def escapeChar (c : Char) : List Char :=
  match c with
  | '>' => "&gt;".toList
  | '<' => "&lt;".toList
  | '&' => "&amp;".toList
  | '\'' => "&#39;".toList
  | '"' => "&quot;".toList
  | c => [c]

def escapeText (s : String) : String := String.ofList (s.toList.flatMap escapeChar)

/-- An attribute of an element. Its value is written as it is, so it has to be escaped
where it may hold anything. -/
structure Attribute where
  name : String
  value : String
  deriving DecidableEq, Repr

/-- Marked-up text. -/
inductive Markup
  /-- Plain text, which is escaped when it is written. -/
  | text (s : String)
  | element (name : String) (attributes : List Attribute) (children : List Markup)
  deriving Repr

namespace Markup

/-- A generic element within a line, of a style class. -/
def span (styleClass : String) (children : List Markup) : Markup :=
  element "span" [⟨"class", styleClass⟩] children

end Markup

/-- A part of marked-up text as it is written. -/
inductive MarkupToken
  | opening (name : String) (attributes : List Attribute)
  | closing (name : String)
  | text (s : String)
  deriving DecidableEq, Repr

/-- An attribute as it is written, with a blank before it. -/
def Attribute.write (a : Attribute) : String := " " ++ a.name ++ "=\"" ++ a.value ++ "\""

def MarkupToken.write : MarkupToken → String
  | opening name attributes => "<" ++ name ++ String.join (attributes.map (·.write)) ++ ">"
  | closing name => "</" ++ name ++ ">"
  | text s => escapeText s

namespace Markup

mutual

/-- The tags of marked-up text and the text between them. -/
def tokens : Markup → List MarkupToken
  | text s => [.text s]
  | element name attributes children =>
    .opening name attributes :: tokensOfAll children ++ [.closing name]

def tokensOfAll : List Markup → List MarkupToken
  | [] => []
  | m :: ms => tokens m ++ tokensOfAll ms

end

def render (m : Markup) : String := String.join (m.tokens.map (·.write))

end Markup

end Highlighter
