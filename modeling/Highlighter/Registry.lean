import Highlighter.Code
import Highlighter.Grammar.Compile
import Highlighter.Scan.Tokenizer
import Highlighter.Text.Case

/-! The languages that texts can be highlighted in, by their tags and aliases. Tags and aliases are
compared in lower case. -/

namespace Highlighter

open Text

/-- Languages that are available everywhere, by their tags. -/
abbrev Globals := Dict Machine

/-- Compiles a grammar and makes it available under a tag; the last one under a tag holds. -/
def Globals.register (globals : Globals) (tag : String) (g : Grammar) : Except Error Globals := do
  return Dict.insert globals (lowercase tag) (← g.compile)

def Globals.find? (globals : Globals) (tag : String) : Option Machine :=
  globals.get? (lowercase tag)

/-- The tag of plain text, and the name of its grammar. -/
def plainTag : String := "plain"

/-- Languages and how they are found. Tags and aliases lead to places among the machines. -/
structure Registry where
  machines : Array Machine := #[]
  tags : Dict Nat := .empty
  /-- An alias that is also a tag is passed over. -/
  aliases : Dict Nat := .empty
  /-- The tags in the order in which they have been registered first. -/
  languages : List String := []

/-- How a text is to be highlighted. -/
structure Request where
  language : String
  /-- Neighbouring pieces of a line with the same categories are one. -/
  merge : Bool := true
  /-- A text in an unknown language is plain text. -/
  plainFallback : Bool := false

namespace Registry

def empty : Registry := {}

/-- The place of the machine that a tag or alias leads to. -/
def place? (r : Registry) (name : String) : Option Nat :=
  let name := lowercase name
  (r.tags.get? name).or (r.aliases.get? name)

def find? (r : Registry) (name : String) : Option Machine := (r.place? name).bind (r.machines[·]?)

def contains (r : Registry) (name : String) : Bool := (r.place? name).isSome

/-- Adds an alias of what a name leads to, if that is known. -/
def addAlias (r : Registry) (name newAlias : String) : Registry :=
  match r.place? name with
  | some place => { r with aliases := r.aliases.insert (lowercase newAlias) place }
  | none => r

/-- Adds a machine under a tag, in place of the one that the tag itself led to, and its aliases. -/
def addMachine (r : Registry) (tag : String) (m : Machine) : Registry :=
  let tag := lowercase tag
  let languages := if r.languages.contains tag then r.languages else r.languages ++ [tag]
  let r := match r.tags.get? tag with
    | some place => { r with machines := r.machines.setIfInBounds place m, languages }
    | none =>
      let place := r.machines.size
      { r with machines := r.machines.push m, tags := r.tags.insert tag place, languages }
  -- An alias leads to the place of the tag, and so to whatever takes that place later.
  m.aliases.foldl (fun r newAlias => r.addAlias tag newAlias) r

def register (r : Registry) (tag : String) (g : Grammar) : Except Error Registry := do
  return r.addMachine tag (← g.compile)

/-- Adds the languages that are available everywhere, in the order of their tags. -/
def addGlobals (r : Registry) (globals : Globals) : Registry :=
  globals.entries.foldl (fun r entry => r.addMachine entry.1 entry.2) r

/-- Adds the grammar of plain text, which finds nothing, with some aliases. -/
def addPlain (r : Registry) (aliases : List String) : Except Error Registry := do
  let r ← r.register plainTag { name := plainTag }
  return aliases.foldl (fun r newAlias => r.addAlias plainTag newAlias) r

/-- Highlights a text by a machine. A text that is not in the language is shown as plain text. -/
def highlightBy (m : Machine) (language : String) (text : List Char) (merge : Bool) :
    Except Error Code :=
  match m.tokenize (String.ofList text) with
  | .ok found => .ok (.ofTokens language text found false merge)
  | .error (.illegal _ _) => .ok (.ofTokens language text (plainTokens text) true merge)
  | .error e => .error (.tokenize e)

def highlight (r : Registry) (content : String) (request : Request) : Except Error Code :=
  let requested := lowercase request.language
  let text := unifyNewlines content.toList
  match r.find? requested with
  | some m => highlightBy m requested text request.merge
  | none =>
    if request.plainFallback then
      match r.find? plainTag with
      | some m => highlightBy m plainTag text request.merge
      | none => .ok (.ofTokens plainTag text (plainTokens text) false request.merge)
    else .error (.unknownLanguage request.language)

/-- The more relevant of two findings, the first one if they are equally so. -/
def moreRelevant (best : Option (String × Tokens)) (tag : String) (found : Tokens) :
    Option (String × Tokens) :=
  match best with
  | none => some (tag, found)
  | some (_, tokens) => if found.relevance > tokens.relevance then some (tag, found) else best

/-- The most relevant finding in a text among some languages, the earliest of several. Unknown
languages and those that a text is not in are passed over. -/
def mostRelevant (r : Registry) (text : String) (tags : List String) : Option (String × Tokens) :=
  tags.foldl (fun best tag =>
    match r.find? tag with
    | some m =>
      match m.tokenize text with
      | .ok found => moreRelevant best tag found
      | .error _ => best
    | none => best) none

/-- The languages that a text may be in if nothing is said: all but plain text. -/
def candidates (r : Registry) : Option (List String) → List String
  | some tags => tags.map lowercase
  | none => r.languages.filter (· != plainTag)

/-- Highlights a text in the language that it looks like most, of those given or of all. A text that
looks like none is plain text. -/
def highlightAuto (r : Registry) (content : String) (subset : Option (List String)) : Code :=
  let text := unifyNewlines content.toList
  match r.mostRelevant (String.ofList text) (r.candidates subset) with
  | some (tag, found) => .ofTokens tag text found false true
  | none => .ofTokens plainTag text (plainTokens text) false true

end Registry

end Highlighter
