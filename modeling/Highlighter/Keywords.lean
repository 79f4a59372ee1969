import Highlighter.Category
import Highlighter.Dict
import Highlighter.Regex
import Highlighter.Text.Case
import Highlighter.Text.Numeral
import Highlighter.Text.Split

/-! Keyword tables: the words of a grammar or mode by category, and the index by
which they are looked up. -/

namespace Highlighter

open Text

/-- The words of a grammar or mode. An entry may carry its relevance after a bar, as in `goto|3`. -/
structure Keywords where
  /-- What a candidate for a word looks like, if it is not the default. -/
  pattern : Option String := none
  keyword : List String := []
  literal : List String := []
  builtIn : List String := []
  type : List String := []
  deriving DecidableEq, Repr, Inhabited

/-- A word's category, and how much a hit speaks for the language. -/
structure KeywordData where
  category : Category
  relevance : UInt32
  deriving DecidableEq, Repr

/-- The words of a table, ready to be found in a text and looked up. -/
structure KeywordIndex where
  /-- What a candidate for a word looks like, and whether case is regarded. -/
  regex : Regex
  words : Dict KeywordData
  deriving DecidableEq

/-- What a candidate for a word looks like in a table that does not say it. -/
def defaultKeywordPattern : String := "\\w+"

/-- Words too common in prose to speak for a language. -/
def commonWords : List String :=
  ["of", "and", "for", "in", "not", "or", "if", "then", "parent", "list", "value"]

/-- The words of a text, between white space. -/
def splitWords (s : String) : List String := (words s.toList).map String.ofList

/-- A number below 2³². -/
def readRelevance? (s : String) : Option UInt32 := (unsigned? UInt32.size s).map UInt32.ofNat

/-- The word of an entry and its relevance. What follows the first bar is the relevance if it is a
number; else the whole entry is the word, and counts one unless it is a common word. -/
def splitRelevance (entry : String) : String × UInt32 :=
  let cs := entry.toList
  let suffix? := match cs.dropWhile (· != '|') with
    | _ :: suffix => readRelevance? (String.ofList suffix)
    | [] => none
  match suffix? with
  | some relevance => (String.ofList (cs.takeWhile (· != '|')), relevance)
  | none => (entry, if commonWords.contains (lowercase entry) then 0 else 1)

namespace Keywords

/-- The words of a text, all of them plain keywords. -/
def ofText (s : String) : Keywords := { keyword := splitWords s }

def entries (k : Keywords) : Category → List String
  | .keyword => k.keyword
  | .literal => k.literal
  | .builtIn => k.builtIn
  | .type => k.type
  | _ => []

/-- The categories that a table has words of. A word belongs to the first of them that lists it. -/
def categories : List Category := [.keyword, .literal, .builtIn, .type]

def isEmpty (k : Keywords) : Bool := categories.all fun c => (k.entries c).isEmpty

/-- What a table says of words, in order; more than one entry may be about the same word. -/
def readings (ignoreCase : Bool) (k : Keywords) : List (String × KeywordData) :=
  categories.flatMap fun category => (k.entries category).map fun entry =>
    let (word, relevance) := splitRelevance entry
    (if ignoreCase then lowercase word else word, ⟨category, relevance⟩)

/-- The index of a table. The first entry about a word holds. -/
def index (ignoreCase : Bool) (k : Keywords) : KeywordIndex :=
  ⟨.ofPattern (k.pattern.getD defaultKeywordPattern) ignoreCase,
    .ofFirst (k.readings ignoreCase)⟩

end Keywords

namespace KeywordIndex

/-- The form under which a word is looked up and its hits are counted. -/
def key (k : KeywordIndex) (word : String) : String :=
  if k.regex.ignoreCase then lowercase word else word

def get? (k : KeywordIndex) (word : String) : Option KeywordData := k.words.get? (k.key word)

end KeywordIndex

end Highlighter
