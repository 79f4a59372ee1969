import Highlighter.Keywords

/-! Finding the words of a table in a text. -/

namespace Highlighter

open Text

/-- A word of a table where it has been found, between byte offsets. -/
structure Hit where
  start : Nat
  stop : Nat
  /-- The form under which the word is counted. -/
  key : String
  data : KeywordData
  deriving DecidableEq, Repr

namespace Regex

/-- The matches from `c` on that are not empty. After an empty match the search goes on one
character later. It takes at most `searches` searches. -/
def matchesFrom (r : Regex) : (searches : Nat) → Cursor → List Span
  | 0, _ => []
  | searches + 1, c =>
    match r.find? c with
    | none => []
    | some s =>
      if s.isEmpty then
        if s.start.atEnd then [] else r.matchesFrom searches s.start.advance
      else s :: r.matchesFrom searches s.stop

def allMatches (r : Regex) (text : List Char) : List Span :=
  r.matchesFrom (text.length + 1) (.start text)

end Regex

namespace KeywordIndex

/-- The hit of a match, if it is a word of the table. -/
def hit? (k : KeywordIndex) (s : Span) : Option Hit :=
  let word := s.text
  (k.get? word).map fun data => ⟨s.start.offset, s.stop.offset, k.key word, data⟩

def hits (k : KeywordIndex) (text : List Char) : List Hit :=
  (k.regex.allMatches text).filterMap k.hit?

end KeywordIndex

end Highlighter
