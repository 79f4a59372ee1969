/-! The ASCII meaning of the word and digit classes of a pattern. Patterns are written for an engine
where a word consists of ASCII letters, digits and underscores, so these escapes are spelled out
before the pattern is read. -/

namespace Highlighter.Pattern

def wordRanges : List Char := "0-9A-Za-z_".toList

def digitRanges : List Char := "0-9".toList

def bracket (body : List Char) : List Char := ['['] ++ body ++ [']']

def negatedBracket (body : List Char) : List Char := ['[', '^'] ++ body ++ [']']

/-- A place between a word character and none. -/
def boundary : List Char :=
  "(?:(?<=[0-9A-Za-z_])(?![0-9A-Za-z_])|(?<![0-9A-Za-z_])(?=[0-9A-Za-z_]))".toList

/-- A place between two word characters or between none. -/
def noBoundary : List Char :=
  "(?:(?<=[0-9A-Za-z_])(?=[0-9A-Za-z_])|(?<![0-9A-Za-z_])(?![0-9A-Za-z_]))".toList

/-- What an escape is spelled out to; all others stay. Within a class, `\b` is a backspace. -/
def spellEscape (inClass : Bool) (c : Char) : List Char :=
  match c, inClass with
  | 'w', false => bracket wordRanges
  | 'w', true => wordRanges
  | 'W', _ => negatedBracket wordRanges
  | 'd', false => bracket digitRanges
  | 'd', true => digitRanges
  | 'D', _ => negatedBracket digitRanges
  | 'b', false => boundary
  | 'B', false => noBoundary
  | _, _ => ['\\', c]

/-- Spells out the escapes of a pattern. `depth` counts the open classes, and `atStart` holds right
after the opening of one, where a closing bracket is literal. -/
def spellOut (depth : Nat) (atStart : Bool) : List Char → List Char
  | [] => []
  | ['\\'] => ['\\']
  | '\\' :: c :: rest => spellEscape (depth > 0) c ++ spellOut depth false rest
  -- Every bracket that is not escaped opens a class, and closes one unless it comes first in it.
  | '[' :: '^' :: rest => '[' :: '^' :: spellOut (depth + 1) true rest
  | '[' :: rest => '[' :: spellOut (depth + 1) true rest
  | ']' :: rest =>
    if depth > 0 ∧ !atStart then ']' :: spellOut (depth - 1) false rest
    else ']' :: spellOut depth false rest
  | c :: rest => c :: spellOut depth false rest

/-- A pattern with its word and digit classes spelled out. -/
def asciiClasses (pattern : String) : String :=
  String.ofList (spellOut 0 false pattern.toList)

end Highlighter.Pattern
