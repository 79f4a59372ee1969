import Highlighter.Text.Property

/-! Parts of a text. -/

namespace Highlighter.Text

/-- The parts of a text between separators, of which there is always one. -/
def splitOn (separator : Char) : List Char → List (List Char)
  | [] => [[]]
  | c :: cs =>
    if c = separator then [] :: splitOn separator cs
    else match splitOn separator cs with
      | part :: parts => (c :: part) :: parts
      | [] => [[c]]

/-- What lies before the first separator and what lies after it, if there is one. -/
def cutAt? (separator : Char) : List Char → Option (List Char × List Char)
  | [] => none
  | c :: cs =>
    if c = separator then some ([], cs)
    else (cutAt? separator cs).map fun (left, right) => (c :: left, right)

/-- A text without the white space at its ends. -/
def trim (cs : List Char) : List Char :=
  ((cs.dropWhile isWhitespace).reverse.dropWhile isWhitespace).reverse

/-- The words of a text, between white space. -/
def words (cs : List Char) : List (List Char) := go [] cs
where
  go : List Char → List Char → List (List Char)
    | word, [] => if word = [] then [] else [word.reverse]
    | word, c :: rest =>
      if isWhitespace c then
        if word = [] then go [] rest else word.reverse :: go [] rest
      else go (c :: word) rest

/-- A text with each of the line breaks of other systems, a carriage return alone or before a
newline, replaced by a newline. -/
def unifyNewlines : List Char → List Char
  | [] => []
  | '\r' :: '\n' :: cs => '\n' :: unifyNewlines cs
  | c :: cs => (if c = '\r' then '\n' else c) :: unifyNewlines cs

/-- The first characters of a text, as many as fit into `bytes` bytes, and the rest. -/
def splitAtByte : (bytes : Nat) → List Char → List Char × List Char
  | _, [] => ([], [])
  | bytes, c :: cs =>
    if c.utf8Size ≤ bytes then
      let (left, right) := splitAtByte (bytes - c.utf8Size) cs
      (c :: left, right)
    else ([], c :: cs)

end Highlighter.Text
