import Highlighter.Grammar.Rule

/-! Modes and patterns that many grammars share: strings, numbers, titles, comments and the line
that names an interpreter. -/

namespace Highlighter.Idiom

def identifier : String := "[a-zA-Z]\\w*"

/-- A name that may start with an underscore. -/
def underscoreIdentifier : String := "[a-zA-Z_]\\w*"

/-- Whole numbers, numbers with a fraction and an exponent, and hexadecimal numbers. -/
def numberPattern : String :=
  "(-?)(\\b0[xX][a-fA-F0-9]+|(\\b\\d+(\\.\\d*)?|\\.\\d+)([eE][-+]?\\d+)?)"

/-- The words that mark a remark in a comment, as alternatives of a pattern. -/
def doctagWords : String := "TODO|FIXME|NOTE|BUG|OPTIMIZE|HACK|XXX"

/-- The characters that have a meaning of their own in a pattern. -/
def metacharacters : List Char := "\\^$.|?*+()[]\x7b\x7d/-".toList

/-- A text as a pattern that matches just this text. -/
def escapePattern (text : String) : String :=
  String.ofList (text.toList.flatMap fun c => if metacharacters.contains c then ['\\', c] else [c])

/-- A backslash and the character after it. -/
def backslashEscape : ModeRule :=
  .ofSettings { opening := some "\\\\[\\s\\S]", relevance := some 0 }

/-- A string on one line between two signs of a kind. -/
def stringBetween (quote : String) : ModeRule :=
  .containing { category := some .string, opening := some quote, closing := some quote,
                illegal := some "\\n" } [.inline backslashEscape]

def quotedString : ModeRule := stringBetween "\""

def apostropheString : ModeRule := stringBetween "'"

def number : ModeRule :=
  .ofSettings { category := some .number, opening := some numberPattern, relevance := some 0 }

/-- The name of what is defined. -/
def titleOf (pattern : String) : ModeRule :=
  .ofSettings { category := some .title, opening := some pattern, relevance := some 0 }

def title : ModeRule := titleOf identifier

def underscoreTitle : ModeRule := titleOf underscoreIdentifier

/-- A word that marks a remark, without the blanks before it. -/
def doctag : ModeRule :=
  .ofSettings { category := some .doctag, opening := some ("[ ]*(?=(" ++ doctagWords ++ "):)"),
                closing := some ("(" ++ doctagWords ++ "):"), excludeOpening := some true,
                relevance := some 0 }

/-- A comment, with the words in it that mark remarks. -/
def comment (opening closing : String) : ModeRule :=
  .containing { category := some .comment, opening := some opening, closing := some closing }
    [.inline doctag]

/-- The line at the start of a text that names an interpreter: any, or one whose path has a given
word in it. -/
def shebang (program : Option String) : ModeRule :=
  let start := "\\A#![ ]*/"
  let opening := match program with
    | some word => start ++ ".*\\b" ++ escapePattern word ++ "\\b.*"
    | none => start
  .ofSettings { category := some .metadata, opening := some opening, closing := some "$",
                relevance := some 0 }

end Highlighter.Idiom
