import Highlighter.Pattern.Error
import Highlighter.Text.Quoted

/-! What can go wrong, with the wording of each case for users and in diagnostics. -/

namespace Highlighter

open Text Pattern

/-- Why a text has no tokens. -/
inductive TokenizeError
  /-- A lexeme that a mode declares illegal: the text is not in the language. -/
  | illegal (position : Nat) (lexeme : String)
  /-- Scanning no longer moves forward. -/
  | runaway (position : Nat)
  /-- The terminators of a mode cannot be searched together. -/
  | terminators (count : Nat) (fault : PatternError)
  deriving DecidableEq, Repr

/-- The message about a broken set of patterns. -/
def patternSetMessage (count : Nat) (fault : PatternError) : String :=
  "Failed to compile pattern set with " ++ toString count ++ " patterns: " ++ fault.debug

namespace TokenizeError

def message : TokenizeError → String
  | illegal position lexeme => "illegal lexeme " ++ quote lexeme ++ " at byte " ++ toString position
  | runaway position => "grammar stopped advancing at byte " ++ toString position
  | terminators count fault => patternSetMessage count fault

def debug : TokenizeError → String
  | illegal position lexeme =>
    "Illegal \x7b position: " ++ toString position ++ ", lexeme: " ++ quote lexeme ++ " \x7d"
  | runaway position => "RunawayLoop \x7b position: " ++ toString position ++ " \x7d"
  | terminators count fault => "Regex(" ++ quote (patternSetMessage count fault) ++ ")"

end TokenizeError

/-- The tables of a machine that can grow too large. -/
inductive Table
  | modes
  | regexes
  | keywordSets
  deriving DecidableEq, Repr

def Table.name : Table → String
  | .modes => "modes"
  | .regexes => "regexes"
  | .keywordSets => "keyword sets"

inductive Error
  | missingFile
  /-- A document is no JSON, or not of the expected shape. -/
  | malformed
  | invalidColor (value reason : String)
  | unknownLanguage (tag : String)
  | unknownMode (grammar name : String)
  | invalidPattern (pattern : String) (fault : PatternError)
  | tooLarge (grammar : String) (table : Table)
  | tokenize (error : TokenizeError)
  /-- A hook has failed with a message of its own. -/
  | hook (text : String)
  deriving DecidableEq, Repr

namespace Error

/-- The system's wording for a file that is not there. -/
def missingFileText : String := "No such file or directory"

def missingFileCode : Nat := 2

def missingFileCause : String :=
  missingFileText ++ " (os error " ++ toString missingFileCode ++ ")"

def missingFileDebug : String :=
  "Os \x7b code: " ++ toString missingFileCode ++ ", kind: NotFound, message: " ++
    quote missingFileText ++ " \x7d"

def message : Error → String
  | missingFile => "I/O error: " ++ missingFileCause
  | malformed => "JSON parsing error"
  | invalidColor value reason => "invalid hex color '" ++ value ++ "': " ++ reason
  | unknownLanguage tag => "grammar '" ++ tag ++ "' not found"
  | unknownMode grammar name =>
    "grammar '" ++ grammar ++ "' references unknown mode '" ++ name ++ "'"
  | invalidPattern pattern fault => "invalid regex '" ++ pattern ++ "': " ++ fault.message
  | tooLarge grammar table => "grammar '" ++ grammar ++ "' has too many " ++ table.name
  | tokenize error => "tokenization error: " ++ error.message
  | hook text => "build hook failed: " ++ text

/-- The message of the error behind this one, if there is one. -/
def source? : Error → Option String
  | missingFile => some missingFileCause
  | tokenize error => some error.message
  | _ => none

/-- Named parts of an error in diagnostics. -/
def debugFields (name : String) (fields : List (String × String)) : String :=
  name ++ " \x7b " ++ ", ".intercalate (fields.map fun f => f.1 ++ ": " ++ quote f.2) ++ " \x7d"

def debug : Error → String
  | missingFile => "Io(" ++ missingFileDebug ++ ")"
  | malformed => "Json"
  | invalidColor value reason =>
    debugFields "InvalidHexColor" [("value", value), ("reason", reason)]
  | unknownLanguage tag => "GrammarNotFound(" ++ quote tag ++ ")"
  | unknownMode grammar name =>
    debugFields "UnknownNamedMode" [("grammar", grammar), ("name", name)]
  | invalidPattern pattern fault =>
    debugFields "InvalidRegex" [("pattern", pattern), ("message", fault.message)]
  | tooLarge grammar table =>
    debugFields "GrammarTooLarge" [("grammar", grammar), ("table", table.name)]
  | tokenize error => "Tokenize(" ++ error.debug ++ ")"
  | hook text => "Hook(" ++ quote text ++ ")"

end Error

end Highlighter
