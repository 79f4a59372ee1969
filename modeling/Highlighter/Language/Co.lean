import Highlighter.Grammar.Idiom

/-! The language Co. Its surface syntax has changed over time; the two older versions are kept so
that old pages can still be shown as they were. -/

namespace Highlighter.Co

open Idiom

/-- A state of Co's syntax. -/
inductive Version
  /-- Comments start with `//`, and functions may take functions, to any depth. -/
  | current
  /-- Comments start with `//`; parameters are flat. Deprecated. -/
  | slash
  /-- Comments start with `#`, type names are keywords, and types cannot be declared. Deprecated. -/
  | hash
  deriving DecidableEq, Repr, Inhabited

namespace Version

/-- The versions, the latest first. -/
def all : List Version := [current, slash, hash]

def name : Version → String
  | current => "current"
  | slash => "slash"
  | hash => "hash"

def ofName? (s : String) : Option Version := all.find? (·.name == s)

/-- Only the latest version is to be used for new texts. -/
def isDeprecated (v : Version) : Bool := v != current

def index (v : Version) : Nat := all.idxOf v

end Version

/-- The tag that texts in Co carry. -/
def tag : String := "co"

def literals : List String := ["true", "false", "nil"]

def oldKeywords : List String :=
  ["auto", "break", "default", "fun", "interface", "select", "case", "struct", "else", "goto",
    "switch", "const", "fallthrough", "if", "type", "continue", "for", "import", "return", "var"]

def oldBuiltIns : List String := ["append", "cap", "copy", "len", "make", "panic", "print"]

def oldTypes : List String :=
  ["bool", "i8", "i16", "i32", "i64", "isize", "int", "u8", "u16", "u32", "u64", "usize", "uint",
    "f32", "f64", "byte", "rune", "str"]

def Version.keywords : Version → Keywords
  | current =>
    { keyword := ["auto", "break", "case", "const", "continue", "default", "else", "fallthrough",
        "for", "fun", "goto", "if", "import", "interface", "mut", "return", "select", "struct",
        "switch", "type", "var"]
      literal := literals
      builtIn := ["copy", "panic", "print"]
      type := ["bool", "i8", "i16", "i32", "i64", "int", "u8", "u16", "u32", "u64", "uint", "f32",
        "f64", "byte", "str"] }
  | slash =>
    { keyword := oldKeywords, literal := literals, builtIn := oldBuiltIns, type := oldTypes }
  | hash => { keyword := oldKeywords ++ oldTypes, literal := literals, builtIn := oldBuiltIns }

/-- What follows `error:` in a line comment. -/
def expectedError : ModeRule :=
  .ofSettings { category := some .errormsg, opening := some "error:", closing := some "$" }

def comments : Version → List ModeRef
  | .hash => [.inline (comment "#" "$"), .inline (comment "#\\*" "\\*#")]
  | _ =>
    [.inline (comment "/\\*" "\\*/"),
     .inline (.containing { category := some .comment, opening := some "//", closing := some "$" }
       [.inline expectedError])]

/-- Strings, between either kind of quotes. -/
def strings : ModeRule := .mk { category := some .string } none [quotedString, apostropheString]

/-- Numbers. One with the suffix of the imaginary unit comes before the same without it. -/
def numbers : ModeRule :=
  .mk { category := some .number } none
    [.ofSettings { opening := some (numberPattern ++ "[i]"), relevance := some 1 }, number]

def functionTypeName : String := "FUN_TYPE"

def parametersName : String := "PARAMS"

/-- A function type among parameters, or a group in parentheses. -/
def functionType : ModeRule :=
  .mk {} none
    [.containing { category := some .funtype, opening := some "fun", returnOpening := some true }
       [.inline (.ofSettings { category := some .type, opening := some "fun" }),
         .named parametersName],
     .containing { opening := some "\\(", closing := some "\\)" } [.named functionTypeName]]

/-- The parameters of a function, which may be functions themselves. -/
def parameters : ModeRule :=
  .containing { category := some .params, opening := some "\\(", closing := some "\\)",
                closesParent := some true, keywords := some Version.current.keywords,
                relevance := some 0 }
    (.named functionTypeName :: comments .current)

/-- The name of a function, which a parenthesis follows. -/
def functionName : ModeRule :=
  .containing { opening := some (underscoreIdentifier ++ "\\s*\\("), returnOpening := some true,
                relevance := some 0 }
    [.inline underscoreTitle]

def typeParameters : ModeRule :=
  .ofSettings { category := some .type, opening := some "<", closing := some ">",
                keywords := some (.ofText "reified"), relevance := some 0 }

def signature : ModeRule :=
  .containing { category := some .function, openingWords := some "fun", closing := some "[(]|$",
                returnOpening := some true, excludeClosing := some true,
                keywords := some Version.current.keywords, relevance := some 5 }
    ([.inline functionName, .inline typeParameters, .named parametersName] ++ comments .current)

/-- The parameters of a function, none of which is a function. -/
def flatParameters (v : Version) : ModeRule :=
  .containing { category := some .params, opening := some "\\(", closing := some "\\)",
                keywords := some v.keywords, illegal := some "[\"']" }
    (comments v)

/-- The signature of a function in the older versions. -/
def flatSignature (v : Version) : ModeRule :=
  .containing { category := some .function, openingWords := some "fun",
                closing := some "\\s*(\\\x7b|$)", excludeClosing := some true }
    ([.inline title, .inline (flatParameters v)] ++ comments v)

def typeDeclaration (v : Version) : ModeRule :=
  .containing { category := some .typedef, openingWords := some "type", closing := some "\\s*$",
                excludeClosing := some true }
    (.inline title :: comments v)

/-- What follows strings and numbers in the rules of a version. -/
def declarations : Version → List ModeRule
  | .current => [signature, typeDeclaration .current]
  | .slash => [flatSignature .slash, typeDeclaration .slash]
  | .hash => [flatSignature .hash]

def namedModes : Version → Dict ModeRule
  | .current => .ofList [(functionTypeName, functionType), (parametersName, parameters)]
  | _ => .empty

def grammar (v : Version) : Grammar where
  name := "Co"
  keywords := some v.keywords
  illegal := some "</"
  contains :=
    .inline (shebang (some tag)) :: comments v ++
      (strings :: numbers :: declarations v).map .inline
  modes := namedModes v

end Highlighter.Co
