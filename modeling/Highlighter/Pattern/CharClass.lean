import Highlighter.Text.Case

/-! Character classes: sets of characters built from ranges and named properties, and the classes of
a pattern, which may be negated and may disregard case. -/

namespace Highlighter.Pattern

open Highlighter.Text

/-- A named property that a class may ask for. -/
inductive Property
  | any
  | ascii
  | space
  | blank
  | control
  | hexDigit
  | decimal
  | number
  | letter
  | alphabetic
  | alphanumeric
  | uppercase
  | lowercase
  | uppercaseLetter
  | lowercaseLetter
  | titlecase
  | word
  deriving DecidableEq, Repr

namespace Property

def has : Property → Char → Bool
  | any, _ => true
  | ascii, c => isAscii c
  | space, c => isWhitespace c
  | blank, c => isWhitespace c && !(['\n', '\x0b', '\x0c', '\r'].contains c) &&
      !([0x85, 0x2028, 0x2029].contains c.toNat)
  | control, c => c.toNat < 0x20 || (0x7F ≤ c.toNat && c.toNat < 0xA0)
  | hexDigit, c => isHexDigit c
  | decimal, c => isDecimal c
  | number, c => isNumber c
  | letter, c => isLetter c
  | alphabetic, c => isAlphabetic c
  | alphanumeric, c => isAlphabetic c || isDecimal c
  | uppercase, c => isUppercase c
  | lowercase, c => isLowercase c
  | uppercaseLetter, c => isUppercaseLetter c
  | lowercaseLetter, c => isLowercaseLetter c
  | titlecase, c => titlecaseRanges.has c
  | word, c => isNameChar c

/-- The names between `[:` and `:]`. -/
def brackets : List (String × Property) :=
  [("alnum", alphanumeric), ("alpha", alphabetic), ("ascii", ascii), ("blank", blank),
   ("cntrl", control), ("digit", decimal), ("lower", lowercase), ("space", space),
   ("upper", uppercase), ("word", word), ("xdigit", hexDigit)]

/-- The names after `\p`, without regard to case, blanks, hyphens and underscores. -/
def names : List (String × Property) :=
  brackets ++
  [("any", any), ("cc", control), ("control", control), ("l", letter), ("letter", letter),
   ("alphabetic", alphabetic), ("lu", uppercaseLetter), ("uppercase", uppercase),
   ("uppercaseletter", uppercaseLetter), ("ll", lowercaseLetter), ("lowercase", lowercase),
   ("lowercaseletter", lowercaseLetter), ("lt", titlecase), ("titlecaseletter", titlecase),
   ("n", number), ("number", number), ("nd", decimal), ("decimalnumber", decimal),
   ("whitespace", space)]

/-- The property of a name after `\p`. -/
def ofName? (name : List Char) : Option Property :=
  let key := (name.filter fun c => !([' ', '-', '_'].contains c)).map Char.toLower
  names.lookup (String.ofList key)

/-- The property of a name between `[:` and `:]`. -/
def ofBracket? (name : List Char) : Option Property := brackets.lookup (String.ofList name)

end Property

/-- A set of characters. -/
inductive CharSet
  | empty
  | range (low high : Nat)
  | property (p : Property)
  | union (a b : CharSet)
  | inter (a b : CharSet)
  | compl (a : CharSet)
  deriving DecidableEq, Repr

def CharSet.has : CharSet → Char → Bool
  | empty, _ => false
  | range low high, c => low ≤ c.toNat && c.toNat ≤ high
  | property p, c => p.has c
  | union a b, c => a.has c || b.has c
  | inter a b, c => a.has c && b.has c
  | compl a, c => !a.has c

/-- A class of a pattern: the characters it lists, and whether it stands for all others instead. -/
structure CharClass where
  members : CharSet
  negated : Bool
  deriving DecidableEq, Repr

namespace CharClass

/-- The set that a class stands for, case regarded. -/
def toSet (k : CharClass) : CharSet := if k.negated then .compl k.members else k.members

end CharClass

/-- A test of one character. -/
inductive CharTest
  | char (c : Char)
  /-- Any character, the line break only if `newline`. -/
  | any (newline : Bool)
  | ofClass (k : CharClass)
  /-- A member of the class when case is disregarded: the listed characters are completed by those
  that differ from one of them in case alone, and the completed list may then be negated. -/
  | folded (k : CharClass)
  deriving DecidableEq, Repr

def CharTest.has : CharTest → Char → Bool
  | char x, c => c == x
  | any newline, c => newline || c != '\n'
  | ofClass k, c => k.members.has c != k.negated
  | folded k, c => (k.members.has c || (caseVariants c).any k.members.has) != k.negated

end Highlighter.Pattern
