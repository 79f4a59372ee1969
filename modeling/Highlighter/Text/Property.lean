import Highlighter.Text.Alphabetic
import Highlighter.Text.Letter
import Highlighter.Text.Cased
import Highlighter.Text.Number
import Highlighter.Text.Mark
import Highlighter.Text.Hidden

/-! Properties of characters. Each is decided by a short rule within ASCII and by a table beyond it,
so that statements about ASCII text never meet a table. -/

namespace Highlighter.Text

/-- The 128 characters of ASCII. -/
def isAscii (c : Char) : Bool := c.toNat < 0x80

/-- The 26 letters of ASCII in both cases. -/
def isAsciiLetter (c : Char) : Bool := c.isAlpha

def isAsciiDigit (c : Char) : Bool := '0' ≤ c && c ≤ '9'

/-- A hexadecimal digit, in either case; none lies beyond ASCII. -/
def isHexDigit (c : Char) : Bool :=
  isAsciiDigit c || ('a' ≤ c && c ≤ 'f') || ('A' ≤ c && c ≤ 'F')

/-- White space: the six blanks and breaks of ASCII, the next-line control, the no-break blank, and
the blanks and breaks of the punctuation blocks. The zero-width blank is none. -/
def isWhitespace (c : Char) : Bool :=
  let n := c.toNat
  (0x09 ≤ n && n ≤ 0x0D) || n == 0x20 || n == 0x85 || n == 0xA0 || n == 0x1680 ||
    (0x2000 ≤ n && n ≤ 0x200A) || n == 0x2028 || n == 0x2029 || n == 0x202F || n == 0x205F ||
    n == 0x3000

/-- Decides within ASCII by `rule` and beyond it by `table`. -/
def byTable (rule : Char → Bool) (table : RangeTable) (c : Char) : Bool :=
  if isAscii c then rule c else table.has c

def isAlphabetic (c : Char) : Bool := byTable isAsciiLetter alphabeticRanges c

def isLetter (c : Char) : Bool := byTable isAsciiLetter letterRanges c

def isUppercase (c : Char) : Bool := byTable Char.isUpper uppercaseRanges c

def isCased (c : Char) : Bool := byTable isAsciiLetter casedRanges c

/-- A lower-case character: one with case that is neither upper case nor title case. -/
def isLowercase (c : Char) : Bool := isCased c && !isUppercase c && !titlecaseRanges.has c

/-- A letter of the general category Uppercase Letter, unlike a Roman numeral or a circled
letter. -/
def isUppercaseLetter (c : Char) : Bool := isUppercase c && isLetter c

/-- A letter of the general category Lowercase Letter, unlike a modifier or an ordinal sign. -/
def isLowercaseLetter (c : Char) : Bool :=
  isLowercase c && isLetter c && !lowercaseModifierRanges.has c

/-- A character that a search for a cased neighbour passes over. -/
def isCaseIgnorable (c : Char) : Bool :=
  byTable (fun c => ['\'', '.', ':', '^', Char.ofNat 0x60].contains c) caseIgnorableRanges c

def isDecimal (c : Char) : Bool := byTable isAsciiDigit decimalRanges c

/-- A number character: a digit, a fraction, a Roman numeral, a circled number and so on. -/
def isNumber (c : Char) : Bool := byTable isAsciiDigit numberRanges c

/-- An alphabetic or a number character. -/
def isAlphanumeric (c : Char) : Bool := isAlphabetic c || isNumber c

/-- A mark that extends the grapheme before it; none lies within ASCII. -/
def isGraphemeExtend (c : Char) : Bool := byTable (fun _ => false) graphemeExtendRanges c

/-- A character with no printed form; of ASCII these are the controls. -/
def isHidden (c : Char) : Bool :=
  byTable (fun c => c.toNat < 0x20 || c.toNat == 0x7F) hiddenRanges c

/-- A character of a name in any script: an alphabetic character, an extending mark, a
decimal digit or a connector. -/
def isNameChar (c : Char) : Bool :=
  isAlphabetic c || isGraphemeExtend c || isDecimal c || byTable (· == '_') connectorRanges c

end Highlighter.Text
