/-! What can be wrong with a pattern, with the number and the wording of each fault. -/

namespace Highlighter.Pattern

/-- A fault found while a pattern is read or made ready for searching. -/
inductive PatternError
  | depthLimit
  | emptyClass
  | unclosedClass
  | endAtEscape
  | endAtControl
  | rangeToClass
  | unmatchedRange
  | noRepeatTarget
  | unmatchedClose
  | unmatchedOpen
  | endInGroup
  | unknownGroupOption
  | unknownBracketClass
  | variableLookBehind
  | numberTooBig
  | repeatTooBig
  | emptyRange
  | truncatedBytes
  | unknownBackreference
  | numberedBackreference
  | codePointTooLong
  | emptyGroupName
  | groupName (name : String)
  | groupNameChar (name : String)
  | unknownName (name : String)
  | unknownProperty (name : String)
  | invalidCodePoint
  | codePointTooBig
  deriving DecidableEq, Repr

namespace PatternError

/-- Names in messages are cut after this many bytes. -/
def nameLimit : Nat := 30

def code : PatternError → Int
  | depthLimit => -16
  | emptyClass => -102
  | unclosedClass => -103
  | endAtEscape => -104
  | endAtControl => -106
  | rangeToClass => -110
  | unmatchedRange => -112
  | noRepeatTarget => -113
  | unmatchedClose => -116
  | unmatchedOpen => -117
  | endInGroup => -118
  | unknownGroupOption => -119
  | unknownBracketClass => -121
  | variableLookBehind => -122
  | numberTooBig => -200
  | repeatTooBig => -201
  | emptyRange => -203
  | truncatedBytes => -206
  | unknownBackreference => -208
  | numberedBackreference => -209
  | codePointTooLong => -212
  | emptyGroupName => -214
  | groupName _ => -215
  | groupNameChar _ => -216
  | unknownName _ => -217
  | unknownProperty _ => -223
  | invalidCodePoint => -400
  | codePointTooBig => -401

/-- The name that a message quotes, if the fault has one. -/
def name? : PatternError → Option String
  | groupName name | groupNameChar name | unknownName name | unknownProperty name => some name
  | _ => none

/-- A name as a message shows it: whole if it is short, else its first bytes and three dots. There
is no such text if the cut falls inside a character. -/
def shownName? (name : String) : Option String :=
  if name.utf8ByteSize ≤ nameLimit then some name
  else
    let kept := takeAll nameLimit name.toList
    kept.map fun cs => String.ofList cs ++ "..."
where
  /-- The characters that fill exactly so many bytes. -/
  takeAll : Nat → List Char → Option (List Char)
    | 0, _ => some []
    | _, [] => some []
    | bytes, c :: cs =>
      if c.utf8Size ≤ bytes then (takeAll (bytes - c.utf8Size) cs).map (c :: ·) else none

/-- The wording of a fault, around the name it quotes. -/
def wording (name : String) : PatternError → String
  | depthLimit => "parse depth limit over"
  | emptyClass => "empty char-class"
  | unclosedClass => "premature end of char-class"
  | endAtEscape => "end pattern at escape"
  | endAtControl => "end pattern at control"
  | rangeToClass => "char-class value at end of range"
  | unmatchedRange => "unmatched range specifier in char-class"
  | noRepeatTarget => "target of repeat operator is not specified"
  | unmatchedClose => "unmatched close parenthesis"
  | unmatchedOpen => "end pattern with unmatched parenthesis"
  | endInGroup => "end pattern in group"
  | unknownGroupOption => "undefined group option"
  | unknownBracketClass => "invalid POSIX bracket type"
  | variableLookBehind => "invalid pattern in look-behind"
  | numberTooBig => "too big number"
  | repeatTooBig => "too big number for repeat range"
  | emptyRange => "empty range in char class"
  | truncatedBytes => "too short multibyte string"
  | unknownBackreference => "invalid backref number/name"
  | numberedBackreference => "numbered backref/call is not allowed. (use name)"
  | codePointTooLong => "too long wide-char value"
  | emptyGroupName => "group name is empty"
  | groupName _ => "invalid group name <" ++ name ++ ">"
  | groupNameChar _ => "invalid char in group name <" ++ name ++ ">"
  | unknownName _ => "undefined name <" ++ name ++ "> reference"
  | unknownProperty _ => "invalid character property name \x7b" ++ name ++ "\x7d"
  | invalidCodePoint => "invalid code point value"
  | codePointTooBig => "too big wide-char value"

/-- The wording of a fault with its name in full or cut; none if the name cannot be cut there. -/
def text? (e : PatternError) : Option String :=
  match e.name? with
  | none => some (e.wording "")
  | some name => (shownName? name).map e.wording

/-- What stands for the wording of a fault whose name cannot be cut. -/
def unreadable : String := "Onig error string was invalid UTF-8"

/-- The fault as a sentence for the user. -/
def message (e : PatternError) : String := "Oniguruma error: " ++ e.text?.getD unreadable

/-- The fault as it stands inside another message, with its number. -/
def debug (e : PatternError) : String :=
  match e.text? with
  | some text => "Error(OnigError(" ++ toString e.code ++ "), " ++ text ++ ")"
  | none => "Error(Custom, " ++ unreadable ++ ")"

end PatternError

end Highlighter.Pattern
