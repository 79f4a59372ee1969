import Highlighter.Pattern.Error
import Highlighter.Text.Numeral

/-! Escapes that name one character by number or by a letter, inside and outside of classes
alike. -/

namespace Highlighter.Pattern

open Highlighter.Text

/-- What is left to read, with a value read before it. -/
abbrev Reading (α : Type) := Except PatternError (α × List Char)

def hexValue (c : Char) : Nat :=
  if isAsciiDigit c then c.toNat - '0'.toNat
  else if 'a' ≤ c then c.toNat - 'a'.toNat + 10
  else c.toNat - 'A'.toNat + 10

/-- The value of a run of digits in a base. -/
def baseValue (base : Nat) (digits : List Char) : Nat :=
  digits.foldl (fun n c => n * base + hexValue c) 0

/-- The leading digits of a text, at most `limit` of them, and the rest. -/
def takeDigits (digit : Char → Bool) (limit : Nat) (cs : List Char) : List Char × List Char :=
  let digits := (cs.take limit).takeWhile digit
  (digits, cs.drop digits.length)

def isOctalDigit (c : Char) : Bool := '0' ≤ c && c ≤ '7'

/-- The greatest number that may be written in decimal digits. -/
def numberLimit : Nat := 2147483647

/-- A code point that is a character. -/
def checkCodePoint (code : Nat) : Except PatternError Nat :=
  if 0xD800 ≤ code ∧ code < 0xE000 then .error .invalidCodePoint
  else if code < 0x110000 then .ok code
  else .error .codePointTooBig

/-- The number of bytes of the character that starts with a byte. A byte that starts none counts as
one. -/
def leadLength (byte : Nat) : Nat :=
  if byte < 0xC2 then 1
  else if byte < 0xE0 then 2
  else if byte < 0xF0 then 3
  else if byte < 0xF5 then 4
  else 1

/-- The code point that bytes spell, if they spell one in full and in its only form. -/
def decodeBytes? : List Nat → Option Nat
  | [a] => if a < 0x80 then some a else none
  | [a, b] =>
    if 0xC2 ≤ a ∧ a < 0xE0 ∧ b / 64 = 2 then some ((a % 32) * 64 + b % 64) else none
  | [a, b, c] =>
    let code := ((a % 16) * 64 + b % 64) * 64 + c % 64
    if a / 16 = 14 ∧ b / 64 = 2 ∧ c / 64 = 2 ∧ 0x800 ≤ code ∧
        (code < 0xD800 ∨ 0xE000 ≤ code) then
      some code
    else none
  | [a, b, c, d] =>
    let code := (((a % 8) * 64 + b % 64) * 64 + c % 64) * 64 + d % 64
    if a / 8 = 30 ∧ b / 64 = 2 ∧ c / 64 = 2 ∧ d / 64 = 2 ∧ 0x10000 ≤ code ∧
        code < 0x110000 then
      some code
    else none
  | _ => none

/-- A byte written as `\xHH` at the head of a text. -/
def byteEscape? : List Char → Option (Nat × List Char)
  | '\\' :: 'x' :: '\x7b' :: _ => none
  | ['\\', 'x'] => none
  | '\\' :: 'x' :: rest =>
    let (digits, rest) := takeDigits isHexDigit 2 rest
    some (baseValue 16 digits, rest)
  | _ => none

/-- Reads the bytes that complete a character after its first byte. -/
def moreBytes : Nat → List Char → Reading (List Nat)
  | 0, rest => .ok ([], rest)
  | n + 1, rest =>
    match byteEscape? rest with
    | none => .error .truncatedBytes
    | some (byte, rest) =>
      match moreBytes n rest with
      | .error e => .error e
      | .ok (bytes, rest) => .ok (byte :: bytes, rest)

/-- The character whose first byte has been read. -/
def characterFrom (byte : Nat) (rest : List Char) : Reading Nat :=
  match moreBytes (leadLength byte - 1) rest with
  | .error e => .error e
  | .ok (bytes, rest) =>
    match decodeBytes? (byte :: bytes) with
    | some code => .ok (code, rest)
    | none => .error .invalidCodePoint

/-- The character that a letter after a backslash names. -/
def letterEscape? : Char → Option Char
  | 'n' => some '\n'
  | 't' => some '\t'
  | 'r' => some '\r'
  | 'f' => some '\x0c'
  | 'a' => some '\x07'
  | 'b' => some '\x08'
  | 'e' => some '\x1b'
  | 'v' => some '\x0b'
  | _ => none

/-- Reads the escape of one character after the backslash. A letter that starts no escape, or one
whose digits are missing, stands for itself. -/
def escapedCharacter (c : Char) (rest : List Char) : Reading Nat :=
  match c, rest with
  | 'x', '\x7b' :: inner =>
    let (digits, after) := takeDigits isHexDigit 8 inner
    match after with
    | d :: after' =>
      if isHexDigit d then .error .codePointTooLong
      else if d = '\x7d' ∧ digits ≠ [] then
        (checkCodePoint (baseValue 16 digits)).map (·, after')
      else .ok (c.toNat, rest)
    | [] => .ok (c.toNat, rest)
  | 'x', [] => .ok (c.toNat, rest)
  | 'x', _ =>
    let (digits, rest) := takeDigits isHexDigit 2 rest
    characterFrom (baseValue 16 digits) rest
  | 'u', [] => .ok (c.toNat, rest)
  | 'u', _ =>
    let (digits, rest) := takeDigits isHexDigit 4 rest
    if digits.length < 4 then .error .invalidCodePoint
    else (checkCodePoint (baseValue 16 digits)).map (·, rest)
  | 'c', [] => .error .endAtControl
  | 'c', d :: rest => .ok (if d = '?' then 0x7F else d.toNat % 32, rest)
  | _, _ => .ok (((letterEscape? c).getD c).toNat, rest)

/-- Reads a byte in octal digits, of which the first has not been consumed. -/
def octalCharacter (limit : Nat) (cs : List Char) : Reading Nat :=
  let (digits, rest) := takeDigits isOctalDigit limit cs
  let value := baseValue 8 digits
  if value > 255 then .error .numberTooBig else characterFrom value rest

/-- Reads the name of a property after its opening brace. A name may not contain brackets or bars,
and a name that is cut short is reported without its last character. -/
def propertyName (cs : List Char) : Reading (List Char) :=
  go [] cs
where
  /-- Collects the name, last character first. -/
  go : List Char → List Char → Reading (List Char)
    | name, [] => .error (.unknownProperty (String.ofList (name.drop 1).reverse))
    | name, c :: rest =>
      if c = '\x7d' then .ok (name.reverse, rest)
      else if ['(', ')', '\x7b', '|'].contains c then
        .error (.unknownProperty (String.ofList name.reverse))
      else go (c :: name) rest

end Highlighter.Pattern
