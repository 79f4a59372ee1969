import Highlighter.Json.Basic
import Highlighter.Text.Property

/-! Reading JSON documents. The reader takes in one character after another; the arrays and objects
that are open lie on a stack, so documents may be nested to any depth. It is strict: no comments, no
trailing commas, no text after the value, and no bare control characters. -/

namespace Highlighter.Json

open Highlighter.Text

/-- An array or object that is open: the finished items, last first, the key of the member at hand,
and whether all keys are texts so far. -/
inductive Container
  | array (items : List Json)
  | object (members : List (String × Json)) (key : String) (readable : Bool)

/-- What has been read of a string. -/
inductive Quote
  | plain
  | escape
  /-- A backslash, `u` and some of four digits, with the high half of a pair before it. -/
  | unicode (digits value : Nat) (high : Option Nat)
  /-- The high half of a pair, which stands alone unless a backslash follows. -/
  | pair (high : Nat)
  /-- The high half of a pair and a backslash; the half stands alone unless `u` follows. -/
  | pairEscape (high : Nat)

/-- How far a number has been read. -/
inductive NumeralPart
  | minus
  | zero
  | whole
  | point
  | fraction
  | exponent
  | exponentSign
  | exponentDigits
  deriving DecidableEq

/-- A number while it is read: its digits as a whole number, how many of them follow the
point, and its exponent. -/
structure Numeral where
  part : NumeralPart
  negative : Bool
  digits : Nat
  places : Nat
  exponentNegative : Bool
  exponent : Nat

namespace Numeral

/-- The number of one digit, or the sign of one. -/
def start (part : NumeralPart) (negative : Bool) (digits : Nat) : Numeral :=
  ⟨part, negative, digits, 0, false, 0⟩

/-- Takes in one more character, if the number may go on with it. -/
def push? (n : Numeral) (c : Char) : Option Numeral :=
  let d := c.toNat - '0'.toNat
  match n.part, isAsciiDigit c with
  | .minus, true => some { n with part := if d = 0 then .zero else .whole, digits := d }
  | .whole, true => some { n with digits := n.digits * 10 + d }
  | .point, true | .fraction, true =>
    some { n with part := .fraction, digits := n.digits * 10 + d, places := n.places + 1 }
  | .exponent, true | .exponentSign, true | .exponentDigits, true =>
    some { n with part := .exponentDigits, exponent := n.exponent * 10 + d }
  | .zero, false | .whole, false =>
    if c = '.' then some { n with part := .point }
    else if c = 'e' ∨ c = 'E' then some { n with part := .exponent } else none
  | .fraction, false => if c = 'e' ∨ c = 'E' then some { n with part := .exponent } else none
  | .exponent, false =>
    if c = '+' ∨ c = '-' then
      some { n with part := .exponentSign, exponentNegative := c = '-' }
    else none
  | _, _ => none

/-- The number, if it may end here. A negative zero is no whole number. -/
def value? (n : Numeral) : Option Json :=
  match n.part with
  | .zero => some (if n.negative then .decimal true 0 0 else .integer 0)
  | .whole => some (.integer (if n.negative then -n.digits else n.digits))
  | .fraction | .exponentDigits =>
    let exponent : Int := if n.exponentNegative then -n.exponent else n.exponent
    some (.decimal n.negative n.digits (exponent - n.places))
  | _ => none

end Numeral

/-- What the reader is in the middle of, or what must come next. -/
inductive Expecting
  | value
  /-- A value, or the end of the array that has just been opened. -/
  | firstItem
  /-- A key, or the end of the object that has just been opened. -/
  | firstKey
  | key
  | colon
  /-- A comma, or the end of the array or object. -/
  | separator
  | nothing
  /-- The rest of a word and the value it stands for. -/
  | word (rest : List Char) (value : Json)
  | number (n : Numeral)
  /-- A string, last character first, which is a key or a value. It is no text once half of a
  surrogate pair stands alone in it. -/
  | quoted (isKey : Bool) (text : Option (List Char)) (state : Quote)

/-- A document that has been read up to some place; the stack is innermost first, and `result` is
there once the outermost value is complete. -/
structure Reader where
  expecting : Expecting
  stack : List Container
  result : Option Json

namespace Reader

def start : Reader := ⟨.value, [], none⟩

def isBlank (c : Char) : Bool := c == ' ' || c == '\t' || c == '\n' || c == '\r'

def complete (r : Reader) (v : Json) : Reader :=
  match r.stack with
  | [] => { r with expecting := .nothing, result := some v }
  | .array items :: rest => { r with expecting := .separator, stack := .array (v :: items) :: rest }
  | .object members key readable :: rest =>
    { r with expecting := .separator, stack := .object ((key, v) :: members) "" readable :: rest }

/-- Takes in the end of the innermost array or object. -/
def close? (r : Reader) (c : Char) : Option Reader :=
  match r.stack, c with
  | .array items :: rest, ']' => some (complete { r with stack := rest } (.array items.reverse))
  | .object members _ readable :: rest, '\x7d' =>
    some (complete { r with stack := rest }
      (if readable then .object members.reverse else .unreadable))
  | _, _ => none

def openValue? (r : Reader) (c : Char) : Option Reader :=
  let go (e : Expecting) : Option Reader := some { r with expecting := e }
  match c with
  | 'n' => go (.word "ull".toList .null)
  | 't' => go (.word "rue".toList (.bool true))
  | 'f' => go (.word "alse".toList (.bool false))
  | '"' => go (.quoted false (some []) .plain)
  | '[' => some { r with expecting := .firstItem, stack := .array [] :: r.stack }
  | '\x7b' => some { r with expecting := .firstKey, stack := .object [] "" true :: r.stack }
  | '-' => go (.number (.start .minus true 0))
  | '0' => go (.number (.start .zero false 0))
  | _ =>
    if isAsciiDigit c then go (.number (.start .whole false (c.toNat - '0'.toNat))) else none

/-- Takes in a complete string, which is the key of a member or a value. -/
def completeString (r : Reader) (isKey : Bool) (text : Option (List Char)) : Reader :=
  let s? := text.map fun cs => String.ofList cs.reverse
  if isKey then
    match r.stack with
    | .object members _ readable :: rest =>
      let container := .object members (s?.getD "") (readable && s?.isSome)
      { r with expecting := .colon, stack := container :: rest }
    | _ => r
  else r.complete (match s? with
    | some s => .string s
    | none => .unreadable)

def hexDigit? (c : Char) : Option Nat :=
  if isAsciiDigit c then some (c.toNat - '0'.toNat)
  else if 'a' ≤ c ∧ c ≤ 'f' then some (c.toNat - 'a'.toNat + 10)
  else if 'A' ≤ c ∧ c ≤ 'F' then some (c.toNat - 'A'.toNat + 10)
  else none

/-- The character that a letter after a backslash stands for. -/
def escaped? : Char → Option Char
  | '"' => some '"'
  | '\\' => some '\\'
  | '/' => some '/'
  | 'b' => some '\x08'
  | 'f' => some '\x0c'
  | 'n' => some '\n'
  | 'r' => some '\r'
  | 't' => some '\t'
  | _ => none

/-- Takes in a code unit of four digits: a character, or the half of a pair. -/
def unit (text : Option (List Char)) (unit : Nat) : Option Nat → Option (List Char) × Quote
  | none =>
    -- Halves that do not make a pair leave no text, but the string may go on.
    if 0xD800 ≤ unit ∧ unit < 0xDC00 then (text, .pair unit)
    else if 0xDC00 ≤ unit ∧ unit < 0xE000 then (none, .plain)
    else (text.map (Char.ofNat unit :: ·), .plain)
  | some high =>
    if 0xDC00 ≤ unit ∧ unit < 0xE000 then
      let code := 0x10000 + (high - 0xD800) * 0x400 + (unit - 0xDC00)
      (text.map (Char.ofNat code :: ·), .plain)
    else (none, .plain)

def stepPlainQuote? (r : Reader) (isKey : Bool) (text : Option (List Char)) (c : Char) :
    Option Reader :=
  if c = '"' then some (r.completeString isKey text)
  else if c = '\\' then some { r with expecting := .quoted isKey text .escape }
  else if c.toNat < 0x20 then none
  else some { r with expecting := .quoted isKey (text.map (c :: ·)) .plain }

def stepEscape? (r : Reader) (isKey : Bool) (text : Option (List Char)) (c : Char) :
    Option Reader :=
  if c = 'u' then some { r with expecting := .quoted isKey text (.unicode 0 0 none) }
  else (escaped? c).map fun x => { r with expecting := .quoted isKey (text.map (x :: ·)) .plain }

def stepString? (r : Reader) (isKey : Bool) (text : Option (List Char)) (c : Char) :
    Quote → Option Reader
  | .plain => r.stepPlainQuote? isKey text c
  | .escape => r.stepEscape? isKey text c
  | .unicode digits value high =>
    (hexDigit? c).map fun d =>
      let value := value * 16 + d
      if digits = 3 then
        let next := unit text value high
        { r with expecting := .quoted isKey next.1 next.2 }
      else { r with expecting := .quoted isKey text (.unicode (digits + 1) value high) }
  | .pair high =>
    if c = '\\' then some { r with expecting := .quoted isKey text (.pairEscape high) }
    else r.stepPlainQuote? isKey none c
  | .pairEscape high =>
    if c = 'u' then some { r with expecting := .quoted isKey text (.unicode 0 0 (some high)) }
    else r.stepEscape? isKey none c

/-- Takes in one character where no word, number or string is under way. -/
def stepPlain? (r : Reader) (c : Char) : Option Reader :=
  if isBlank c then some r
  else match r.expecting with
    | .value => r.openValue? c
    | .firstItem => if c = ']' then r.close? c else r.openValue? c
    | .firstKey =>
      if c = '\x7d' then r.close? c
      else if c = '"' then some { r with expecting := .quoted true (some []) .plain } else none
    | .key => if c = '"' then some { r with expecting := .quoted true (some []) .plain } else none
    | .colon => if c = ':' then some { r with expecting := .value } else none
    | .separator =>
      if c = ',' then
        match r.stack with
        | .object .. :: _ => some { r with expecting := .key }
        | _ => some { r with expecting := .value }
      else r.close? c
    | _ => none

/-- Takes in one character, if the document may go on with it. -/
def step? (r : Reader) (c : Char) : Option Reader :=
  match r.expecting with
  | .quoted isKey text state => r.stepString? isKey text c state
  | .word [] _ => none
  | .word [x] v => if c = x then some (r.complete v) else none
  | .word (x :: rest) v => if c = x then some { r with expecting := .word rest v } else none
  | .number n =>
    match n.push? c with
    | some n => some { r with expecting := .number n }
    -- Only the character after a number tells that the number has ended.
    | none => n.value?.bind fun v => (r.complete v).stepPlain? c
  | _ => r.stepPlain? c

def run? : Reader → List Char → Option Reader
  | r, [] => some r
  | r, c :: rest => (r.step? c).bind (run? · rest)

/-- The document, if it is complete. -/
def finish? (r : Reader) : Option Json :=
  match r.expecting, r.stack with
  | .nothing, _ => r.result
  | .number n, [] => n.value?
  | _, _ => none

end Reader

/-- The value that a text is a document of. -/
def parse? (text : String) : Option Json := (Reader.start.run? text.toList).bind (·.finish?)

end Highlighter.Json
