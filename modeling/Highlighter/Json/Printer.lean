import Highlighter.Json.Basic

/-! Writing JSON documents, on one line or indented. -/

namespace Highlighter.Json

/-- The digits of a control character's escape. -/
def controlEscape (c : Char) : List Char :=
  let digits := Nat.toDigits 16 c.toNat
  ['\\', 'u'] ++ List.replicate (4 - digits.length) '0' ++ digits

/-- A character of a string as it is written. -/
def writeChar (c : Char) : List Char :=
  match c with
  | '"' => ['\\', '"']
  | '\\' => ['\\', '\\']
  | '\x08' => ['\\', 'b']
  | '\x0c' => ['\\', 'f']
  | '\n' => ['\\', 'n']
  | '\r' => ['\\', 'r']
  | '\t' => ['\\', 't']
  | _ => if c.toNat < 0x20 then controlEscape c else [c]

def writeString (s : String) : String :=
  String.ofList ('"' :: s.toList.flatMap writeChar ++ ['"'])

/-- A number that is no plain whole number. -/
def writeDecimal (negative : Bool) (digits : Nat) (exponent : Int) : String :=
  let body :=
    if digits = 0 ∧ exponent = 0 then "0.0" else toString digits ++ "e" ++ toString exponent
  if negative then "-" ++ body else body

mutual

/-- The document on one line, without blanks. -/
def compress : Json → String
  | .null => "null"
  | .bool b => if b then "true" else "false"
  | .integer n => toString n
  | .decimal negative digits exponent => writeDecimal negative digits exponent
  | .string s => writeString s
  | .array items => "[" ++ ",".intercalate (compressItems items) ++ "]"
  | .object members => "\x7b" ++ ",".intercalate (compressMembers members) ++ "\x7d"
  | .unreadable => "null"

def compressItems : List Json → List String
  | [] => []
  | v :: rest => compress v :: compressItems rest

def compressMembers : List (String × Json) → List String
  | [] => []
  | (key, v) :: rest => (writeString key ++ ":" ++ compress v) :: compressMembers rest

end

/-- Blanks at the head of a line. -/
def indentation (depth : Nat) : String := String.ofList (List.replicate (2 * depth) ' ')

/-- Lines between brackets, indented by one step more than the brackets. -/
def block (opening closing : String) (depth : Nat) (lines : List String) : String :=
  match lines with
  | [] => opening ++ closing
  | lines =>
    opening ++ "\n" ++
      ",\n".intercalate (lines.map (indentation (depth + 1) ++ ·)) ++
      "\n" ++ indentation depth ++ closing

mutual

/-- The document with every item and member on a line of its own, indented by two blanks a level. -/
def pretty (depth : Nat) : Json → String
  | .array items => block "[" "]" depth (prettyItems (depth + 1) items)
  | .object members => block "\x7b" "\x7d" depth (prettyMembers (depth + 1) members)
  | v => compress v

def prettyItems (depth : Nat) : List Json → List String
  | [] => []
  | v :: rest => pretty depth v :: prettyItems depth rest

def prettyMembers (depth : Nat) : List (String × Json) → List String
  | [] => []
  | (key, v) :: rest => (writeString key ++ ": " ++ pretty depth v) :: prettyMembers depth rest

end

end Highlighter.Json
