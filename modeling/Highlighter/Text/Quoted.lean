import Highlighter.Text.Property

/-! A text as it is quoted in messages: between double quotes, with everything escaped that
would not show as itself. -/

namespace Highlighter.Text

/-- The digits of a number in base sixteen, lower case. -/
def hexDigits (n : Nat) : List Char := Nat.toDigits 16 n

/-- The escape that names a character by its code point. -/
def codeEscape (c : Char) : List Char := ['\\', 'u', '\x7b'] ++ hexDigits c.toNat ++ ['\x7d']

/-- A character as it stands between quotes: the common controls, the backslash and the quote have
escapes of two characters; extending marks and characters without a printed form are named by
number; all others stand for themselves. -/
def quoteChar (c : Char) : List Char :=
  match c with
  | '\x00' => ['\\', '0']
  | '\t' => ['\\', 't']
  | '\r' => ['\\', 'r']
  | '\n' => ['\\', 'n']
  | '\\' => ['\\', '\\']
  | '"' => ['\\', '"']
  | _ => if isGraphemeExtend c || isHidden c then codeEscape c else [c]

def quote (s : String) : String :=
  String.ofList ('"' :: s.toList.flatMap quoteChar ++ ['"'])

/-- A character of a path as it stands between quotes: the apostrophe has an escape, too. -/
def quotePathChar (c : Char) : List Char := if c = '\'' then ['\\', '\''] else quoteChar c

def quotePath (path : String) : String :=
  String.ofList ('"' :: path.toList.flatMap quotePathChar ++ ['"'])

end Highlighter.Text
