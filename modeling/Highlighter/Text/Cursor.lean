/-! A place between two characters of a text. Moving a cursor never copies the text, and the count
of bytes before it is part of the cursor, so that places are reported as byte offsets. -/

namespace Highlighter.Text

/-- The number of bytes that characters take in UTF-8. -/
def byteLength : List Char → Nat
  | [] => 0
  | c :: cs => c.utf8Size + byteLength cs

/-- A place in a text: the characters before it, nearest first, the characters after it, and the
number of bytes before it. -/
structure Cursor where
  before : List Char
  after : List Char
  offset : Nat
  offset_eq : offset = byteLength before
  deriving DecidableEq

namespace Cursor

def start (text : List Char) : Cursor := ⟨[], text, 0, rfl⟩

/-- The place past the next character, which stays put at the end of the text. -/
def advance (c : Cursor) : Cursor :=
  match c with
  | ⟨_, [], _, _⟩ => c
  | ⟨before, x :: after, offset, h⟩ =>
    ⟨x :: before, after, offset + x.utf8Size, by simp [byteLength, h, Nat.add_comm]⟩

/-- The place before the previous character, if there is one. -/
def back? (c : Cursor) : Option Cursor :=
  match c with
  | ⟨[], _, _, _⟩ => none
  | ⟨x :: before, after, offset, h⟩ =>
    some ⟨before, x :: after, offset - x.utf8Size, by simp [byteLength] at h; omega⟩

/-- The place `n` characters earlier, if there are so many. -/
def backBy? : Nat → Cursor → Option Cursor
  | 0, c => some c
  | n + 1, c => c.back?.bind (backBy? n)

def previous? (c : Cursor) : Option Char := c.before.head?

def next? (c : Cursor) : Option Char := c.after.head?

def atEnd (c : Cursor) : Bool := c.after.isEmpty

/-- The place past `expected`, if the text goes on with it. -/
def past? (c : Cursor) : List Char → Option Cursor
  | [] => some c
  | x :: expected => if c.next? = some x then c.advance.past? expected else none

/-- The first place at or after the cursor with at least `offset` bytes before it. -/
def seek (offset : Nat) (c : Cursor) : Cursor := go c.after c
where
  /-- Walks over `rest`, the characters after the cursor. -/
  go : List Char → Cursor → Cursor
    | [], c => c
    | _ :: rest, c => if offset ≤ c.offset then c else go rest c.advance

/-- The place past the last character. -/
def toEnd (c : Cursor) : Cursor := c.after.foldl (fun c _ => c.advance) c

end Cursor

/-- The first characters of a text, as many as fit into `bytes` bytes. -/
def takeBytes : Nat → List Char → List Char
  | _, [] => []
  | bytes, c :: cs => if c.utf8Size ≤ bytes then c :: takeBytes (bytes - c.utf8Size) cs else []

/-- A stretch of a text between two places. -/
structure Span where
  start : Cursor
  stop : Cursor
  deriving DecidableEq

namespace Span

/-- The bytes that a span covers. -/
def length (s : Span) : Nat := s.stop.offset - s.start.offset

def chars (s : Span) : List Char := takeBytes s.length s.start.after

def text (s : Span) : String := String.ofList s.chars

def isEmpty (s : Span) : Bool := s.start.offset == s.stop.offset

end Span

end Highlighter.Text
