import Highlighter.Pattern.Tree
import Highlighter.Text.Cursor

/-! The programs that patterns become, and how they run on a text. A program tries its
choices in order and gives the first one that leads to a match of the whole; `next` is what
remains to be matched after it. -/

namespace Highlighter.Pattern

open Highlighter.Text

/-- A pattern made ready for matching. -/
inductive Program
  | nothing
  | fail
  | test (t : CharTest)
  | text (chars : List Char)
  | anchor (a : Anchor)
  | backreference (groups : List Nat) (fold : Bool)
  | capture (index : Nat) (body : Program)
  | atomic (body : Program)
  /-- What follows matches the body, or does not if `negated`. -/
  | ahead (negated : Bool) (body : Program)
  /-- The `width` characters before match the body, or do not if `negated`. -/
  | behind (negated : Bool) (width : Nat) (body : Program)
  | repeated (q : Quantifier) (body : Program)
  | sequence (first second : Program)
  | choice (first second : Program)
  deriving Repr

/-- What the groups have matched so far, the latest first. -/
abbrev Captures := List (Nat × Span)

/-- A place in the text with what the groups have matched. -/
structure Progress where
  place : Cursor
  captures : Captures

/-- The condition of an anchor at a place. -/
def Anchor.holds (a : Anchor) (c : Cursor) : Bool :=
  match a with
  | .textStart => c.before.isEmpty
  | .textEnd => c.atEnd
  | .lastLineEnd => c.atEnd || c.after == ['\n']
  | .lineStart => c.before.isEmpty || (c.previous? == some '\n' && !c.atEnd)
  | .lineEnd => c.atEnd || c.next? == some '\n'
  | .wordBoundary negated =>
    (c.previous?.any isNameChar != c.next?.any isNameChar) != negated

/-- The place past `expected` in any case: as many characters with the same foldings. There must be
at least as many bytes left as `expected` has. -/
def pastFolded? (expected : List Char) (c : Cursor) : Option Cursor :=
  if byteLength c.after < byteLength expected then none else go expected c
where
  go : List Char → Cursor → Option Cursor
    | [], c => some c
    | x :: expected, c =>
      match c.next? with
      | some y => if foldCase x = foldCase y then go expected c.advance else none
      | none => none

/-- The place past another occurrence of what the first of these groups has matched that matches
here. -/
def pastCapture? (captures : Captures) (fold : Bool) (c : Cursor) : List Nat → Option Cursor
  | [] => none
  | group :: groups =>
    let here := (captures.lookup group).bind fun s =>
      if fold then pastFolded? s.chars c else c.past? s.chars
    here.or (pastCapture? captures fold c groups)

/-- The places that single characters passing `t` lead to from `c`, the nearest first: `c` itself,
and then up to `limit` more. `rest` are the characters after `c`. -/
def reach (t : CharTest) : (limit : Option Nat) → List Char → Cursor → List Cursor
  | some 0, _, c => [c]
  | _, [], c => [c]
  | limit, x :: rest, c =>
    if t.has x then c :: reach t (limit.map (· - 1)) rest c.advance else [c]

/-- Repeats a step. A repetition that matches nothing is the last one, whatever the
counts ask for. `fuel` has more items than characters follow, so that it outlasts all
repetitions that match something. -/
def repeatStep (step : Progress → (Progress → Option Progress) → Option Progress)
    (greedy : Bool) : (fuel : List Char) → (lower : Nat) → Option Nat → Progress →
    (Progress → Option Progress) → Option Progress
  | [], _, _, _, _ => none
  | _ :: fuel, lower, upper, p, next =>
    let more : Unit → Option Progress := fun _ =>
      step p fun p' =>
        if p'.place.offset = p.place.offset then next p'
        else repeatStep step greedy fuel (lower - 1) (upper.map (· - 1)) p' next
    -- A greedy repetition tries to go on before it tries what follows.
    if lower > 0 then more ()
    else if upper = some 0 then next p
    else if greedy then (more ()).or (next p)
    else (next p).or (more ())

namespace Program

/-- Runs a program from a place; `next` decides whether a way through it is a match. -/
def run : Program → Progress → (Progress → Option Progress) → Option Progress
  | nothing, p, next => next p
  | fail, _, _ => none
  | test t, p, next =>
    match p.place.next? with
    | some c => if t.has c then next { p with place := p.place.advance } else none
    | none => none
  | text chars, p, next =>
    match p.place.past? chars with
    | some place => next { p with place }
    | none => none
  | anchor a, p, next => if a.holds p.place then next p else none
  | backreference groups fold, p, next =>
    match pastCapture? p.captures fold p.place groups with
    | some place => next { p with place }
    | none => none
  | capture index body, p, next =>
    run body p fun p' =>
      next { p' with captures := (index, ⟨p.place, p'.place⟩) :: p'.captures }
  | atomic body, p, next =>
    match run body p some with
    | some p' => next p'
    | none => none
  -- What has been captured within a look-around stays captured if it holds.
  | ahead negated body, p, next =>
    match run body p some with
    | some p' => if negated then none else next { p with captures := p'.captures }
    | none => if negated then next p else none
  | behind negated width body, p, next =>
    let found := (p.place.backBy? width).bind fun place => run body { p with place } some
    match found with
    | some p' => if negated then none else next { p with captures := p'.captures }
    | none => if negated then next p else none
  -- One character is like another here, so that the repetitions need not be run within one another.
  | repeated q (test t), p, next =>
    let places := reach t q.upper p.place.after p.place
    let enough := places.drop q.lower
    (if q.greedy then enough.reverse else enough).findSome? fun place => next { p with place }
  | repeated q body, p, next =>
    repeatStep (run body) q.greedy (' ' :: p.place.after) q.lower q.upper p next
  | sequence first second, p, next => run first p fun p' => run second p' next
  | choice first second, p, next => (run first p next).or (run second p next)

/-- The place where the program's first match from `c` ends, if it matches there. -/
def matchFrom (program : Program) (c : Cursor) : Option Cursor :=
  (program.run ⟨c, []⟩ some).map (·.place)

/-- The first place at or after `c` where the program matches, and where its first match from there
ends. `rest` are the characters after `c`. -/
def search (program : Program) : List Char → Cursor → Option Span
  | rest, c =>
    match program.matchFrom c, rest with
    | some stop, _ => some ⟨c, stop⟩
    | none, [] => none
    | none, _ :: rest => search program rest c.advance

def sequenceOf : List Program → Program
  | [] => nothing
  | [p] => p
  | p :: ps => sequence p (sequenceOf ps)

def choiceOf : List Program → Program
  | [] => fail
  | [p] => p
  | p :: ps => choice p (choiceOf ps)

end Program

end Highlighter.Pattern
