import Highlighter.Pattern.CharClass
import Highlighter.Pattern.Escape

/-! Reading the classes of a pattern, which may hold ranges, properties, nested classes and
intersections. The members of the class at hand are collected item by item; the last item waits
until it is known whether a range starts with it. -/

namespace Highlighter.Pattern

open Highlighter.Text

/-- An item of a class. -/
inductive ClassToken
  | char (code : Nat)
  | set (s : CharSet)
  | hyphen
  | conjunction
  | opening
  | closing
  | theEnd
  deriving Repr

/-- The text after `[:` runs on, over letters and an optional leading `^`, to `:]`. -/
def bracketName? (cs : List Char) : Option (Bool × List Char × List Char) :=
  let (negated, cs) := match cs with
    | '^' :: rest => (true, rest)
    | _ => (false, cs)
  let name := cs.takeWhile isAsciiLetter
  match cs.drop name.length with
  | ':' :: ']' :: rest => if name.length ≤ 20 then some (negated, name, rest) else none
  | _ => none

/-- A property set or its complement. -/
def propertySet (p : Property) (negated : Bool) : CharSet :=
  if negated then .compl (.property p) else .property p

/-- Reads `name}` after `\p{` or `\P{`. A `^` in front of the name negates once more. -/
def readProperty (negated : Bool) (cs : List Char) : Reading CharSet :=
  let (negated, cs) := match cs with
    | '^' :: rest => (!negated, rest)
    | _ => (negated, cs)
  match propertyName cs with
  | .error e => .error e
  | .ok (name, rest) =>
    match Property.ofName? name with
    | some p => .ok (propertySet p negated, rest)
    | none => .error (.unknownProperty (String.ofList name))

/-- Reads the next item of a class. -/
def classToken : List Char → Reading ClassToken
  | [] => .ok (.theEnd, [])
  | ']' :: rest => .ok (.closing, rest)
  | '-' :: rest => .ok (.hyphen, rest)
  | '&' :: '&' :: rest => .ok (.conjunction, rest)
  | '[' :: ':' :: rest =>
    match bracketName? rest with
    | none => .ok (.opening, ':' :: rest)
    | some (negated, name, rest) =>
      match Property.ofBracket? name with
      | some p => .ok (.set (propertySet p negated), rest)
      | none => .error .unknownBracketClass
  | '[' :: rest => .ok (.opening, rest)
  | ['\\'] => .error .endAtEscape
  | '\\' :: 's' :: rest => .ok (.set (.property .space), rest)
  | '\\' :: 'S' :: rest => .ok (.set (.compl (.property .space)), rest)
  | '\\' :: 'h' :: rest => .ok (.set (.property .hexDigit), rest)
  | '\\' :: 'H' :: rest => .ok (.set (.compl (.property .hexDigit)), rest)
  | '\\' :: 'p' :: '\x7b' :: rest => (readProperty false rest).map fun r => (.set r.1, r.2)
  | '\\' :: 'P' :: '\x7b' :: rest => (readProperty true rest).map fun r => (.set r.1, r.2)
  | '\\' :: c :: rest =>
    if isOctalDigit c then (octalCharacter 3 (c :: rest)).map fun r => (.char r.1, r.2)
    else (escapedCharacter c rest).map fun r => (.char r.1, r.2)
  | c :: rest => .ok (.char c.toNat, rest)

/-- The item of a class that has been read last. -/
inductive Waiting
  | start
  /-- A character, which may start a range. -/
  | char (code : Nat)
  | set
  /-- A character and a hyphen. -/
  | range (low : Nat)
  /-- A range or a nested class. -/
  | complete

/-- A class while it is read: the parts before the last `&&`, the members of the part at hand,
and the item that waits. -/
structure ClassState where
  earlier : Option CharSet
  members : CharSet
  waiting : Waiting

namespace ClassState

def start : ClassState := ⟨none, .empty, .start⟩

def add (s : ClassState) (more : CharSet) : ClassState :=
  { s with members := match s.members with
                      | .empty => more
                      | members => .union members more }

def flush (s : ClassState) : ClassState :=
  match s.waiting with
  | .char code => s.add (.range code code)
  | _ => s

/-- Takes in a character: as the end of a range, or as the item that waits. -/
def char (s : ClassState) (code : Nat) : Except PatternError ClassState :=
  match s.waiting with
  | .range low =>
    if low > code then .error .emptyRange
    else .ok { s.add (.range low code) with waiting := .complete }
  | _ => .ok { s.flush with waiting := .char code }

def set (s : ClassState) (more : CharSet) : Except PatternError ClassState :=
  match s.waiting with
  | .range _ => .error .rangeToClass
  | _ => .ok { (s.add more).flush with waiting := .set }

/-- Takes in a nested class. The start of a range in front of it is dropped. -/
def nested (s : ClassState) (k : CharClass) : ClassState :=
  { s.flush.add k.toSet with waiting := .complete }

/-- The members up to here, cut down to those of the parts before the last `&&`. -/
def total (s : ClassState) : CharSet :=
  match s.earlier with
  | none => s.flush.members
  | some earlier => .inter earlier s.flush.members

/-- Takes in `&&`: a new part starts. -/
def conjunction (s : ClassState) : ClassState := ⟨some s.total, .empty, .start⟩

end ClassState

/-- Greatest nesting of groups and classes. -/
def depthLimit : Nat := 4096

mutual

/-- Reads a class after its opening bracket. `depth` counts the groups and classes around it; `fuel`
bounds the number of items. -/
def readClass (depth : Nat) (fuel : Nat) (cs : List Char) : Reading CharClass :=
  match fuel with
  | 0 => .error .unclosedClass
  | fuel + 1 =>
    if depth ≥ depthLimit then .error .depthLimit
    else
      let (negated, cs) := match cs with
        | '^' :: rest => (true, rest)
        | _ => (false, cs)
      match classToken cs with
      | .error e => .error e
      | .ok (.closing, rest) =>
        if rest.contains ']' then readItems depth fuel negated .start (.char ']'.toNat) rest
        else .error .emptyClass
      | .ok (token, rest) => readItems depth fuel negated .start token rest

/-- Reads items up to the closing bracket; `token` is the item at hand. -/
def readItems (depth fuel : Nat) (negated : Bool) (s : ClassState) (token : ClassToken)
    (rest : List Char) : Reading CharClass :=
  match fuel with
  | 0 => .error .unclosedClass
  | fuel + 1 =>
    let continueWith (s : Except PatternError ClassState) (rest : List Char) : Reading CharClass :=
      match s, classToken rest with
      | .error e, _ => .error e
      | .ok _, .error e => .error e
      | .ok s, .ok (token, rest) => readItems depth fuel negated s token rest
    match token with
    | .closing => .ok (⟨s.total, negated⟩, rest)
    | .theEnd => .error .unclosedClass
    | .char code => continueWith (s.char code) rest
    | .set more => continueWith (s.set more) rest
    | .opening =>
      match readClass (depth + 1) fuel rest with
      | .error e => .error e
      | .ok (k, rest) => continueWith (.ok (s.nested k)) rest
    | .conjunction => continueWith (.ok s.conjunction) rest
    | .hyphen =>
      match s.waiting with
      | .range _ => continueWith (s.char '-'.toNat) rest
      | waiting =>
        match classToken rest with
        | .error e => .error e
        | .ok (next, rest) =>
          let literal : Reading CharClass :=
            match s.char '-'.toNat with
            | .error e => .error e
            | .ok s => readItems depth fuel negated s next rest
          match waiting, next with
          | .char _, .closing | .char _, .conjunction => literal
          | .set, .closing | .set, .conjunction => literal
          | .char low, _ => readItems depth fuel negated { s with waiting := .range low } next rest
          | .set, _ => .error .unmatchedRange
          | _, _ => literal

end

end Highlighter.Pattern
