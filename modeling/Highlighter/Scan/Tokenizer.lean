import Highlighter.Memo
import Highlighter.Scan.State

/-! Scanning texts. The text between terminators is emitted in the innermost open mode; a terminator
opens a mode, closes some, or shows that the text is not in the language. What has been compiled for
one text is kept for those after it. -/

namespace Highlighter

open Text

/-- The terminators of a mode, named by the mode and the pattern it ends on. -/
def Machine.setOf (m : Machine) (key : Nat × Option String) : Except TokenizeError TerminatorSet :=
  m.terminatorSet key.1 key.2

/-- What a candidate for a word of the keyword table at a place looks like, if there is a table. -/
def Machine.wordRegex? (m : Machine) (place : Nat) : Option Regex :=
  (m.keywordSets[place]?).map fun index => .ofPattern index.regex.pattern index.regex.ignoreCase

/-- A scanner by a machine: it keeps the terminator sets and the regular expressions of keyword
tables that have been searched for so far. -/
abbrev Tokenizer (m : Machine) := Memo m.setOf × Memo m.wordRegex?

/-- From this many terminators on, a scan has to move forward. -/
def patience : Nat := 100000

namespace Scan

/-- Takes in the terminator that has been found as the `count`th. -/
def take (m : Machine) (count : Nat) (found : Match) (s : Scan) : Outcome :=
  let start := found.span.start.offset
  if count > patience ∧ count > start * 3 then .fails (.runaway start)
  else
    -- An opening is remembered up to the next terminator only.
    let lastOpening := s.lastOpening
    let s := { s with lastOpening := none }
    match found.terminator with
    | .opening id => .goesOn { s.openMode m id found.span with lastOpening := some start }
    | .illegal => .fails (.illegal start found.span.text)
    | .closing => s.close m found.span lastOpening

end Scan

namespace Tokenizer

variable {m : Machine}

def fresh (m : Machine) : Tokenizer m := (.empty, .empty)

/-- The terminators of a frame. Those that do not compile are not kept. -/
def setOf (t : Tokenizer m) (frame : Frame) : Except TokenizeError TerminatorSet × Tokenizer m :=
  let (set, sets) := t.1.get Except.isOk (frame.mode, frame.closing)
  (set, sets, t.2)

def hits (t : Tokenizer m) (id : Nat) (text : List Char) : List Hit × Tokenizer m :=
  match (m.mode id).keywords with
  | none => ([], t)
  | some place =>
    let (regex?, regexes) := t.2.get Option.isSome place
    let hits := match m.keywordSets[place]?, regex? with
      | some index, some regex => (regex.allMatches text).filterMap index.hit?
      | _, _ => []
    (hits, t.1, regexes)

def flush (t : Tokenizer m) (id : Nat) (stop : Cursor) (s : Scan) : Scan × Tokenizer m :=
  if stop.offset ≤ s.pending.offset then (s, t)
  else
    let start := s.pending.offset
    let (hits, t) := t.hits id (Span.mk s.pending stop).chars
    ({ s with output := (s.output.emitHits start hits).emit stop.offset none, pending := stop }, t)

def openMode (t : Tokenizer m) (id : Nat) (found : Span) (s : Scan) : Scan × Tokenizer m :=
  let top := s.top
  let (s, t) := t.flush top.mode (if (m.mode id).excludeOpening then found.stop else found.start) s
  (s.enter m id top found, t)

def closeModes (t : Tokenizer m) (closed kept : List Frame) (found : Span) (s : Scan) :
    Scan × Tokenizer m :=
  let mode := m.mode s.top.mode
  let stop := if mode.returnClosing || mode.excludeClosing then found.start else found.stop
  let (s, t) := t.flush s.top.mode stop s
  (s.leave m closed kept mode found, t)

def close (t : Tokenizer m) (found : Span) (lastOpening : Option Nat) (s : Scan) :
    Outcome × Tokenizer m :=
  if lastOpening = some found.start.offset ∧ found.isEmpty then (s.pass found, t)
  else match m.partAt? found.start s.frames with
    | some (closed, kept) =>
      let (s, t) := t.closeModes closed kept found s
      (.goesOn s, t)
    | none => (s.pass found, t)

def take (t : Tokenizer m) (count : Nat) (found : Match) (s : Scan) : Outcome × Tokenizer m :=
  let start := found.span.start.offset
  if count > patience ∧ count > start * 3 then (.fails (.runaway start), t)
  else
    let lastOpening := s.lastOpening
    let s := { s with lastOpening := none }
    match found.terminator with
    | .opening id =>
      let (s, t) := t.openMode id found.span s
      (.goesOn { s with lastOpening := some start }, t)
    | .illegal => (.fails (.illegal start found.span.text), t)
    | .closing => t.close found.span lastOpening s

/-- Takes one step of a scan, which searches for the `count`th terminator. -/
def step (t : Tokenizer m) (count : Nat) (s : Scan) : Outcome × Tokenizer m :=
  let (set, t) := t.setOf s.top
  match set with
  | .error e => (.fails e, t)
  | .ok set =>
    match set.find? s.place with
    | none => (.ends s, t)
    | some found => t.take count found s

def finish (t : Tokenizer m) (s : Scan) : Tokens × Tokenizer m :=
  let (s, t) := t.flush s.top.mode s.pending.toEnd s
  ((s.frames.foldl Output.closeFrame s.output).finish, t)

/-- Scans on, with `fuel` steps left. -/
def run : (fuel : Nat) → (count : Nat) → Scan → Tokenizer m →
    Except TokenizeError Tokens × Tokenizer m
  | 0, _, s, t => (.error (.runaway s.place.offset), t)
  | fuel + 1, count, s, t =>
    match t.step count s with
    | (.goesOn s, t) => run fuel (count + 1) s t
    | (.ends s, t) =>
      let (found, t) := t.finish s
      (.ok found, t)
    | (.fails e, t) => (.error e, t)

/-- The most steps that a scan takes: in the last one, any terminator is one too many. -/
def stepLimit (text : List Char) : Nat := max patience (byteLength text * 3) + 1

/-- The regions and tokens of a text, or why it has none. -/
def tokenize (t : Tokenizer m) (text : String) : Except TokenizeError Tokens × Tokenizer m :=
  let chars := text.toList
  run (stepLimit chars) 1 (.start chars) t

def tokenizeAll (t : Tokenizer m) : List String → List (Except TokenizeError Tokens)
  | [] => []
  | text :: texts =>
    let (answer, t) := t.tokenize text
    answer :: t.tokenizeAll texts

end Tokenizer

/-- The regions and tokens of a text, or why it has none. -/
def Machine.tokenize (m : Machine) (text : String) : Except TokenizeError Tokens :=
  ((Tokenizer.fresh m).tokenize text).1

end Highlighter
