import Highlighter.Scan.Output
import Highlighter.Scan.Terminators
import Highlighter.Scan.Words

/-! The state of a scan: the modes that are open, what has been emitted, and where the scan goes on;
and what a terminator does to it. -/

namespace Highlighter

open Text

/-- A mode that is open. -/
structure Frame where
  mode : Nat
  /-- The pattern on which it ends where it stands. -/
  closing : Option String
  /-- The place of its region, if it has one. -/
  region : Option Nat
  deriving DecidableEq, Repr

/-- The frame of the whole text, which is always open. -/
def Frame.root : Frame := ⟨Machine.root, none, none⟩

/-- A scan of a text. -/
structure Scan where
  /-- The open modes above the root, the innermost first. -/
  frames : List Frame
  output : Output
  pending : Cursor
  /-- Where the next terminator is searched from. -/
  place : Cursor
  /-- Where the last terminator started, if it opened a mode. -/
  lastOpening : Option Nat

/-- What one step of a scan leads to. -/
inductive Outcome
  | goesOn (s : Scan)
  | ends (s : Scan)
  | fails (e : TokenizeError)

namespace Scan

def start (text : List Char) : Scan := ⟨[], {}, .start text, .start text, none⟩

def top (s : Scan) : Frame := s.frames.head?.getD .root

end Scan

namespace Machine

def hits (m : Machine) (id : Nat) (text : List Char) : List Hit :=
  match (m.mode id).keywords.bind (m.keywordSets[·]?) with
  | some index => index.hits text
  | none => []

/-- The mode's own end matches right at `c`. -/
def closesAt (m : Machine) (id : Nat) (c : Cursor) : Bool :=
  ((m.mode id).closing.bind (m.regexes[·]?)).any fun r => (r.matchAt? c).isSome

/-- A frame that goes on top of `parent`. -/
def frameOn (m : Machine) (parent : Frame) (id : Nat) (region : Option Nat) : Frame :=
  ⟨id, m.terminatorEnd id parent.closing, region⟩

/-- Parts the frames at the innermost one that does not close its parent along with itself. -/
def partClosing (m : Machine) : List Frame → List Frame × List Frame
  | [] => ([], [])
  | [frame] => ([frame], [])
  | frame :: parent :: rest =>
    if (m.mode frame.mode).closesParent then
      let (closed, kept) := partClosing m (parent :: rest)
      (frame :: closed, kept)
    else ([frame], parent :: rest)

/-- The frames that an end at `c` closes and those that stay open, if the end belongs to any: to the
innermost one, or to one around it that all between end with. -/
def partAt? (m : Machine) (c : Cursor) : List Frame → Option (List Frame × List Frame)
  | [] => none
  | frame :: rest =>
    -- The mode's own end is tried first, so that an end belongs to the innermost mode that it fits.
    if m.closesAt frame.mode c then some (m.partClosing (frame :: rest))
    else if (m.mode frame.mode).closesWithParent then
      (partAt? m c rest).map fun (closed, kept) => (frame :: closed, kept)
    else none

end Machine

namespace Output

/-- Emits words that have been found in a text that starts at `offset`. -/
def emitHits (out : Output) (offset : Nat) (hits : List Hit) : Output :=
  hits.foldl (fun out h =>
    (out.emitKeyword (offset + h.start) (offset + h.stop) h.data.category).countHit h.key
      h.data.relevance) out

/-- Opens the region of a mode, if it has a category. -/
def openFor (out : Output) (category : Option Category) : Output :=
  match category with
  | some category => out.openRegion category
  | none => out

/-- Closes the region of a frame, if it has one. -/
def closeFrame (out : Output) (frame : Frame) : Output :=
  match frame.region with
  | some region => out.closeRegion region
  | none => out

/-- Closes frames, whose modes speak for the language. -/
def closeFrames (m : Machine) (closed : List Frame) (out : Output) : Output :=
  closed.foldl (fun out frame =>
    (out.closeFrame frame).addRelevance (m.mode frame.mode).relevance) out

end Output

namespace Scan

/-- Emits the text up to `stop` within a mode, whose keywords are looked for in this text alone. -/
def flush (m : Machine) (id : Nat) (stop : Cursor) (s : Scan) : Scan :=
  if stop.offset ≤ s.pending.offset then s
  else
    let start := s.pending.offset
    let hits := m.hits id (Span.mk s.pending stop).chars
    { s with output := (s.output.emitHits start hits).emit stop.offset none, pending := stop }

/-- Enters a mode from the frame `top` by the opening lexeme `found`, once the text before
the mode has been emitted. -/
def enter (m : Machine) (id : Nat) (top : Frame) (found : Span) (s : Scan) : Scan :=
  let mode := m.mode id
  let place := s.output.regions.size
  let region := if mode.category.isSome then some place else none
  { s with
    output := s.output.openFor mode.category
    frames := m.frameOn top id region :: s.frames
    -- A lexeme that is left out of the mode is never scanned again within it.
    place := if mode.returnOpening && !mode.excludeOpening then found.start else found.stop }

/-- Opens a mode whose opening lexeme is `found`. -/
def openMode (m : Machine) (id : Nat) (found : Span) (s : Scan) : Scan :=
  let top := s.top
  let s := s.flush m top.mode (if (m.mode id).excludeOpening then found.stop else found.start)
  s.enter m id top found

/-- Leaves modes by the closing lexeme `found`, once their text has been emitted. -/
def leave (m : Machine) (closed kept : List Frame) (mode : Mode) (found : Span) (s : Scan) : Scan :=
  { s with
    output := .closeFrames m closed s.output
    frames := kept
    place := if mode.returnClosing then found.start else found.stop }

/-- Closes modes, of which the innermost one tells what becomes of the closing lexeme `found`. -/
def closeModes (m : Machine) (closed kept : List Frame) (found : Span) (s : Scan) : Scan :=
  -- The settings of the other modes that close are not looked at.
  let mode := m.mode s.top.mode
  let stop := if mode.returnClosing || mode.excludeClosing then found.start else found.stop
  let s := s.flush m s.top.mode stop
  s.leave m closed kept mode found

/-- Passes over a lexeme that ends no mode. An empty one is passed over with the character after it,
and the scan ends if there is none. -/
def pass (found : Span) (s : Scan) : Outcome :=
  if found.start.offset < found.stop.offset then .goesOn { s with place := found.stop }
  else if found.start.atEnd then .ends s
  else .goesOn { s with place := found.start.advance }

/-- Takes in the end of a mode. A mode does not end right where it has opened, as it would open
again there. -/
def close (m : Machine) (found : Span) (lastOpening : Option Nat) (s : Scan) : Outcome :=
  if lastOpening = some found.start.offset ∧ found.isEmpty then s.pass found
  else match m.partAt? found.start s.frames with
    | some (closed, kept) => .goesOn (s.closeModes m closed kept found)
    | none => s.pass found

/-- What has been found once the text is at its end. Modes that are still open end there, which says
nothing for the language. -/
def finish (m : Machine) (s : Scan) : Tokens :=
  let s := s.flush m s.top.mode s.pending.toEnd
  (s.frames.foldl Output.closeFrame s.output).finish

end Scan

end Highlighter
