import Highlighter.Scan.Tokenizer

/-! Scans that check each access. A `RawScan` keeps the root on its stack and byte offsets for
places, and whatever it reads of a table, of the stack or of the text it looks up first: it fails
where there is no such entry, or where a text is cut behind its end or within a character. -/

namespace Highlighter

open Text Pattern

/-! ### Texts -/

namespace Text

/-- The place at a byte offset. There is none behind the text and none within a character. -/
def Cursor.at? (text : List Char) (n : Nat) : Option Cursor :=
  let c := (start text).seek n
  if c.offset = n then some c else none

/-- The characters between two byte offsets, which have to be places in order. -/
def slice? (text : List Char) (start stop : Nat) : Option (List Char) := do
  let c ← Cursor.at? text start
  let d ← Cursor.at? text stop
  if start ≤ stop then some (Span.mk c d).chars else none

/-- The byte offset past the character at a place, if one follows. -/
def nextBoundary? (text : List Char) (n : Nat) : Option (Option Nat) := do
  let rest ← slice? text n (byteLength text)
  return rest.head?.map fun c => n + c.utf8Size

end Text

/-! ### Words -/

namespace KeywordIndex

/-- The words of the table in a buffer from a byte offset on, for which there are fewer
searches than `searches`. -/
def hitsFrom? (k : KeywordIndex) (buffer : List Char) :
    (searches : Nat) → Nat → Option (List Hit)
  | 0, _ => none
  | searches + 1, n => do
    let c ← Cursor.at? buffer n
    match k.regex.find? c with
    | none => return []
    | some ⟨start, stop⟩ =>
      if start.offset = stop.offset then
        match ← nextBoundary? buffer start.offset with
        | none => return []
        | some next => hitsFrom? k buffer searches next
      else
        let word ← slice? buffer start.offset stop.offset
        let hits ← hitsFrom? k buffer searches stop.offset
        match k.get? (String.ofList word) with
        | none => return hits
        | some data =>
          return ⟨start.offset, stop.offset, k.key (String.ofList word), data⟩ :: hits

/-- The words of the table in a buffer. -/
def hits? (k : KeywordIndex) (buffer : List Char) : Option (List Hit) :=
  k.hitsFrom? buffer (buffer.length + 1) 0

end KeywordIndex

/-! ### The output -/

namespace Output

def categories? (out : Output) : Option (List Category) :=
  out.unclosed.reverse.mapM fun place => (out.regions[place]?).map (·.category)

def emit? (out : Output) (stop : Nat) (innermost : Option Category) : Option Output :=
  if stop ≤ out.position then some out
  else do
    let around ← out.categories?
    let t : Token := ⟨out.position, stop, around ++ innermost.toList⟩
    return { out with tokens := addToken t out.tokens, position := stop }

def addRegion (out : Output) (category : Category) (start stop : Nat) : Output :=
  { out with regions := out.regions.push ⟨category, start, stop, out.unclosed.length⟩ }

def emitHits? (out : Output) (offset : Nat) (hits : List Hit) : Option Output :=
  hits.foldlM (fun out h => do
    let out ← out.emit? (offset + h.start) none
    let out := out.addRegion h.data.category (offset + h.start) (offset + h.stop)
    let out ← out.emit? (offset + h.stop) (some h.data.category)
    return out.countHit h.key h.data.relevance) out

/-- Closes the region of a frame, if it has one, and whatever is open within it. -/
def closeFrame? (out : Output) (frame : Frame) : Option Output :=
  match frame.region with
  | none => some out
  | some place => do
    let _ ← out.regions[place]?
    return { out with
      regions := out.regions.modify place fun r => { r with stop := out.position }
      unclosed :=
        if place ∈ out.unclosed then (out.unclosed.dropWhile (· ≠ place)).tail
          else out.unclosed }

end Output

/-! ### Modes -/

namespace Machine

/-- The pattern at a place that may be absent. -/
def patternAt? (m : Machine) : Option Nat → Option (Option String)
  | none => some none
  | some place => (m.regexes[place]?).map fun r => some r.pattern

/-- The pattern on which a mode ends within a parent that ends on `parent`. -/
def terminatorEnd? (m : Machine) (id : Nat) (parent : Option String) : Option (Option String) := do
  let mode ← m.modes[id]?
  let own ← m.patternAt? mode.closing
  if mode.closesWithParent then
    match own, parent with
    | some own, some parent => return some ("(?:" ++ own ++ ")|(?:" ++ parent ++ ")")
    | none, some parent => return some parent
    | own, none => return own
  else return own

def openingOf? (m : Machine) (child : Nat) : Option (Option (Terminator × String)) := do
  let mode ← m.modes[child]?
  let opening ← m.patternAt? mode.opening
  return opening.map (.opening child, ·)

def terminators? (m : Machine) (id : Nat) (closing : Option String) :
    Option (List (Terminator × String)) := do
  let mode ← m.modes[id]?
  let openings ← mode.contains.mapM m.openingOf?
  let illegal ← m.patternAt? mode.illegal
  return (openings.filterMap fun opening => opening) ++ (closing.map (.closing, ·)).toList ++
    (illegal.map (.illegal, ·)).toList

def terminatorSet? (m : Machine) (id : Nat) (closing : Option String) :
    Option (Except TokenizeError TerminatorSet) := do
  let terminators ← m.terminators? id closing
  let programs : Except PatternError TerminatorSet := terminators.mapM fun t => do
    return (t.1, ← Pattern.compile ⟨m.caseInsensitive, true⟩ (asciiClasses t.2).toList)
  return programs.mapError (.terminators terminators.length)

/-- Whether the own end of a mode matches at a byte offset. -/
def closesAt? (m : Machine) (mode : Mode) (text : List Char) (n : Nat) : Option Bool :=
  match mode.closing with
  | none => some false
  | some place => do
    let regex ← m.regexes[place]?
    let c ← Cursor.at? text n
    return (regex.matchAt? c).isSome

/-- The mode of the frame that has `depth` frames below it. -/
def modeAt? (m : Machine) (stack : List Frame) (depth : Nat) : Option Mode := do
  let frame ← stack.reverse[depth]?
  m.modes[frame.mode]?

/-- The depth of the outermost frame that ends along with the one at a depth. -/
def closingDepth? (m : Machine) (stack : List Frame) : Nat → Option Nat
  | 0 => some 0
  | depth + 1 =>
    if depth = 0 then some 1
    else do
      let mode ← m.modeAt? stack (depth + 1)
      if mode.closesParent then closingDepth? m stack depth else return depth + 1

/-- The depth of the outermost frame that an end at a byte offset closes, if the end belongs to the
frame at a depth or to one below that. -/
def endDepth? (m : Machine) (text : List Char) (n : Nat) (stack : List Frame) :
    Nat → Option (Option Nat)
  | 0 => do
    let mode ← m.modeAt? stack 0
    if ← m.closesAt? mode text n then return some 0 else return none
  | depth + 1 => do
    let mode ← m.modeAt? stack (depth + 1)
    if ← m.closesAt? mode text n then (m.closingDepth? stack (depth + 1)).map some
    else if mode.closesWithParent ∧ depth ≠ 0 then endDepth? m text n stack depth
    else return none

/-- Closes the frames of a stack from a depth on, but never the root. -/
def popTo? (m : Machine) (depth : Nat) : List Frame → Output → Option (List Frame × Output)
  | [], out => some ([], out)
  | frame :: rest, out =>
    if depth < rest.length + 1 ∧ rest ≠ [] then do
      let out ← out.closeFrame? frame
      let mode ← m.modes[frame.mode]?
      popTo? m depth rest (out.addRelevance mode.relevance)
    else some (frame :: rest, out)

def flush? (m : Machine) (text : List Char) (id stop : Nat) (out : Output) : Option Output :=
  if stop ≤ out.position then some out
  else do
    let mode ← m.modes[id]?
    match mode.keywords with
    | none => out.emit? stop none
    | some place =>
      let index ← m.keywordSets[place]?
      let buffer ← slice? text out.position stop
      let hits ← index.hits? buffer
      let emitted ← out.emitHits? out.position hits
      emitted.emit? stop none

end Machine

/-- Closes all frames of a stack but the root. -/
def Output.closeAbove? : List Frame → Output → Option Output
  | [], out => some out
  | frame :: rest, out =>
    if rest ≠ [] then do
      let out ← out.closeFrame? frame
      closeAbove? rest out
    else some out

/-! ### Scans -/

/-- A scan whose stack has the root on it, and whose places are byte offsets. -/
structure RawScan where
  /-- The open modes, the innermost first and the root last. -/
  stack : List Frame
  output : Output
  place : Nat
  lastOpening : Option Nat

namespace RawScan

def start : RawScan := ⟨[.root], {}, 0, none⟩

variable (m : Machine) (text : List Char)

/-- Opens a mode whose opening lexeme lies between two byte offsets. -/
def openMode? (id start stop : Nat) (s : RawScan) : Option RawScan := do
  let mode ← m.modes[id]?
  let top ← s.stack.head?
  let out ← m.flush? text top.mode (if mode.excludeOpening then stop else start) s.output
  let closing ← m.terminatorEnd? id top.closing
  let place := if mode.returnOpening && !mode.excludeOpening then start else stop
  match mode.category with
  | none => return ⟨⟨id, closing, none⟩ :: s.stack, out, place, some start⟩
  | some category =>
    let region := out.regions.size
    let out := out.addRegion category out.position out.position
    return ⟨⟨id, closing, some region⟩ :: s.stack,
      { out with unclosed := region :: out.unclosed }, place, some start⟩

/-- Closes modes by the closing lexeme between two byte offsets, unless it belongs to no open
mode. -/
def closeModes? (start stop : Nat) (s : RawScan) : Option (Option RawScan) := do
  match ← m.endDepth? text start s.stack (s.stack.length - 1) with
  | none => return none
  | some depth =>
    let top ← s.stack.head?
    let mode ← m.modes[top.mode]?
    let out ← m.flush? text mode.id
      (if mode.returnClosing || mode.excludeClosing then start else stop) s.output
    let (stack, out) ← m.popTo? depth s.stack out
    return some ⟨stack, out, if mode.returnClosing then start else stop, none⟩

def finish? (s : RawScan) : Option Tokens := do
  let top ← s.stack.head?
  let out ← m.flush? text top.mode (byteLength text) s.output
  let out ← out.closeAbove? s.stack
  return out.finish

def pass? (count start stop : Nat) (s : RawScan) :
    Option ((Nat × RawScan) ⊕ Except TokenizeError Tokens) := do
  if start < stop then return .inl (count + 1, { s with place := stop, lastOpening := none })
  else match ← nextBoundary? text start with
    | some next => return .inl (count + 1, { s with place := next, lastOpening := none })
    | none => return .inr (.ok (← s.finish? m text))

def take? (count : Nat) (found : Match) (s : RawScan) :
    Option ((Nat × RawScan) ⊕ Except TokenizeError Tokens) := do
  let start := found.span.start.offset
  let stop := found.span.stop.offset
  if count > patience ∧ count > start * 3 then return .inr (.error (.runaway start))
  else
    match found.terminator with
    | .opening id => return .inl (count + 1, ← s.openMode? m text id start stop)
    | .illegal => return .inr (.error (.illegal start (String.ofList (← slice? text start stop))))
    | .closing =>
      let stalled := s.lastOpening = some start ∧ start = stop
      match ← if stalled then some none else s.closeModes? m text start stop with
      | some next => return .inl (count + 1, next)
      | none => s.pass? m text count start stop

/-- One turn of a scan, which searches for one terminator. -/
def turn? : Nat × RawScan → Option ((Nat × RawScan) ⊕ Except TokenizeError Tokens)
  | (count, s) => do
    let top ← s.stack.head?
    match ← m.terminatorSet? top.mode top.closing with
    | .error e => return .inr (.error e)
    | .ok set =>
      match set.find? (← Cursor.at? text s.place) with
      | none => return .inr (.ok (← s.finish? m text))
      | some found => s.take? m text count found

/-- One turn of a scan, which leaves with nothing where an access fails. -/
def turn (s : Nat × RawScan) : (Nat × RawScan) ⊕ Option (Except TokenizeError Tokens) :=
  match turn? m text s with
  | none => .inr none
  | some (.inl next) => .inl next
  | some (.inr answer) => .inr (some answer)

end RawScan

end Highlighter
