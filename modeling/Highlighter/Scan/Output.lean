import Highlighter.Dict
import Highlighter.Scan.Tokens

/-! The regions and tokens of a text while it is scanned. Text is emitted from left to right;
whatever is emitted lies in the regions that are open at that time. -/

namespace Highlighter

/-- What has been emitted so far. -/
structure Output where
  /-- All regions in the order in which they open, empty ones included. An open region stops where
  it starts until it is closed. -/
  regions : Array Region := #[]
  /-- The places of the open regions among `regions`, the innermost first. -/
  unclosed : List Nat := []
  /-- The tokens, the last one first. -/
  tokens : List Token := []
  /-- Everything before this byte offset has been emitted. -/
  position : Nat := 0
  relevance : UInt32 := 0
  /-- How often each word has been found. No count exceeds the bytes of the text, so that the counts
  are those of a counter of 32 bits as long as the text has fewer than `2^32` bytes. -/
  hits : Dict Nat := .empty

/-- A word speaks for the language only so many times. -/
def hitLimit : Nat := 7

namespace Output

def depth (out : Output) : Nat :=
  match out.unclosed with
  | [] => 0
  | place :: _ => (out.regions.getD place default).depth + 1

/-- The categories of the open regions, the outermost first. -/
def categories (out : Output) : List Category :=
  out.unclosed.reverse.filterMap fun place => (out.regions[place]?).map (·.category)

def addToken (t : Token) : List Token → List Token
  | [] => [t]
  | last :: rest =>
    if last.stop = t.start ∧ last.categories = t.categories then
      { last with stop := t.stop } :: rest
    else t :: last :: rest

/-- Emits the text up to `stop` within the open regions and within `innermost`, if that is given. -/
def emit (out : Output) (stop : Nat) (innermost : Option Category) : Output :=
  if stop ≤ out.position then out
  else
    let t : Token := ⟨out.position, stop, out.categories ++ innermost.toList⟩
    { out with tokens := addToken t out.tokens, position := stop }

/-- Opens a region where the emitted text ends. -/
def openRegion (out : Output) (category : Category) : Output :=
  let region : Region := ⟨category, out.position, out.position, out.depth⟩
  let place := out.regions.size
  { out with regions := out.regions.push region, unclosed := place :: out.unclosed }

/-- Closes a region where the emitted text ends. -/
def closeRegion (out : Output) (place : Nat) : Output :=
  let stop := out.position
  { out with
    regions := out.regions.modify place fun r => { r with stop }
    unclosed := out.unclosed.erase place }

def addRelevance (out : Output) (n : UInt32) : Output := { out with relevance := out.relevance + n }

/-- Counts a word, whose relevance is added the first few times. -/
def countHit (out : Output) (word : String) (n : UInt32) : Output :=
  let count := (out.hits.get? word).getD 0 + 1
  let out := { out with hits := out.hits.insert word count }
  if count ≤ hitLimit then out.addRelevance n else out

/-- Emits the text up to `start`, and from there to `stop` as a region of its own. -/
def emitKeyword (out : Output) (start stop : Nat) (category : Category) : Output :=
  let out := out.emit start none
  let region : Region := ⟨category, start, stop, out.depth⟩
  { out with regions := out.regions.push region }.emit stop (some category)

/-- What has been found, once all regions are closed. -/
def finish (out : Output) : Tokens :=
  ⟨out.regions.toList.filter fun r => r.start < r.stop, out.tokens.reverse, out.relevance⟩

end Output

end Highlighter
