import Highlighter.Error
import Highlighter.Grammar.Machine

/-! The terminators of a mode, searched for together. -/

namespace Highlighter

open Text Pattern

/-- What may end the text of a mode, each with its program, the more urgent first. -/
abbrev TerminatorSet := List (Terminator × Program)

/-- A terminator that has been found in a text. -/
structure Match where
  terminator : Terminator
  span : Span

namespace TerminatorSet

def matchAt? (c : Cursor) : TerminatorSet → Option Match
  | [] => none
  | (terminator, program) :: rest =>
    match program.matchFrom c with
    | some stop => some ⟨terminator, ⟨c, stop⟩⟩
    | none => matchAt? c rest

/-- Searches from `c` on, of which `rest` are the characters after it. -/
def search (set : TerminatorSet) : List Char → Cursor → Option Match
  | rest, c =>
    match matchAt? c set, rest with
    | some found, _ => some found
    | none, [] => none
    | none, _ :: rest => search set rest c.advance

/-- The leftmost terminator at or after `c`; of several at the same place, the first of the set. -/
def find? (set : TerminatorSet) (c : Cursor) : Option Match :=
  set.search c.after c

def debug (set : TerminatorSet) : String :=
  "PatternSet(" ++ toString set.length ++ " terminators)"

end TerminatorSet

namespace Machine

/-- The terminators of a mode that resolves to end on `closing`. Groups without a name capture
here even beside named ones. -/
def terminatorSet (m : Machine) (id : Nat) (closing : Option String) :
    Except TokenizeError TerminatorSet :=
  let terminators := m.terminators id closing
  let programs : Except PatternError TerminatorSet := terminators.mapM fun t => do
    return (t.1, ← Pattern.compile ⟨m.caseInsensitive, true⟩ (asciiClasses t.2).toList)
  programs.mapError (.terminators terminators.length)

end Machine

end Highlighter
