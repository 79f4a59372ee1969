import Highlighter.Pattern.Reader
import Highlighter.Pattern.LookBehind
import Highlighter.Pattern.Program

/-! From the text of a pattern to its program. -/

namespace Highlighter.Pattern

namespace Program

mutual

/-- The program of a pattern whose look-behinds are ready; `group` tells the widths of its
groups. -/
def ofTree (group : Nat → Width) : Tree → Program
  | .literal [] _ => nothing
  | .literal [c] _ => test (.char c)
  | .literal chars _ => text chars
  | .test t => test t
  | .anchor a => anchor a
  | .backreference groups _ fold => backreference groups fold
  | .capture index _ body => capture index (ofTree group body)
  | .atomic body => atomic (ofTree group body)
  | .scope body => ofTree group body
  | .look false negated body => ahead negated (ofTree group body)
  | .look true negated body =>
    behind negated (Tree.width group body).min (ofTree group body)
  | .repeated q body => repeated q (ofTree group body)
  | .sequence ts => sequenceOf (ofTrees group ts)
  | .alternatives ts => choiceOf (ofTrees group ts)

def ofTrees (group : Nat → Width) : List Tree → List Program
  | [] => []
  | t :: ts => ofTree group t :: ofTrees group ts

end

end Program

/-- How a pattern is to be read. -/
structure Mode where
  /-- Case is disregarded from the start. -/
  ignoreCase : Bool
  /-- Groups without a name capture even if others have one. -/
  captureAll : Bool
  deriving DecidableEq, Repr

/-- Reads a pattern. Named groups rule out references by number and the capturing of other groups,
unless `captureAll`. -/
def readTree (mode : Mode) (pattern : List Char) : Except PatternError Tree := do
  let r ← (Reader.start ⟨mode.ignoreCase, false, false⟩).run pattern.length pattern
  let tree ← r.finish
  let references := tree.references
  let onlyNamed := !r.names.isEmpty && !mode.captureAll
  if onlyNamed && references.any (·.2) then throw .numberedBackreference
  if references.any fun entry => entry.1 > r.captures then throw .unknownBackreference
  return if onlyNamed then tree.dropUnnamed else tree

/-- The program of a pattern, or what is wrong with it. -/
def compile (mode : Mode) (pattern : List Char) : Except PatternError Program := do
  let tree := (← readTree mode pattern).unfold false
  let groups := tree.groups
  let group (index : Nat) : Width :=
    match groups.lookup index with
    | some body => body.width fun _ => .unknown
    | none => .unknown
  return .ofTree group (← tree.arrange group (tree.references.map (·.1)))

end Highlighter.Pattern
