import Highlighter.Pattern.Tree

/-! Patterns that disregard case, spelled out: literal text becomes tests that admit every case of
its characters, and a character whose folding has several characters also admits those, and they
it. -/

namespace Highlighter.Pattern

open Highlighter.Text

namespace Tree

/-- Any case of one character. -/
def anyCase (c : Char) : Tree :=
  if caseVariants c = [] then .literal [c] false
  else .test (.folded ⟨.range c.toNat c.toNat, false⟩)

def eachCase (cs : List Char) : Tree := ofParts (cs.map anyCase)

/-- The character's folding, if that is one character, else the character. -/
def simpleFold (c : Char) : Char :=
  match foldCase c with
  | [d] => d
  | _ => c

/-- Some characters in any case, or one of the characters that fold to them. -/
def unit (cs : List Char) : Option Tree :=
  match unfoldCase (cs.map simpleFold) with
  | [] => none
  | whole => some (.alternatives (eachCase cs :: whole.map fun c => .literal [c] false))

/-- One character in any case, or its folding if that has several characters. -/
def single (c : Char) : Tree :=
  match foldCase c with
  | [_] => anyCase c
  | folding => .alternatives [anyCase c, eachCase folding]

/-- Literal text in any case. The text is divided from the left into the longest stretches, of three
characters or two, that are the folding of one character; all else goes by single characters. -/
def foldLiteral : List Char → List Tree
  | [] => []
  | [a] => [single a]
  | [a, b] =>
    match unit [a, b] with
    | some t => [t]
    | none => [single a, single b]
  | a :: b :: c :: rest =>
    match unit [a, b, c] with
    | some t => t :: foldLiteral rest
    | none =>
      match unit [a, b] with
      | some t => t :: foldLiteral (c :: rest)
      | none => single a :: foldLiteral (b :: c :: rest)

/-- A class in any case: a member, or the folding of a member that folds to several characters. A
negated class stands for single characters only. -/
def foldClass (k : CharClass) : Tree :=
  let t := CharTest.folded k
  if k.negated then .test t
  else
    match (expandingFolds.filter fun entry => t.has entry.1).map fun entry => eachCase entry.2 with
    | [] => .test t
    | longer => .alternatives (.test t :: longer)

mutual

/-- A pattern with every literal and class that disregards case spelled out. Under a look-behind,
text stays as long as it is written. -/
def unfold (behind : Bool) : Tree → Tree
  | .literal chars true =>
    if behind then eachCase chars else ofParts (foldLiteral chars)
  | .literal chars false => .literal chars false
  | .test (.folded k) => foldClass k
  | .test t => .test t
  | .anchor a => .anchor a
  | .backreference groups byName fold => .backreference groups byName fold
  | .capture index named body => .capture index named (unfold behind body)
  | .atomic body => .atomic (unfold behind body)
  | .scope body => .scope (unfold behind body)
  | .look b negated body => .look b negated (unfold (behind || b) body)
  | .repeated q body => .repeated q (unfold behind body)
  | .sequence ts => .sequence (unfoldAll behind ts)
  | .alternatives ts => .alternatives (unfoldAll behind ts)

def unfoldAll (behind : Bool) : List Tree → List Tree
  | [] => []
  | t :: ts => unfold behind t :: unfoldAll behind ts

end

end Tree

end Highlighter.Pattern
