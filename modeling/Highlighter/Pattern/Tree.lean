import Highlighter.Pattern.CharClass

/-! The syntax of a pattern: literal text, tests of one character, positions, groups, repetitions,
sequences and alternatives. -/

namespace Highlighter.Pattern

/-- A condition on a place in the text that consumes nothing. -/
inductive Anchor
  | textStart
  | textEnd
  /-- The end of the text, or before a line break that ends it. -/
  | lastLineEnd
  /-- The start of the text, or after a line break that does not end it. -/
  | lineStart
  /-- The end of the text, or before a line break. -/
  | lineEnd
  /-- Between a character of a name and none, or its negation. -/
  | wordBoundary (negated : Bool)
  deriving DecidableEq, Repr

/-- How often a part may be repeated, and whether more repetitions are tried before fewer. -/
structure Quantifier where
  lower : Nat
  upper : Option Nat
  greedy : Bool
  deriving DecidableEq, Repr

/-- A pattern as it is written. `fold` marks the parts that disregard case. -/
inductive Tree
  | literal (chars : List Char) (fold : Bool)
  | test (t : CharTest)
  | anchor (a : Anchor)
  /-- The text of the last of these groups that has been matched. -/
  | backreference (groups : List Nat) (byName fold : Bool)
  /-- A group that remembers its text. -/
  | capture (index : Nat) (named : Bool) (body : Tree)
  /-- A group that gives nothing back once it has matched. -/
  | atomic (body : Tree)
  /-- A group that only sets options for its body. -/
  | scope (body : Tree)
  /-- A condition on what follows, or on what precedes if `behind`. -/
  | look (behind negated : Bool) (body : Tree)
  | repeated (q : Quantifier) (body : Tree)
  | sequence (parts : List Tree)
  | alternatives (branches : List Tree)
  deriving Repr

namespace Quantifier

/-- The six quantifiers that are written with one sign. -/
inductive Sign
  | optional
  | any
  | some
  | lazyOptional
  | lazyAny
  | lazySome
  deriving DecidableEq, Repr

def ofSign : Sign → Quantifier
  | .optional => ⟨0, Option.some 1, true⟩
  | .any => ⟨0, none, true⟩
  | .some => ⟨1, none, true⟩
  | .lazyOptional => ⟨0, Option.some 1, false⟩
  | .lazyAny => ⟨0, none, false⟩
  | .lazySome => ⟨1, none, false⟩

/-- The sign of a quantifier, if one sign writes it. -/
def sign? (q : Quantifier) : Option Sign :=
  match q.lower, q.upper, q.greedy with
  | 0, Option.some 1, true => Option.some .optional
  | 0, none, true => Option.some .any
  | 1, none, true => Option.some .some
  | 0, Option.some 1, false => Option.some .lazyOptional
  | 0, none, false => Option.some .lazyAny
  | 1, none, false => Option.some .lazySome
  | _, _, _ => none

/-- What a quantifier directly on a quantified part comes to. -/
inductive Nesting
  /-- Both stay. -/
  | both
  /-- One quantifier stands for the two. -/
  | single (q : Quantifier)
  /-- Both are replaced. -/
  | replaced (outer inner : Quantifier)
  deriving DecidableEq, Repr

/-- Two signs, the inner one first, merge into one wherever a single sign repeats as often; a lazy
inner sign decides how eagerly the merged one repeats. -/
def nestSigns : (inner outer : Sign) → Nesting
  | .optional, .optional => .single (ofSign .optional)
  | .optional, .any => .single (ofSign .any)
  | .optional, .some => .single (ofSign .any)
  | .optional, .lazyOptional => .single (ofSign .lazyOptional)
  | .optional, .lazyAny => .single (ofSign .lazyAny)
  | .optional, .lazySome => .both
  | .any, .lazyOptional => .replaced (ofSign .lazyOptional) (ofSign .some)
  | .any, .lazyAny => .replaced (ofSign .lazyOptional) (ofSign .some)
  | .any, _ => .single (ofSign .any)
  | .some, .optional => .single (ofSign .any)
  | .some, .any => .single (ofSign .any)
  | .some, .some => .single (ofSign .some)
  | .some, .lazyOptional => .both
  | .some, .lazyAny => .replaced (ofSign .lazyOptional) (ofSign .some)
  | .some, .lazySome => .single (ofSign .some)
  | .lazyOptional, .optional => .single (ofSign .lazyOptional)
  | .lazyOptional, .lazyOptional => .single (ofSign .lazyOptional)
  | .lazyOptional, _ => .single (ofSign .lazyAny)
  | .lazyAny, _ => .single (ofSign .lazyAny)
  | .lazySome, .optional => .both
  | .lazySome, .any => .replaced (ofSign .optional) (ofSign .lazySome)
  | .lazySome, .some => .single (ofSign .lazySome)
  | .lazySome, .lazyOptional => .single (ofSign .lazyAny)
  | .lazySome, .lazyAny => .single (ofSign .lazyAny)
  | .lazySome, .lazySome => .single (ofSign .lazySome)

/-- What `outer` on a part quantified by `inner` comes to. Exact counts multiply, and a bounded
greedy count of a part that is repeated without bound need not exceed its minimum. -/
def nest (inner outer : Quantifier) : Nesting :=
  match inner.sign?, outer.sign? with
  | Option.some a, Option.some b => nestSigns a b
  | a, b =>
    let bounded : Quantifier :=
      match a, b, outer.upper with
      | Option.some .any, none, Option.some upper | Option.some .some, none, Option.some upper =>
        if upper > 1 ∧ outer.greedy then
          { outer with upper := Option.some (if outer.lower = 0 then 1 else outer.lower) }
        else outer
      | _, _, _ => outer
    if inner.upper = Option.some inner.lower ∧ bounded.upper = Option.some bounded.lower then
      .single { bounded with lower := inner.lower * bounded.lower,
                             upper := Option.some (inner.lower * bounded.lower) }
    else if bounded = outer then .both
    else .replaced bounded inner

end Quantifier

namespace Tree

/-- The pattern that matches the empty text. -/
def empty : Tree := .literal [] false

/-- `q` applied to a part. A part that is itself quantified may merge with it. -/
def quantify (q : Quantifier) : Tree → Tree
  | .repeated inner body =>
    match Quantifier.nest inner q with
    | .both => .repeated q (.repeated inner body)
    | .single merged => .repeated merged body
    | .replaced outer inner => .repeated outer (.repeated inner body)
  | t => .repeated q t

/-- Joins neighbouring literals that agree on case. -/
def joinLiterals : List Tree → List Tree
  | [] => []
  | .literal a f :: rest =>
    match joinLiterals rest with
    | .literal b g :: rest' => if f = g then .literal (a ++ b) f :: rest' else
        .literal a f :: .literal b g :: rest'
    | rest' => .literal a f :: rest'
  | t :: rest => t :: joinLiterals rest

/-- The parts that a sequence contributes when it stands inside another, but not at its head. -/
def parts : Tree → List Tree
  | .sequence ts => ts
  | t => [t]

/-- The tree of a branch from its parts in order. -/
def ofParts : List Tree → Tree
  | [] => empty
  | [t] => t
  | t :: ts =>
    match joinLiterals (t :: ts.flatMap parts) with
    | [u] => u
    | us => .sequence us

/-- The tree of one or more branches. -/
def ofBranches : List Tree → Tree
  | [t] => t
  | ts => .alternatives ts

end Tree

end Highlighter.Pattern
