import Highlighter.Pattern.Error
import Highlighter.Pattern.Folding

/-! Look-behinds. A look-behind steps back by a number of characters that is known
beforehand, so its body must have one width; only alternatives at its top may differ, and
they are then tried one by one. -/

namespace Highlighter.Pattern

/-- The number of characters that a pattern can match. -/
structure Width where
  min : Nat
  /-- No bound if absent. -/
  max : Option Nat
  /-- The pattern can match with the least width whatever surrounds it. -/
  sure : Bool
  deriving DecidableEq, Repr

namespace Width

def exactly (n : Nat) : Width := ⟨n, some n, true⟩

def condition : Width := ⟨0, some 0, false⟩

def unknown : Width := ⟨0, none, false⟩

/-- Only one width is possible. -/
def isFixed (w : Width) : Bool := w.max == some w.min

def bound (f : Nat → Nat → Nat) : Option Nat → Option Nat → Option Nat
  | some a, some b => some (f a b)
  | _, _ => none

def add (a b : Width) : Width := ⟨a.min + b.min, bound (· + ·) a.max b.max, a.sure && b.sure⟩

def or (a b : Width) : Width where
  min := Nat.min a.min b.min
  max := bound Nat.max a.max b.max
  sure := if b.min < a.min then b.sure else if b.min = a.min then a.sure || b.sure else a.sure

def repeated (q : Quantifier) (w : Width) : Width :=
  if q.upper = some 0 then exactly 0
  else ⟨w.min * q.lower,
        if w.max = some 0 then some 0 else bound (· * ·) w.max q.upper, w.sure⟩

/-- Greatest width of a look-behind. -/
def limit : Nat := 65535

/-- The width is not beyond the limit. -/
def withinLimit (w : Width) : Bool := w.min ≤ limit && w.max.all (· ≤ limit)

end Width

namespace Tree

mutual

/-- The width of a pattern, where `group` tells the widths of its groups. -/
def width (group : Nat → Width) : Tree → Width
  | .literal chars _ => .exactly chars.length
  | .test _ => .exactly 1
  | .anchor _ => .condition
  | .backreference groups _ _ =>
    match groups.map group with
    | [] => .condition
    | w :: ws => { ws.foldl Width.or w with sure := false }
  | .capture _ _ body => width group body
  | .atomic body => width group body
  | .scope body => width group body
  | .look _ _ _ => .condition
  | .repeated q body => (width group body).repeated q
  | .sequence ts => widthOfAll group ts
  | .alternatives ts => widthOfAny group ts

def widthOfAll (group : Nat → Width) : List Tree → Width
  | [] => .exactly 0
  | t :: ts => (width group t).add (widthOfAll group ts)

def widthOfAny (group : Nat → Width) : List Tree → Width
  | [] => .exactly 0
  | [t] => width group t
  | t :: ts => (width group t).or (widthOfAny group ts)

end

mutual

/-- The bodies of the capturing groups. -/
def groups : Tree → List (Nat × Tree)
  | .capture index _ body => (index, body) :: groups body
  | .atomic body | .scope body | .look _ _ body | .repeated _ body => groups body
  | .sequence ts | .alternatives ts => groupsOfAll ts
  | .literal _ _ | .test _ | .anchor _ | .backreference _ _ _ => []

def groupsOfAll : List Tree → List (Nat × Tree)
  | [] => []
  | t :: ts => groups t ++ groupsOfAll ts

end

mutual

/-- The groups that backreferences name, and whether each is named by number. -/
def references : Tree → List (Nat × Bool)
  | .backreference groups byName _ => groups.map (·, !byName)
  | .capture _ _ body => references body
  | .atomic body | .scope body | .look _ _ body | .repeated _ body => references body
  | .sequence ts | .alternatives ts => referencesOfAll ts
  | .literal _ _ | .test _ | .anchor _ => []

def referencesOfAll : List Tree → List (Nat × Bool)
  | [] => []
  | t :: ts => references t ++ referencesOfAll ts

end

mutual

/-- Unnamed groups no longer capture. -/
def dropUnnamed : Tree → Tree
  | .capture index true body => .capture index true (dropUnnamed body)
  | .capture _ false body => dropUnnamed body
  | .atomic body => .atomic (dropUnnamed body)
  | .scope body => .scope (dropUnnamed body)
  | .look behind negated body => .look behind negated (dropUnnamed body)
  | .repeated q body => quantify q (dropUnnamed body)
  | .sequence ts => .sequence (dropUnnamedOfAll ts)
  | .alternatives ts => .alternatives (dropUnnamedOfAll ts)
  | t => t

def dropUnnamedOfAll : List Tree → List Tree
  | [] => []
  | t :: ts => dropUnnamed t :: dropUnnamedOfAll ts

end

/-- An anchor that may stand in a look-behind. -/
def allowsAnchor : Anchor → Bool
  | .textEnd | .lastLineEnd => false
  | _ => true

mutual

/-- A pattern that may stand in a look-behind: it does not look ahead and, if the look-behind is
negated, it does not capture, else it has no negated look-behind in it. -/
def allowedBehind (negated : Bool) : Tree → Bool
  | .literal _ _ | .test _ | .backreference _ _ _ => true
  | .anchor a => allowsAnchor a
  | .capture _ _ body => !negated && allowedBehind negated body
  | .atomic body | .scope body | .repeated _ body => allowedBehind negated body
  | .look behind inner body => behind && (negated || !inner) && allowedBehind negated body
  | .sequence ts | .alternatives ts => allAllowedBehind negated ts

def allAllowedBehind (negated : Bool) : List Tree → Bool
  | [] => true
  | t :: ts => allowedBehind negated t && allAllowedBehind negated ts

end

/-- A part that a quantifier at the head of a look-behind may repeat as often as it likes. -/
def isSimple : Tree → Bool
  | .literal _ _ | .test _ | .backreference _ _ _ => true
  | _ => false

/-- A repetition at the head of a look-behind need not go beyond its least count: more of it before
the match changes nothing. The same holds of the next part if the least count is zero. -/
def reduceParts : List Tree → List Tree
  | .repeated q body :: ts =>
    if isSimple body then
      .repeated { q with upper := some q.lower } body ::
        (if q.lower = 0 then reduceParts ts else ts)
    else .repeated q body :: ts
  | ts => ts

/-- The head of a branch of a look-behind with its repetitions cut down. -/
def reduceHead : Tree → Tree
  | .sequence ts => .sequence (reduceParts ts)
  | .repeated q body =>
    if isSimple body then .repeated { q with upper := some q.lower } body else .repeated q body
  | t => t

def branches : Tree → List Tree
  | .alternatives ts => ts
  | t => [t]

/-- The pattern that matches nowhere. -/
def fails : Tree := .test (.ofClass ⟨.empty, false⟩)

/-- A look-behind that holds everywhere, or nowhere if it is negated. -/
def trivialBehind (negated : Bool) : Tree := if negated then fails else empty

/-- One branch of a look-behind as a look-behind of its own. `used` tells whether it captures a
group that a backreference names. -/
def oneBehind (group : Nat → Width) (used negated : Bool) (t : Tree) : Except PatternError Tree :=
  let w := width group t
  if !w.withinLimit then .error .variableLookBehind
  else if w.min = 0 ∧ w.sure ∧ !used then .ok (trivialBehind negated)
  else if w.isFixed then .ok (.look true negated t)
  else .error .variableLookBehind

/-- A look-behind made ready: alternatives of different widths become look-behinds of their own, one
of which must hold, or each if they are negated. -/
def arrangeBehind (group : Nat → Width) (used negated : Bool) (body : Tree) :
    Except PatternError Tree :=
  let ts := body.branches.map reduceHead
  let w := widthOfAny group ts
  match ts with
  | [t] => oneBehind group used negated t
  | ts =>
    -- The alternatives stay together as long as they have one width.
    if !w.withinLimit then .error .variableLookBehind
    else if w.min = 0 ∧ w.sure ∧ !used then .ok (trivialBehind negated)
    else if w.isFixed then .ok (.look true negated (.alternatives ts))
    else (ts.mapM (oneBehind group used negated)).map fun ts =>
      if negated then .sequence ts else .alternatives ts

mutual

/-- A pattern with its look-behinds made ready, the inner ones first. `referenced` tells the groups
that backreferences name. -/
def arrange (group : Nat → Width) (referenced : List Nat) : Tree → Except PatternError Tree
  | .look true negated body => do
    if !allowedBehind negated body then throw PatternError.variableLookBehind
    let used := (groups body).any fun entry => referenced.contains entry.1
    arrangeBehind group used negated (← arrange group referenced body)
  | .look false negated body => (arrange group referenced body).map (.look false negated)
  | .capture index named body => (arrange group referenced body).map (.capture index named)
  | .atomic body => (arrange group referenced body).map .atomic
  | .scope body => (arrange group referenced body).map .scope
  | .repeated q body => (arrange group referenced body).map (.repeated q)
  | .sequence ts => (arrangeAll group referenced ts).map .sequence
  | .alternatives ts => (arrangeAll group referenced ts).map .alternatives
  | t => .ok t

def arrangeAll (group : Nat → Width) (referenced : List Nat) :
    List Tree → Except PatternError (List Tree)
  | [] => .ok []
  | t :: ts => do
    let t ← arrange group referenced t
    let ts ← arrangeAll group referenced ts
    return t :: ts

end

end Tree

end Highlighter.Pattern
