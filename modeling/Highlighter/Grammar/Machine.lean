import Highlighter.Keywords
import Highlighter.Regex

/-! Grammars made ready for scanning: flat tables of modes, regular expressions and keywords that
refer to one another by their places. Modes may refer to one another in circles. -/

namespace Highlighter

/-- A mode of a machine. Modes, regular expressions and keywords are named by their places. -/
structure Mode where
  id : Nat
  category : Option Category := none
  /-- What opens the mode; only the root has nothing. -/
  opening : Option Nat := none
  /-- What closes the mode; nothing for the root and for a mode that only ends with its parent. -/
  closing : Option Nat := none
  illegal : Option Nat := none
  keywords : Option Nat := none
  relevance : UInt32 := 0
  returnOpening : Bool := false
  excludeOpening : Bool := false
  returnClosing : Bool := false
  excludeClosing : Bool := false
  closesParent : Bool := false
  closesWithParent : Bool := false
  /-- The modes that may occur within, the more urgent first. -/
  contains : List Nat := []
  deriving DecidableEq, Inhabited

/-- A grammar made ready for scanning. The mode at place zero is the whole text. -/
structure Machine where
  name : String
  aliases : List String
  caseInsensitive : Bool
  regexes : Array Regex
  keywordSets : Array KeywordIndex
  modes : Array Mode

/-- What the end of a text between two scans means to a mode. -/
inductive Terminator
  | opening (mode : Nat)
  /-- The mode ends, or one around it. -/
  | closing
  /-- The text is not in the language. -/
  | illegal
  deriving DecidableEq, Repr

namespace Machine

/-- The place of the mode of the whole text. -/
def root : Nat := 0

def mode (m : Machine) (id : Nat) : Mode := m.modes.getD id { id }

def pattern (m : Machine) (id : Nat) : String := (m.regexes[id]?.map (·.pattern)).getD ""

/-- The words of the root, sorted, by category. -/
def rootKeywords (m : Machine) : List (Category × List String) :=
  match (m.mode root).keywords.bind (m.keywordSets[·]?) with
  | none => []
  | some index =>
    Category.all.filterMap fun category =>
      match index.words.entries.filter (·.2.category == category) with
      | [] => none
      | entries => some (category, entries.map (·.1))

/-- The pattern on which a mode ends within a parent that ends on `parent`. -/
def terminatorEnd (m : Machine) (id : Nat) (parent : Option String) : Option String :=
  let mode := m.mode id
  let own := mode.closing.map m.pattern
  if mode.closesWithParent then
    match own, parent with
    | some own, some parent => some ("(?:" ++ own ++ ")|(?:" ++ parent ++ ")")
    | none, some parent => some parent
    | own, none => own
  else own

/-- What may end the text of a mode, in order: the modes within it open, it ends, or it is
illegal. -/
def terminators (m : Machine) (id : Nat) (closing : Option String) : List (Terminator × String) :=
  let mode := m.mode id
  let openings := mode.contains.filterMap fun child =>
    (m.mode child).opening.map fun regex => (.opening child, m.pattern regex)
  openings ++ (closing.map (.closing, ·)).toList ++
    (mode.illegal.map fun regex => (.illegal, m.pattern regex)).toList

end Machine

end Highlighter
