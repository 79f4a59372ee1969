import Highlighter.Keywords

/-! Grammars as they are written. A mode is a rule that recognises a stretch of text: a pattern
opens it, a pattern closes it, and other modes may occur within it. Every setting is optional, so
that a variant of a mode states only what it changes. -/

namespace Highlighter

/-- The settings of a mode, apart from the modes within it and its variants. -/
structure ModeSettings where
  category : Option Category := none
  opening : Option String := none
  /-- Words between blanks, one of which opens the mode. They are also its keywords, unless it has
  its own. -/
  openingWords : Option String := none
  closing : Option String := none
  /-- The opening lexeme is not consumed: it is scanned again within the mode. -/
  returnOpening : Option Bool := none
  /-- The opening lexeme stays outside of the mode. -/
  excludeOpening : Option Bool := none
  /-- The closing lexeme is not consumed: it is scanned again around the mode. -/
  returnClosing : Option Bool := none
  /-- The closing lexeme stays outside of the mode. -/
  excludeClosing : Option Bool := none
  /-- The end of the mode is also the end of the mode around it. -/
  closesParent : Option Bool := none
  /-- The mode also ends where the mode around it would. -/
  closesWithParent : Option Bool := none
  keywords : Option Keywords := none
  /-- What must not occur in the mode. -/
  illegal : Option String := none
  relevance : Option UInt32 := none
  deriving DecidableEq, Repr, Inhabited

/-- The settings of a variant: its own, completed by those of its mode. -/
def ModeSettings.override (base variant : ModeSettings) : ModeSettings where
  category := variant.category.or base.category
  opening := variant.opening.or base.opening
  openingWords := variant.openingWords.or base.openingWords
  closing := variant.closing.or base.closing
  returnOpening := variant.returnOpening.or base.returnOpening
  excludeOpening := variant.excludeOpening.or base.excludeOpening
  returnClosing := variant.returnClosing.or base.returnClosing
  excludeClosing := variant.excludeClosing.or base.excludeClosing
  closesParent := variant.closesParent.or base.closesParent
  closesWithParent := variant.closesWithParent.or base.closesWithParent
  keywords := variant.keywords.or base.keywords
  illegal := variant.illegal.or base.illegal
  relevance := variant.relevance.or base.relevance

mutual

/-- A mode: its settings, the modes that may occur within it, and its variants, each of which
stands for a mode of its own. -/
inductive ModeRule
  | mk (settings : ModeSettings) (contains : Option (List ModeRef)) (variants : List ModeRule)
  deriving BEq, Repr

/-- An entry in the list of modes that may occur within a mode. -/
inductive ModeRef
  /-- `self`, or the name of a mode of the grammar. -/
  | named (name : String)
  | inline (rule : ModeRule)
  deriving BEq, Repr

end

namespace ModeRule

def ofSettings (settings : ModeSettings) : ModeRule := mk settings none []

def containing (settings : ModeSettings) (contains : List ModeRef) : ModeRule :=
  mk settings (some contains) []

def empty : ModeRule := ofSettings {}

instance : Inhabited ModeRule := ⟨empty⟩

def settings : ModeRule → ModeSettings
  | mk settings _ _ => settings

/-- The modes within a mode, if they are set. -/
def contains : ModeRule → Option (List ModeRef)
  | mk _ contains _ => contains

def variants : ModeRule → List ModeRule
  | mk _ _ variants => variants

/-- The mode that a variant stands for: what the variant sets, completed by what its mode
sets. Variants do not nest. -/
def mergedWith (base variant : ModeRule) : ModeRule :=
  mk (base.settings.override variant.settings) (variant.contains.or base.contains) []

/-- The modes that a mode stands for: itself, or its variants. -/
def expanded (rule : ModeRule) : List ModeRule :=
  match rule.variants with
  | [] => [rule]
  | variants => variants.map rule.mergedWith

/-- The number of modes that a mode stands for. -/
def expandedLength (rule : ModeRule) : Nat := max rule.variants.length 1

end ModeRule

/-- The definition of a language: the settings of the whole text, and the modes that may be referred
to by name, also by themselves. -/
structure Grammar where
  name : String := ""
  aliases : List String := []
  caseInsensitive : Bool := false
  keywords : Option Keywords := none
  illegal : Option String := none
  contains : List ModeRef := []
  modes : Dict ModeRule := .empty
  deriving BEq, Inhabited

def Grammar.root (g : Grammar) : ModeRule :=
  .containing { keywords := g.keywords, illegal := g.illegal } g.contains

end Highlighter
