import Highlighter.Error
import Highlighter.Grammar.Machine
import Highlighter.Grammar.Rule

/-! From a grammar as it is written to its machine. Places are first set aside for the root and the
named modes, so that references can be resolved before the modes they name are compiled; modes
within modes get their places as they are met. -/

namespace Highlighter

open Pattern

/-- What a mode closes on that says nothing of its end: it closes as soon as no mode within it
opens. -/
def immediateEnd : String := "\\B|\\b"

/-- The pattern that opens a mode by words: whole words that are no part of a dotted path. -/
def openingWordsPattern (words : String) : String :=
  "(?<!\\.)\\b(" ++ "|".intercalate (splitWords words) ++ ")(?!\\.)(?=\\b|\\s)"

def tableLimit : Nat := 65536

/-- A machine under construction, whose modes, patterns and keywords have been entered so far. -/
structure Builder where
  grammar : String
  caseInsensitive : Bool
  regexes : Array Regex
  keywordSets : Array KeywordIndex
  modes : Array Mode

abbrev BuilderM := StateT Builder (Except Error)

namespace Builder

/-- Checks that a place lies within a table. -/
def checkPlace (place : Nat) (table : Table) : BuilderM Nat := do
  if place < tableLimit then return place else throw (.tooLarge (← get).grammar table)

/-- Sets the next `n` places aside for modes. -/
def reserve (n : Nat) : BuilderM (List Nat) := do
  let b ← get
  let first := b.modes.size
  if first + n ≤ tableLimit then
    let ids := List.range' first n
    set { b with modes := ids.foldl (fun modes id => modes.push { id }) b.modes }
    return ids
  else throw (.tooLarge b.grammar .modes)

/-- Enters a pattern, unless it is there already. -/
def enterPattern (pattern : String) : BuilderM Nat := do
  let b ← get
  match b.regexes.findIdx? (·.pattern == pattern) with
  | some place => checkPlace place .regexes
  | none =>
    let place ← checkPlace b.regexes.size .regexes
    set { b with regexes := b.regexes.push (.ofPattern pattern b.caseInsensitive) }
    return place

def enterKeywords (keywords : Keywords) : BuilderM Nat := do
  let b ← get
  let index := keywords.index b.caseInsensitive
  match b.keywordSets.findIdx? (· == index) with
  | some place => checkPlace place .keywordSets
  | none =>
    let place ← checkPlace b.keywordSets.size .keywordSets
    set { b with keywordSets := b.keywordSets.push index }
    return place

def enterOptional {α : Type} (enter : α → BuilderM Nat) : Option α → BuilderM (Option Nat)
  | none => return none
  | some a => return some (← enter a)

/-- Enters what opens a mode, unless it is the root. -/
def enterOpening (isRoot : Bool) (s : ModeSettings) : BuilderM (Option Nat) :=
  if isRoot then return none
  else some <$> enterPattern (match s.openingWords with
    | some words => openingWordsPattern words
    | none => s.opening.getD immediateEnd)

def enterClosing (isRoot : Bool) (s : ModeSettings) : BuilderM (Option Nat) :=
  match s.closing with
  | some pattern => some <$> enterPattern pattern
  | none =>
    if isRoot || s.closesWithParent.getD false then return none
    else some <$> enterPattern immediateEnd

/-- Fills the place of a mode with its settings. `contains` enters the modes within it; it comes
last, after the mode's own patterns and keywords. -/
def fill (id : Nat) (isRoot : Bool) (s : ModeSettings) (contains : Nat → BuilderM (List Nat)) :
    BuilderM Unit := do
  let opening ← enterOpening isRoot s
  let closing ← enterClosing isRoot s
  -- The words that open a mode are its keywords unless it has others.
  let keywords ← enterOptional enterKeywords (s.keywords.or (s.openingWords.map Keywords.ofText))
  let illegal ← enterOptional enterPattern s.illegal
  let contains ← contains id
  let mode : Mode :=
    { id, category := s.category, opening, closing, illegal, keywords,
      relevance := s.relevance.getD (if s.openingWords.isSome then 0 else 1),
      returnOpening := s.returnOpening.getD false, excludeOpening := s.excludeOpening.getD false,
      returnClosing := s.returnClosing.getD false, excludeClosing := s.excludeClosing.getD false,
      closesParent := s.closesParent.getD false,
      closesWithParent := s.closesWithParent.getD false, contains }
  modify fun b => { b with modes := b.modes.setIfInBounds id mode }

mutual

/-- Fills places with a mode, or with its variants. `named` tells the places of the named modes. -/
def fillAll (named : List (String × List Nat)) (ids : List Nat) : ModeRule → BuilderM Unit
  | .mk settings contains variants => do
    let within (id : Nat) : BuilderM (List Nat) := enterContents named id contains
    match variants, ids with
    -- A mode without variants is its own variant.
    | [], id :: _ => fill id false settings within
    | [], [] => return ()
    | variants, ids => fillVariants named settings within ids variants

/-- Fills places with the variants of a mode, whose settings and contents complete theirs. -/
def fillVariants (named : List (String × List Nat)) (settings : ModeSettings)
    (within : Nat → BuilderM (List Nat)) : List Nat → List ModeRule → BuilderM Unit
  | id :: ids, .mk own contains _ :: variants => do
    let within' (id : Nat) : BuilderM (List Nat) :=
      match contains with
      | some refs => enterRefs named id [] refs
      | none => within id
    fill id false (settings.override own) within'
    fillVariants named settings within ids variants
  | _, _ => return ()

def enterContents (named : List (String × List Nat)) (self : Nat) :
    Option (List ModeRef) → BuilderM (List Nat)
  | none => return []
  | some refs => enterRefs named self [] refs

/-- Enters the modes of a list and gives their places after those in `done`, which
are listed from the last. -/
def enterRefs (named : List (String × List Nat)) (self : Nat) (done : List Nat) :
    List ModeRef → BuilderM (List Nat)
  | [] => return done.reverse
  | ref :: refs => do
    let ids ← enterRef named self ref
    enterRefs named self (ids.reverse ++ done) refs

/-- Enters one entry of a list and gives its places: the mode itself, a named mode or an inline
one. -/
def enterRef (named : List (String × List Nat)) (self : Nat) : ModeRef → BuilderM (List Nat)
  | .named name => do
    if name = "self" then return [self]
    match named.lookup name with
    | some ids => return ids
    | none => throw (.unknownMode (← get).grammar name)
  | .inline rule => do
    let ids ← reserve rule.expandedLength
    fillAll named ids rule
    return ids

end

def reserveNamed (modes : List (String × ModeRule)) : BuilderM (List (String × List Nat)) :=
  modes.mapM fun entry => do return (entry.1, ← reserve entry.2.expandedLength)

def fillNamed (named : List (String × List Nat)) :
    List (String × List Nat) → List (String × ModeRule) → BuilderM Unit
  | (_, ids) :: places, (_, rule) :: rules => do
    fillAll named ids rule
    fillNamed named places rules
  | _, _ => return ()

def enterGrammar (g : Grammar) : BuilderM Unit := do
  let _ ← reserve 1
  let named ← reserveNamed g.modes.entries
  fill Machine.root true g.root.settings (enterContents named · (some g.contains))
  fillNamed named named g.modes.entries

end Builder

namespace Machine

/-- The patterns that are searched by, those of modes first. -/
def allRegexes (m : Machine) : List Regex :=
  m.regexes.toList ++ m.keywordSets.toList.map (·.regex)

def fault? (m : Machine) : Option Error :=
  m.allRegexes.findSome? fun r => r.fault?.map (.invalidPattern r.pattern)

end Machine

namespace Grammar

/-- The tables of a grammar, before its patterns are checked. -/
def assemble (g : Grammar) : Except Error Machine := do
  let ((), b) ← (Builder.enterGrammar g).run ⟨g.name, g.caseInsensitive, #[], #[], #[]⟩
  return ⟨g.name, g.aliases, g.caseInsensitive, b.regexes, b.keywordSets, b.modes⟩

/-- The machine of a grammar. Its patterns are checked one by one, and not as they are put
together. -/
def compile (g : Grammar) : Except Error Machine := do
  let m ← g.assemble
  match m.fault? with
  | some e => throw e
  | none => return m

end Grammar

end Highlighter
