import Highlighter.Grammar.Compile
import Mathlib.Data.Set.Function
import Mathlib.Order.Interval.Set.Defs

/-! The machine of a grammar as an image of it. An `Address` tells where a mode stands in a grammar
in which each mode has been replaced by its variants; `Machine.IsImage` says that the modes of a
machine are those of a grammar, one for each address. -/

namespace Highlighter

open Builder

/-- Where a mode stands in a grammar. -/
inductive Address
  | root
  /-- A variant of a named mode. -/
  | named (name : String) (variant : Nat)
  /-- A variant of the mode that an entry in the list of another mode writes out. -/
  | inner (around : Address) (entry variant : Nat)
  deriving DecidableEq

namespace ModeRule

theorem length_expanded (rule : ModeRule) : rule.expanded.length = rule.expandedLength := by
  obtain ⟨settings, contains, variants⟩ := rule
  cases variants with
  | nil => rfl
  | cons variant variants =>
    simp [expanded, expandedLength, ModeRule.variants]

def entries (rule : ModeRule) : List ModeRef := rule.contains.getD []

/-- A variant of the mode that an entry writes out. -/
def inner? (rule : ModeRule) (entry variant : Nat) : Option ModeRule :=
  match rule.entries[entry]? with
  | some (.inline inner) => inner.expanded[variant]?
  | _ => none

end ModeRule

namespace ModeSettings

def openingPattern (s : ModeSettings) : String :=
  match s.openingWords with
  | some words => openingWordsPattern words
  | none => s.opening.getD immediateEnd

def closingPattern (s : ModeSettings) : Option String :=
  s.closing.or (if s.closesWithParent.getD false then none else some immediateEnd)

def keywordTable (s : ModeSettings) : Option Keywords := s.keywords.or (s.openingWords.map .ofText)

end ModeSettings

namespace Grammar

/-- The mode at an address: a variant is completed by its mode. -/
def modeAt? (g : Grammar) : Address → Option ModeRule
  | .root => some g.root
  | .named name variant => (g.modes.get? name).bind (·.expanded[variant]?)
  | .inner around entry variant => (g.modeAt? around).bind (·.inner? entry variant)

/-- The addresses that an entry in the list of the mode at `a` stands for. -/
def addressesOf (g : Grammar) (a : Address) (entry : Nat) : ModeRef → List Address
  | .named name =>
    if name = "self" then [a]
    else match g.modes.get? name with
      | some rule => (List.range rule.expandedLength).map (.named name)
      | none => []
  | .inline rule => (List.range rule.expandedLength).map (.inner a entry)

/-- The addresses that a list stands for, whose first entry has the number `first`. -/
def addressesFrom (g : Grammar) (a : Address) (first : Nat) (refs : List ModeRef) : List Address :=
  (refs.zipIdx first).flatMap fun (ref, entry) => g.addressesOf a entry ref

/-- An entry names a mode that there is. -/
def Knows (g : Grammar) : ModeRef → Prop
  | .named name => name = "self" ∨ (g.modes.get? name).isSome
  | .inline _ => True

end Grammar

/-- A place that may be absent is that of what is expected, if anything is. -/
def PlaceOf {α : Type} (table : Array α) (place : Option Nat) (expected : Option α) : Prop :=
  place.map (table[·]?) = expected.map some

theorem PlaceOf.isSome_eq {α : Type} {table : Array α} {place : Option Nat} {expected : Option α}
    (h : PlaceOf table place expected) : place.isSome = expected.isSome := by
  have hSome := congrArg Option.isSome h
  rwa [Option.isSome_map, Option.isSome_map] at hSome

theorem PlaceOf.lt_size {α : Type} {table : Array α} {place : Option Nat} {expected : Option α}
    (h : PlaceOf table place expected) : ∀ i ∈ place, i < table.size := by
  intro i hi
  cases hi
  cases expected with
  | none => cases h
  | some x => exact (Array.getElem?_eq_some_iff.1 (Option.some.inj h)).1

theorem PlaceOf.mono {α : Type} {table table' : Array α} {place : Option Nat}
    {expected : Option α} (h : PlaceOf table place expected)
    (hTable : ∀ (i : Nat) x, table[i]? = some x → table'[i]? = some x) :
    PlaceOf table' place expected := by
  cases place with
  | none => exact h
  | some i =>
    cases expected with
    | none => cases h
    | some x => exact congrArg some (hTable i x (Option.some.inj h))

/-- A mode has the settings of a rule, with patterns and keywords at their places in the tables.
What the rule leaves open has its default. -/
structure Mode.Depicts (mode : Mode) (regexes : Array Regex) (keywordSets : Array KeywordIndex)
    (caseInsensitive isRoot : Bool) (s : ModeSettings) : Prop where
  category : mode.category = s.category
  opening : PlaceOf regexes mode.opening
    (if isRoot then none else some (.ofPattern s.openingPattern caseInsensitive))
  closing : PlaceOf regexes mode.closing
    (if isRoot then none else s.closingPattern.map (.ofPattern · caseInsensitive))
  illegal : PlaceOf regexes mode.illegal (s.illegal.map (.ofPattern · caseInsensitive))
  keywords : PlaceOf keywordSets mode.keywords (s.keywordTable.map (·.index caseInsensitive))
  relevance : mode.relevance = s.relevance.getD (if s.openingWords.isSome then 0 else 1)
  returnOpening : mode.returnOpening = s.returnOpening.getD false
  excludeOpening : mode.excludeOpening = s.excludeOpening.getD false
  returnClosing : mode.returnClosing = s.returnClosing.getD false
  excludeClosing : mode.excludeClosing = s.excludeClosing.getD false
  closesParent : mode.closesParent = s.closesParent.getD false
  closesWithParent : mode.closesWithParent = s.closesWithParent.getD false

/-- The modes of a machine are those of a grammar, each at the place that `place` gives to its
address. -/
structure Machine.IsImage (m : Machine) (g : Grammar) (place : Address → Nat) : Prop where
  name : m.name = g.name
  aliases : m.aliases = g.aliases
  caseInsensitive : m.caseInsensitive = g.caseInsensitive
  places : Set.BijOn place {a | (g.modeAt? a).isSome} (Set.Iio m.modes.size)
  root : place .root = Machine.root
  modes : ∀ a rule, g.modeAt? a = some rule → ∃ mode, m.modes[place a]? = some mode ∧
    mode.id = place a ∧
    mode.Depicts m.regexes m.keywordSets g.caseInsensitive (a = .root) rule.settings ∧
    mode.contains = (g.addressesFrom a 0 rule.entries).map place
  known : ∀ a rule, g.modeAt? a = some rule → ∀ ref ∈ rule.entries, g.Knows ref

/-- The mode at the place of an address has the settings of the rule there, and the modes within it
are those of its entries. -/
theorem Machine.IsImage.depicts {m : Machine} {g : Grammar} {place : Address → Nat}
    (h : m.IsImage g place) {a : Address} {rule : ModeRule} (hRule : g.modeAt? a = some rule) :
    (m.mode (place a)).Depicts m.regexes m.keywordSets g.caseInsensitive
        (a = .root) rule.settings ∧
      (m.mode (place a)).contains = (g.addressesFrom a 0 rule.entries).map place := by
  obtain ⟨mode, hMode, -, hDepicts, hContains⟩ := h.modes a rule hRule
  rw [Machine.mode, Array.getD_eq_getD_getElem?, hMode, Option.getD_some]
  exact ⟨hDepicts, hContains⟩

/-- The modes of a machine carry their places, refer to what is there, and have what opens
and closes them: the root has neither, and only a mode that closes with the one around it may
lack a pattern to close on. -/
structure Machine.WellFormed (m : Machine) : Prop where
  id : ∀ (i : Nat) (mode : Mode), m.modes[i]? = some mode → mode.id = i
  opens : ∀ (i : Nat) (mode : Mode), m.modes[i]? = some mode →
    (mode.opening.isSome ↔ i ≠ Machine.root)
  closes : ∀ (i : Nat) (mode : Mode), m.modes[i]? = some mode →
    if i = Machine.root then mode.closing = none
    else mode.closing.isSome ∨ mode.closesWithParent = true
  contains : ∀ mode ∈ m.modes, ∀ id ∈ mode.contains, id < m.modes.size
  regexes : ∀ mode ∈ m.modes, ∀ place,
    place ∈ mode.opening ∨ place ∈ mode.closing ∨ place ∈ mode.illegal →
    place < m.regexes.size
  keywords : ∀ mode ∈ m.modes, ∀ place ∈ mode.keywords, place < m.keywordSets.size

end Highlighter
