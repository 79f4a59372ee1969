import Highlighter.Proofs.Pattern.Stops
import Highlighter.Proofs.Scan.Immediate
import Highlighter.Proofs.Scan.Reordering
import Highlighter.Proofs.Scan.Tariff

/-! What may come next in the text of a mode, told from the grammar alone: which modes open within
it, where it ends, and what is illegal. `Machine.Realizes` says that a machine is put together from
a grammar whose modes end on their own patterns; at each place it comes upon what the grammar
says. -/

namespace Highlighter

open Text Pattern

theorem Pattern.stop?_immediateEnd (ignoreCase : Bool) (c : Cursor) :
    stop? ignoreCase immediateEnd c = some c := by
  have hCompile := compile_immediateEnd ignoreCase true
  rw [toList_asciiClasses] at hCompile
  rw [stop?_eq hCompile, Program.matchFrom_immediate]

/-- What may come next in the text of a mode. -/
inductive Cue
  | opens (a : Address)
  | closes
  | illegal
  deriving DecidableEq

/-- The terminator of a machine with the modes at their places. -/
def Cue.terminator (place : Address → Nat) : Cue → Terminator
  | opens a => .opening (place a)
  | closes => .closing
  | illegal => .illegal

namespace Grammar

variable (g : Grammar)

def settingsAt (a : Address) : ModeSettings := ((g.modeAt? a).map (·.settings)).getD {}

def childrenAt (a : Address) : List Address :=
  g.addressesFrom a 0 (((g.modeAt? a).map (·.entries)).getD [])

def openingAt (a : Address) : Option String :=
  if a = .root then none else some (g.settingsAt a).openingPattern

def closingAt (a : Address) : Option String :=
  if a = .root then none else (g.settingsAt a).closingPattern

/-- What may come next in the mode at an address, with its patterns, the more urgent first. -/
def cues (a : Address) : List (Cue × String) :=
  ((g.childrenAt a).filterMap fun child => (g.openingAt child).map (.opens child, ·)) ++
    ((g.closingAt a).map (.closes, ·)).toList ++
      ((g.settingsAt a).illegal.map (.illegal, ·)).toList

/-- What comes right at a place in the mode at an address, and where it stops. -/
def cueAt? (a : Address) (c : Cursor) : Option (Cue × Cursor) :=
  (g.cues a).findSome? fun entry => (stop? g.caseInsensitive entry.2 c).map (entry.1, ·)

def wordsAt (a : Address) (text : List Char) : List Hit :=
  ((g.settingsAt a).keywordTable.map fun words => (words.index g.caseInsensitive).hits text).getD []

theorem isSome_child {g : Grammar} {a child : Address} (hMode : (g.modeAt? a).isSome)
    (h : child ∈ g.childrenAt a) : (g.modeAt? child).isSome := by
  obtain ⟨rule, hRule⟩ := Option.isSome_iff_exists.1 hMode
  rw [childrenAt, hRule, Option.map_some, Option.getD_some] at h
  obtain ⟨⟨ref, entry⟩, hEntry, hChild⟩ := List.mem_flatMap.1 h
  have hEntry := List.mem_zipIdx_iff_getElem?.1 hEntry
  dsimp only at hEntry hChild
  cases ref with
  | named name =>
    rw [addressesOf] at hChild
    split at hChild
    · rw [List.mem_singleton.1 hChild, hRule]
      rfl
    · split at hChild
      · next mode hMode =>
        obtain ⟨variant, hVariant, rfl⟩ := List.mem_map.1 hChild
        rw [List.mem_range, ← mode.length_expanded] at hVariant
        simp [modeAt?, hMode, hVariant]
      · cases hChild
  | inline mode =>
    obtain ⟨variant, hVariant, rfl⟩ := List.mem_map.1 hChild
    rw [List.mem_range, ← mode.length_expanded] at hVariant
    simp [modeAt?, hRule, ModeRule.inner?, hEntry, hVariant]

variable {g : Grammar} {a : Address} {c : Cursor}

theorem cueAt?_eq_none (hNone : ∀ entry ∈ g.cues a, stop? g.caseInsensitive entry.2 c = none) :
    g.cueAt? a c = none :=
  List.findSome?_eq_none_iff.2 fun entry hEntry => by rw [hNone entry hEntry, Option.map_none]

/-- Of what matches at a place, the first comes. -/
theorem cueAt?_eq_some {n : Nat} {cue : Cue} {pattern : String} {stop : Cursor}
    (hCue : (g.cues a)[n]? = some (cue, pattern))
    (hBefore : ∀ entry ∈ (g.cues a).take n, stop? g.caseInsensitive entry.2 c = none)
    (hStop : stop? g.caseInsensitive pattern c = some stop) : g.cueAt? a c = some (cue, stop) := by
  obtain ⟨hLt, hEntry⟩ := List.getElem?_eq_some_iff.1 hCue
  have hNone : ((g.cues a).take n).findSome?
      (fun entry => (stop? g.caseInsensitive entry.2 c).map (entry.1, ·)) = none :=
    List.findSome?_eq_none_iff.2 fun entry hEntry => by rw [hBefore entry hEntry, Option.map_none]
  rw [cueAt?, ← List.take_append_drop n (g.cues a), List.findSome?_append, hNone, Option.none_or,
    List.drop_eq_getElem_cons hLt, hEntry, List.findSome?_cons, hStop, Option.map_some]

theorem cueAt?_first {cue : Cue} {pattern : String} {stop : Cursor}
    (hCue : (g.cues a)[0]? = some (cue, pattern))
    (hStop : stop? g.caseInsensitive pattern c = some stop) : g.cueAt? a c = some (cue, stop) :=
  cueAt?_eq_some hCue nofun hStop

/-- Patterns whose matches may not begin with the next character do not match. -/
theorem stop?_eq_none_of_all {entries : List (Cue × String)} {x : Char} (hHead : c.next? = some x)
    (h : (entries.all fun entry => !begins g.caseInsensitive entry.2 x) = true) :
    ∀ entry ∈ entries, stop? g.caseInsensitive entry.2 c = none := fun entry hEntry =>
  stop?_eq_none_of_begins hHead (by simpa using List.all_eq_true.1 h entry hEntry)

theorem cueAt?_atEnd (hEnd : c.atEnd = true)
    (h : ((g.cues a).all fun entry => consumes g.caseInsensitive entry.2) = true) :
    g.cueAt? a c = none :=
  cueAt?_eq_none fun entry hEntry => stop?_eq_none_of_atEnd hEnd (List.all_eq_true.1 h entry hEntry)

/-- Where the cues of a mode are known, they are tried in turn. -/
theorem cueAt?_of_cues {entries : List (Cue × String)} (hCues : g.cues a = entries) (c : Cursor) :
    g.cueAt? a c = entries.foldr
      (fun entry rest => ((stop? g.caseInsensitive entry.2 c).map (entry.1, ·)).or rest) none := by
  rw [cueAt?, hCues]
  clear hCues
  induction entries with
  | nil => rfl
  | cons entry entries ih =>
    rw [List.findSome?_cons, List.foldr_cons, ih]
    cases stop? g.caseInsensitive entry.2 c <;> rfl

theorem wordsAt_nil (g : Grammar) (a : Address) : g.wordsAt a [] = [] := by
  unfold wordsAt
  cases (g.settingsAt a).keywordTable with
  | none => rfl
  | some words => exact ((words.index g.caseInsensitive).ordered_hits []).eq_nil

theorem wordsAt_eq_nil (h : (g.settingsAt a).keywordTable = none) (text : List Char) :
    g.wordsAt a text = [] := by
  rw [wordsAt, h]
  rfl

end Grammar

/-- A machine is put together from a grammar whose modes end on their own patterns; these have been
checked, and name no groups. -/
structure Machine.Realizes (m : Machine) (g : Grammar) (place : Address → Nat) : Prop where
  image : m.IsImage g place
  alone : m.EndsAlone
  checked : m.Checked
  unnamed :
    ∀ r ∈ m.regexes, namesGroups m.caseInsensitive (asciiClasses r.pattern).toList = false

theorem PlaceOf.map_pattern {m : Machine} {regex : Option Nat} {expected : Option String}
    {ignoreCase : Bool} (h : PlaceOf m.regexes regex (expected.map (.ofPattern · ignoreCase))) :
    regex.map m.pattern = expected := by
  cases regex with
  | none =>
    cases expected with
    | none => rfl
    | some pattern => cases h
  | some regex =>
    cases expected with
    | none => cases h
    | some pattern =>
      have hTable : m.regexes[regex]? = some (.ofPattern pattern ignoreCase) := Option.some.inj h
      rw [Option.map_some, Machine.pattern, hTable]
      rfl

namespace Machine.Realizes

variable {m : Machine} {g : Grammar} {place : Address → Nat} (h : m.Realizes g place)
include h

theorem depicts {a : Address} (hMode : (g.modeAt? a).isSome) :
    (m.mode (place a)).Depicts m.regexes m.keywordSets g.caseInsensitive (a = .root)
        (g.settingsAt a) ∧
      (m.mode (place a)).contains = (g.childrenAt a).map place := by
  obtain ⟨rule, hRule⟩ := Option.isSome_iff_exists.1 hMode
  have hDepicts := h.image.depicts hRule
  simpa only [Grammar.settingsAt, Grammar.childrenAt, hRule, Option.map_some, Option.getD_some]
    using hDepicts

section

variable {a : Address} (hMode : (g.modeAt? a).isSome)
include hMode

theorem ownStart_eq : m.ownStart (place a) = g.openingAt a := by
  have hOpening := (h.depicts hMode).1.opening
  have hPlace : PlaceOf m.regexes (m.mode (place a)).opening
      ((g.openingAt a).map (.ofPattern · g.caseInsensitive)) := by
    unfold Grammar.openingAt
    by_cases ha : a = .root <;> simpa [ha] using hOpening
  exact hPlace.map_pattern

theorem ownEnd_eq : m.ownEnd (place a) = g.closingAt a := by
  have hClosing := (h.depicts hMode).1.closing
  have hPlace : PlaceOf m.regexes (m.mode (place a)).closing
      ((g.closingAt a).map (.ofPattern · g.caseInsensitive)) := by
    unfold Grammar.closingAt
    by_cases ha : a = .root <;> simpa [ha] using hClosing
  exact hPlace.map_pattern

theorem hits_eq (text : List Char) : m.hits (place a) text = g.wordsAt a text := by
  have hKeywords := (h.depicts hMode).1.keywords
  unfold Machine.hits Grammar.wordsAt
  cases hPlace : (m.mode (place a)).keywords with
  | none =>
    cases hTable : (g.settingsAt a).keywordTable with
    | none => rfl
    | some words =>
      rw [hPlace, hTable] at hKeywords
      cases hKeywords
  | some index =>
    cases hTable : (g.settingsAt a).keywordTable with
    | none =>
      rw [hPlace, hTable] at hKeywords
      cases hKeywords
    | some words =>
      rw [hPlace, hTable] at hKeywords
      have hIndex : m.keywordSets[index]? = some (words.index g.caseInsensitive) :=
        Option.some.inj hKeywords
      rw [Option.bind_some, hIndex]
      rfl

theorem terminators_eq : m.terminators (place a) (m.ownEnd (place a)) =
    (g.cues a).map fun (cue, pattern) => (cue.terminator place, pattern) := by
  obtain ⟨hDepicts, hContains⟩ := h.depicts hMode
  have hIllegal : (m.mode (place a)).illegal.map m.pattern = (g.settingsAt a).illegal :=
    hDepicts.illegal.map_pattern
  have hOpenings : ((g.childrenAt a).map place).filterMap (fun child =>
      (m.mode child).opening.map fun regex => (Terminator.opening child, m.pattern regex)) =
      ((g.childrenAt a).filterMap fun child => (g.openingAt child).map (Cue.opens child, ·)).map
        fun (cue, pattern) => (cue.terminator place, pattern) := by
    rw [List.filterMap_map, List.map_filterMap]
    refine List.filterMap_congr fun child hChild => ?_
    rw [← h.ownStart_eq (Grammar.isSome_child hMode hChild), Machine.ownStart, Option.map_map,
      Option.map_map]
    rfl
  have hIllegals :
      (m.mode (place a)).illegal.map (fun regex => (Terminator.illegal, m.pattern regex)) =
        (g.settingsAt a).illegal.map (Terminator.illegal, ·) := by
    rw [← hIllegal, Option.map_map]
    rfl
  rw [h.ownEnd_eq hMode]
  simp only [terminators, Grammar.cues, hContains, hOpenings, hIllegals, List.map_append]
  cases g.closingAt a <;> cases (g.settingsAt a).illegal <;> rfl

end

theorem compatible : m.Compatible where
  joins pattern hJoins := by
    obtain ⟨around, parent, id, own, -, -, hWith, -⟩ := hJoins
    rw [(h.alone.mode id).1] at hWith
    cases hWith
  names r hr hNames := by
    rw [h.unnamed r hr] at hNames
    cases hNames

theorem exists_setOf_eq_ok (id : Nat) : ∃ set, m.setOf (id, m.ownEnd id) = .ok set := by
  cases hSet : m.setOf (id, m.ownEnd id) with
  | ok set => exact ⟨set, rfl⟩
  | error e =>
    obtain ⟨fault, -, t, ht, hFault⟩ := exists_of_terminatorSet_eq_error hSet
    obtain ⟨regex, hRegex⟩ : ∃ regex, t.2 = m.pattern regex := by
      simp only [terminators, ownEnd, List.mem_append, List.mem_filterMap, Option.mem_toList,
        Option.map_eq_some_iff] at ht
      rcases ht with
        (⟨child, -, regex, -, rfl⟩ | ⟨_, ⟨regex, -, rfl⟩, rfl⟩) | ⟨regex, -, rfl⟩
      · exact ⟨regex, rfl⟩
      · exact ⟨regex, rfl⟩
      · exact ⟨regex, rfl⟩
    obtain ⟨program, hProgram⟩ := h.compatible.searchable_pattern h.checked regex
    rw [hRegex, hProgram] at hFault
    cases hFault

variable {a : Address} (hMode : (g.modeAt? a).isSome)
include hMode

/-- What matches at a place is what the grammar says. -/
theorem matchAt?_eq {set : TerminatorSet} (hSet : m.setOf (place a, m.ownEnd (place a)) = .ok set)
    (c : Cursor) :
    set.matchAt? c =
      (g.cueAt? a c).map fun (cue, stop) => ⟨cue.terminator place, ⟨c, stop⟩⟩ := by
  have hEntries := forall₂_of_terminatorSet_eq_ok hSet
  rw [h.terminators_eq hMode, List.forall₂_map_left_iff, h.image.caseInsensitive] at hEntries
  rw [Grammar.cueAt?]
  clear hSet
  generalize g.cues a = cues at hEntries ⊢
  induction hEntries with
  | nil => rfl
  | @cons cue entry cues set hEntry _ ih =>
    obtain ⟨cue, pattern⟩ := cue
    obtain ⟨kind, program⟩ := entry
    obtain ⟨rfl, hProgram⟩ := hEntry
    rw [toList_asciiClasses] at hProgram
    rw [TerminatorSet.matchAt?, List.findSome?_cons]
    dsimp only
    rw [stop?_eq hProgram]
    cases program.matchFrom c with
    | none => exact ih
    | some stop => rfl

theorem closesAt_eq (c : Cursor) :
    m.closesAt (place a) c =
      (g.closingAt a).any fun pattern => (stop? g.caseInsensitive pattern c).isSome := by
  rw [← h.ownEnd_eq hMode, ownEnd]
  unfold closesAt
  cases hClosing : (m.mode (place a)).closing with
  | none => rfl
  | some regex =>
    have hLt := (h.depicts hMode).1.closing.lt_size regex hClosing
    have hTable := Array.getElem?_eq_getElem hLt
    generalize m.regexes[regex] = r at hTable
    have hMem := Array.mem_of_getElem? hTable
    have hProgram := compile_eq_of_not_namesGroups (h.unnamed r hMem) false true
    rw [← (h.checked r hMem).1, ← r.program_eq, (h.checked r hMem).1, h.image.caseInsensitive,
      toList_asciiClasses] at hProgram
    rw [Option.bind_some, hTable, Option.any_some, Option.map_some, Option.any_some, pattern,
      hTable, Option.map_some, Option.getD_some, stop?, ← hProgram, Regex.matchAt?]
    cases r.program <;> rfl

end Machine.Realizes

end Highlighter
