import Highlighter.Proofs.Pattern.Faults
import Highlighter.Proofs.Pattern.Lexeme
import Highlighter.Proofs.Scan.Alike
import Highlighter.Proofs.Scan.Ends
import Mathlib.Data.List.Perm.Basic

/-! The order of the modes within a mode. It only tells which of several modes opens that could open
at the same place, so where that does not happen in a text, modes may be listed in any order. -/

namespace Highlighter

open Text Pattern

/-! ### Searching for terminators in another order -/

/-- It does not matter in which order items are tried of which all that have an answer give the
same. -/
theorem findSome?_eq_of_perm {α β : Type} {f : α → Option β} {l l' : List α} (h : l.Perm l')
    (hSame : ∀ a ∈ l, ∀ b ∈ l, (f a).isSome → (f b).isSome → f a = f b) :
    l.findSome? f = l'.findSome? f := by
  cases hFound : l.findSome? f with
  | none =>
    rw [List.findSome?_eq_none_iff] at hFound
    exact (List.findSome?_eq_none_iff.2 fun b hb => hFound b (h.mem_iff.2 hb)).symm
  | some x =>
    obtain ⟨a, ha, hx⟩ := List.exists_of_findSome?_eq_some hFound
    obtain ⟨y, hFound'⟩ : ∃ y, l'.findSome? f = some y :=
      Option.isSome_iff_exists.1 (List.findSome?_isSome_iff.2 ⟨a, h.mem_iff.1 ha, hx ▸ rfl⟩)
    obtain ⟨b, hb, hy⟩ := List.exists_of_findSome?_eq_some hFound'
    rw [hFound', ← hx, ← hy]
    exact hSame a ha b (h.mem_iff.2 hb) (hx ▸ rfl) (hy ▸ rfl)

theorem SameResult.mapM_perm {ε α β : Type} {f : α → Except ε β} {l l' : List α}
    (h : l.Perm l')
    (hSame : ∀ a ∈ l, ∀ b ∈ l, ∀ e e', f a = .error e → f b = .error e' → e = e') :
    SameResult List.Perm (l.mapM f) (l'.mapM f) := by
  -- A list succeeds only if each item does, so that reordering cannot hide an error.
  have hOk : ∀ {l : List α} {bs}, l.mapM f = .ok bs → ∀ a ∈ l, ∃ b, f a = .ok b := by
    intro l bs hl a ha
    obtain ⟨b, -, hb⟩ := exists_of_mem_of_forall₂ (forall₂_of_mapM_eq_ok hl).flip ha
    exact ⟨b, hb⟩
  cases hl : l.mapM f with
  | error e =>
    obtain ⟨a, ha, hError⟩ := exists_of_mapM_eq_error hl
    cases hl' : l'.mapM f with
    | error e' =>
      obtain ⟨b, hb, hError'⟩ := exists_of_mapM_eq_error hl'
      rw [hSame a ha b (h.mem_iff.2 hb) e e' hError hError']
      exact .error e'
    | ok bs' =>
      obtain ⟨b, hb⟩ := hOk hl' a (h.mem_iff.1 ha)
      rw [hError] at hb
      cases hb
  | ok bs =>
    cases hl' : l'.mapM f with
    | error e' =>
      obtain ⟨a, ha, hError⟩ := exists_of_mapM_eq_error hl'
      obtain ⟨b, hb⟩ := hOk hl a (h.mem_iff.2 ha)
      rw [hError] at hb
      cases hb
    | ok bs' =>
      obtain ⟨cs, hcs, hPerm⟩ := List.perm_comp_forall₂ h.symm (forall₂_of_mapM_eq_ok hl)
      have hEq : cs = bs' := List.right_unique_forall₂'
        (fun a b c hb hc => Except.ok.inj (hb.symm.trans hc)) hcs (forall₂_of_mapM_eq_ok hl')
      exact .ok (hEq ▸ hPerm.symm)

namespace TerminatorSet

theorem search_eq_of_matchAt?_eq {set set' : TerminatorSet} (rest : List Char) {c : Cursor}
    (h : ∀ d, c.Reaches d → matchAt? d set = matchAt? d set') :
    set.search rest c = set'.search rest c := by
  induction rest generalizing c with
  | nil =>
    unfold search
    rw [h c (.refl c)]
    cases matchAt? c set' <;> rfl
  | cons x rest ih =>
    have hRest := ih fun d hd => h d ((Cursor.reaches_advance c).trans hd)
    unfold search
    rw [h c (.refl c)]
    cases matchAt? c set' with
    | none => exact hRest
    | some found => rfl

theorem matchAt?_eq_findSome? (c : Cursor) (set : TerminatorSet) : matchAt? c set =
    set.findSome? fun (t, program) => (program.matchFrom c).map
      fun stop => ⟨t, ⟨c, stop⟩⟩ := by
  induction set with
  | nil => rfl
  | cons entry set ih =>
    obtain ⟨t, program⟩ := entry
    rw [matchAt?, List.findSome?_cons, ih]
    dsimp only
    cases program.matchFrom c <;> rfl

end TerminatorSet

/-! ### Machines with the modes in another order -/

/-- Two machines differ in nothing but the order of the modes within modes. -/
structure Machine.Reordered (m m' : Machine) : Prop where
  name : m'.name = m.name
  aliases : m'.aliases = m.aliases
  caseInsensitive : m'.caseInsensitive = m.caseInsensitive
  regexes : m'.regexes = m.regexes
  keywordSets : m'.keywordSets = m.keywordSets
  size : m'.modes.size = m.modes.size
  modes : ∀ id, ∃ contains, (m.mode id).contains.Perm contains ∧
    m'.mode id = { m.mode id with contains }

/-- The pattern that opens a mode matches at a place, as it is searched for in the mode around
it. -/
def Machine.OpensAt (m : Machine) (id : Nat) (c : Cursor) : Prop :=
  ∃ regex program, (m.mode id).opening = some regex ∧ Pattern.compile ⟨m.caseInsensitive,
    true⟩ (asciiClasses (m.pattern regex)).toList = .ok program ∧ (program.matchFrom c).isSome

/-- Different modes within the same mode never open at the same place of a text. -/
def Machine.OpensApart (m : Machine) (text : List Char) : Prop :=
  ∀ id, ∀ a ∈ (m.mode id).contains, ∀ b ∈ (m.mode id).contains, a ≠ b →
    ∀ c, (Cursor.start text).Reaches c → ¬ (m.OpensAt a c ∧ m.OpensAt b c)

namespace Machine

def openings (m : Machine) (children : List Nat) : List (Terminator × String) :=
  children.filterMap fun child => (m.mode child).opening.map fun regex =>
    (.opening child, m.pattern regex)

/-- The terminators of a mode behind the openings. -/
def endings (m : Machine) (id : Nat) (closing : Option String) : List (Terminator × String) :=
  (closing.map (.closing, ·)).toList ++
    ((m.mode id).illegal.map fun regex => (.illegal, m.pattern regex)).toList

theorem terminators_eq (m : Machine) (id : Nat) (closing : Option String) :
    m.terminators id closing = m.openings (m.mode id).contains ++ m.endings id closing :=
  List.append_assoc _ _ _

/-- The terminators with their programs. -/
def programs (m : Machine) (ts : List (Terminator × String)) : Except PatternError TerminatorSet :=
  ts.mapM fun t =>
    do return (t.1, ← Pattern.compile ⟨m.caseInsensitive, true⟩ (asciiClasses t.2).toList)

/-- Sets of terminators match alike at all places of a text. -/
def MatchAlikeIn (text : List Char) (set set' : TerminatorSet) : Prop :=
  ∀ c, (Cursor.start text).Reaches c → set.matchAt? c = set'.matchAt? c

namespace Reordered

variable {m m' : Machine} {id : Nat}

theorem pattern (h : m.Reordered m') (regex : Nat) : m'.pattern regex = m.pattern regex := by
  rw [Machine.pattern, h.regexes, Machine.pattern]

theorem terminatorEnd (h : m.Reordered m') (id : Nat) (parent : Option String) :
    m'.terminatorEnd id parent = m.terminatorEnd id parent := by
  obtain ⟨contains, -, hMode⟩ := h.modes id
  simp only [Machine.terminatorEnd, hMode, funext h.pattern]

theorem hits (h : m.Reordered m') (id : Nat) (text : List Char) :
    m'.hits id text = m.hits id text := by
  obtain ⟨contains, -, hMode⟩ := h.modes id
  simp only [Machine.hits, hMode, h.keywordSets]

theorem closesAt (h : m.Reordered m') (id : Nat) (c : Cursor) :
    m'.closesAt id c = m.closesAt id c := by
  obtain ⟨contains, -, hMode⟩ := h.modes id
  simp only [Machine.closesAt, hMode, h.regexes]

theorem closesParent (h : m.Reordered m') (id : Nat) :
    (m'.mode id).closesParent = (m.mode id).closesParent := by
  obtain ⟨contains, -, hMode⟩ := h.modes id
  rw [hMode]

theorem closesWithParent (h : m.Reordered m') (id : Nat) :
    (m'.mode id).closesWithParent = (m.mode id).closesWithParent := by
  obtain ⟨contains, -, hMode⟩ := h.modes id
  rw [hMode]

theorem partClosing (h : m.Reordered m') (frames : List Frame) :
    m'.partClosing frames = m.partClosing frames := by
  fun_induction Machine.partClosing m frames with
  | case1 | case2 => rfl
  | case3 frame parent rest hCloses closed kept hEq ih =>
    rw [Machine.partClosing, h.closesParent, if_pos hCloses, ih, hEq]
  | case4 frame parent rest hStays => rw [Machine.partClosing, h.closesParent, if_neg hStays]

theorem partAt? (h : m.Reordered m') (c : Cursor) (frames : List Frame) :
    m'.partAt? c frames = m.partAt? c frames := by
  induction frames with
  | nil => rfl
  | cons frame rest ih =>
    rw [Machine.partAt?, Machine.partAt?, h.closesAt, h.closesWithParent, h.partClosing, ih]

theorem closeFrames (h : m.Reordered m') (closed : List Frame) (out : Output) :
    Output.closeFrames m' closed out = Output.closeFrames m closed out := by
  have hRelevance : ∀ id, (m'.mode id).relevance = (m.mode id).relevance := by
    intro id
    obtain ⟨contains, -, hMode⟩ := h.modes id
    rw [hMode]
  simp only [Output.closeFrames, hRelevance]

theorem flush (h : m.Reordered m') (id : Nat) (stop : Cursor) (s : Scan) :
    s.flush m' id stop = s.flush m id stop := by
  simp only [Scan.flush, h.hits]

theorem openMode (h : m.Reordered m') (id : Nat) (found : Span) (s : Scan) :
    s.openMode m' id found = s.openMode m id found := by
  obtain ⟨contains, -, hMode⟩ := h.modes id
  simp only [Scan.openMode, Scan.enter, Machine.frameOn, h.flush, h.terminatorEnd, hMode]

theorem closeModes (h : m.Reordered m') (closed kept : List Frame) (found : Span) (s : Scan) :
    s.closeModes m' closed kept found = s.closeModes m closed kept found := by
  obtain ⟨contains, -, hMode⟩ := h.modes s.top.mode
  simp only [Scan.closeModes, Scan.leave, h.flush, h.closeFrames, hMode]

theorem take (h : m.Reordered m') (count : Nat) (found : Match) (s : Scan) :
    s.take m' count found = s.take m count found := by
  simp only [Scan.take, Scan.close, h.openMode, h.closeModes, h.partAt?]

theorem finish (h : m.Reordered m') (s : Scan) : s.finish m' = s.finish m := by
  simp only [Scan.finish, h.flush]

theorem terminators (h : m.Reordered m') (id : Nat) (closing : Option String) :
    ∃ contains, (m.mode id).contains.Perm contains ∧
      m'.terminators id closing = m.openings contains ++ m.endings id closing := by
  obtain ⟨contains, hPerm, hMode⟩ := h.modes id
  refine ⟨contains, hPerm, ?_⟩
  have hOpening : ∀ child, (m'.mode child).opening = (m.mode child).opening := by
    intro child
    obtain ⟨contains, -, hMode⟩ := h.modes child
    rw [hMode]
  rw [terminators_eq]
  simp only [Machine.openings, Machine.endings, hMode, hOpening, h.pattern]

theorem programs (h : m.Reordered m') (ts : List (Terminator × String)) :
    m'.programs ts = m.programs ts := by
  simp only [Machine.programs, h.caseInsensitive]

end Reordered

variable {m : Machine} {children children' : List Nat}

theorem terminatorSet_eq (m : Machine) (id : Nat) (closing : Option String) :
    m.terminatorSet id closing =
      (m.programs (m.terminators id closing)).mapError
        (.terminators (m.terminators id closing).length) := rfl

theorem programs_append (m : Machine) (ts ts' : List (Terminator × String)) :
    m.programs (ts ++ ts') = do return (← m.programs ts) ++ (← m.programs ts') :=
  List.mapM_append

theorem program_eq_ok_iff {t : Terminator × String} {entry : Terminator × Program} :
    (do return (t.1, ← Pattern.compile ⟨m.caseInsensitive, true⟩ (asciiClasses t.2).toList) :
        Except PatternError (Terminator × Program)) = .ok entry ↔
      entry.1 = t.1 ∧
        Pattern.compile ⟨m.caseInsensitive, true⟩ (asciiClasses t.2).toList = .ok entry.2 := by
  obtain ⟨kind, program⟩ := entry
  cases Pattern.compile ⟨m.caseInsensitive, true⟩ (asciiClasses t.2).toList with
  | error e => exact ⟨nofun, nofun⟩
  | ok program' =>
    refine ⟨fun h => ?_, fun ⟨hKind, hProgram⟩ => ?_⟩
    · cases h
      exact ⟨rfl, rfl⟩
    · cases hKind
      cases hProgram
      rfl

/-- An opening has a program unless there is a look-behind that cannot be made ready. -/
theorem eq_variableLookBehind (hWell : m.WellFormed) (hChecked : m.Checked)
    {t : Terminator × String} (ht : t ∈ m.openings children) {e : PatternError}
    (h : Pattern.compile ⟨m.caseInsensitive, true⟩ (asciiClasses t.2).toList = .error e) :
    e = .variableLookBehind := by
  obtain ⟨child, -, hOpening⟩ := List.mem_filterMap.1 ht
  obtain ⟨regex, hRegex, rfl⟩ := Option.map_eq_some_iff.1 hOpening
  have hMode : m.mode child ∈ m.modes := by
    refine (m.mode_mem_or_eq child).resolve_right fun hEq => ?_
    rw [hEq] at hRegex
    cases hRegex
  have hLt := hWell.regexes _ hMode regex (.inl hRegex)
  obtain ⟨hCase, hFault⟩ := hChecked _ (Array.getElem_mem hLt)
  have hPattern : m.pattern regex = m.regexes[regex].pattern := by
    rw [pattern, Array.getElem?_eq_getElem hLt]
    rfl
  dsimp only at h
  rw [hPattern] at h
  cases hProgram : m.regexes[regex].program with
  | error fault =>
    rw [Regex.fault?, hProgram] at hFault
    cases hFault
  | ok program =>
    have hCompile := m.regexes[regex].program_eq
    rw [hProgram, hCase] at hCompile
    exact compile_captureAll_eq_error hCompile.symm h

/-- In any order, openings have the same programs or are broken in the same way. -/
theorem programs_openings (hWell : m.WellFormed) (hChecked : m.Checked)
    (hPerm : children.Perm children') :
    SameResult List.Perm (m.programs (m.openings children))
      (m.programs (m.openings children')) := by
  refine SameResult.mapM_perm (hPerm.filterMap _) fun t ht t' ht' e e' hBroken hBroken' => ?_
  have hFault : ∀ t ∈ m.openings children, ∀ e,
      (do return (t.1,
        ← Pattern.compile ⟨m.caseInsensitive, true⟩ (asciiClasses t.2).toList) :
        Except PatternError (Terminator × Program)) = .error e → e = .variableLookBehind := by
    intro t ht e hBroken
    cases hCompiled : Pattern.compile ⟨m.caseInsensitive, true⟩ (asciiClasses t.2).toList with
    | error fault =>
      rw [hCompiled] at hBroken
      cases hBroken
      exact eq_variableLookBehind hWell hChecked ht hCompiled
    | ok program =>
      rw [hCompiled] at hBroken
      cases hBroken
  rw [hFault t ht e hBroken, hFault t' ht' e' hBroken']

/-- Where modes open apart, their openings match alike in any order. -/
theorem matchAt?_openings {text : List Char} {id : Nat} {set set' : TerminatorSet}
    (hApart : m.OpensApart text) (hSet : m.programs (m.openings (m.mode id).contains) = .ok set)
    (hPerm : set.Perm set') : MatchAlikeIn text set set' := by
  intro c hc
  rw [TerminatorSet.matchAt?_eq_findSome?, TerminatorSet.matchAt?_eq_findSome?]
  have hOpens : ∀ entry ∈ set, ∃ child ∈ (m.mode id).contains, ∃ regex,
      (m.mode child).opening = some regex ∧
      entry.1 = .opening child ∧ Pattern.compile ⟨m.caseInsensitive, true⟩
        (asciiClasses (m.pattern regex)).toList = .ok entry.2 := by
    intro entry hEntry
    obtain ⟨t, ht, hOk⟩ := exists_of_mem_of_forall₂ (forall₂_of_mapM_eq_ok hSet) hEntry
    obtain ⟨child, hChild, hOpening⟩ := List.mem_filterMap.1 ht
    obtain ⟨regex, hRegex, rfl⟩ := Option.map_eq_some_iff.1 hOpening
    obtain ⟨hKind, hProgram⟩ := program_eq_ok_iff.1 hOk
    exact ⟨child, hChild, regex, hRegex, hKind, hProgram⟩
  refine findSome?_eq_of_perm hPerm fun e he e' he' hMatch hMatch' => ?_
  obtain ⟨kind, program⟩ := e
  obtain ⟨kind', program'⟩ := e'
  obtain ⟨child, hChild, regex, hRegex, rfl, hProgram⟩ := hOpens _ he
  obtain ⟨child', hChild', regex', hRegex', rfl, hProgram'⟩ := hOpens _ he'
  rw [Option.isSome_map] at hMatch hMatch'
  obtain rfl : child = child' := by
    by_contra hNe
    exact hApart id child hChild child' hChild' hNe c hc
      ⟨⟨regex, program, hRegex, hProgram, hMatch⟩, regex', program', hRegex',
        hProgram', hMatch'⟩
  obtain rfl : regex = regex' := Option.some.inj (hRegex.symm.trans hRegex')
  obtain rfl : program = program' := Except.ok.inj (hProgram.symm.trans hProgram')
  rfl

theorem MatchAlikeIn.append_right {text : List Char} {set set' : TerminatorSet}
    (h : MatchAlikeIn text set set') (rest : TerminatorSet) :
    MatchAlikeIn text (set ++ rest) (set' ++ rest) := by
  intro c hc
  rw [TerminatorSet.matchAt?_append, TerminatorSet.matchAt?_append, h c hc]

theorem Reordered.setOf {m' : Machine} (h : m.Reordered m') (hWell : m.WellFormed)
    (hChecked : m.Checked) {text : List Char} (hApart : m.OpensApart text)
    (key : Nat × Option String) : SameResult (MatchAlikeIn text) (m.setOf key) (m'.setOf key) := by
  obtain ⟨id, closing⟩ := key
  obtain ⟨contains, hPerm, hTerminators⟩ := h.terminators id closing
  have hLength : (m'.terminators id closing).length = (m.terminators id closing).length := by
    rw [hTerminators, terminators_eq, List.length_append, List.length_append]
    exact congrArg (· + _) (hPerm.filterMap _).length_eq.symm
  show SameResult _ (m.terminatorSet id closing) (m'.terminatorSet id closing)
  rw [terminatorSet_eq, terminatorSet_eq, h.programs, hLength, hTerminators, terminators_eq]
  refine SameResult.mapError ?_ _
  have hOpenings := programs_openings hWell hChecked hPerm
  rw [programs_append, programs_append]
  cases hSet : m.programs (m.openings (m.mode id).contains) with
  | error e =>
    rw [hSet] at hOpenings
    generalize m.programs (m.openings contains) = result at hOpenings
    cases hOpenings
    exact .error e
  | ok set =>
    rw [hSet] at hOpenings
    generalize m.programs (m.openings contains) = result at hOpenings
    cases hOpenings with
    | ok hSets =>
      cases m.programs (m.endings id closing) with
      | error e => exact .error e
      | ok rest => exact .ok ((matchAt?_openings hApart hSet hSets).append_right rest)

/-- Characters that follow wherever a mode opens. -/
def openingSpelling (m : Machine) (id : Nat) : List Char :=
  match (m.mode id).opening with
  | none => []
  | some regex =>
    match Pattern.compile ⟨m.caseInsensitive, true⟩ (asciiClasses (m.pattern regex)).toList with
    | .ok program => program.spelling
    | .error _ => []

theorem OpensAt.openingSpelling {id : Nat} {c : Cursor} (h : m.OpensAt id c) :
    m.openingSpelling id <+: c.after := by
  obtain ⟨regex, program, hRegex, hProgram, hMatch⟩ := h
  obtain ⟨stop, hStop⟩ := Option.isSome_iff_exists.1 hMatch
  simp only [Machine.openingSpelling, hRegex, hProgram]
  exact Program.spelling_of_matchFrom hStop

/-- Modes that open on different characters open apart in each text. -/
theorem opensApart_of_openingSpelling
    (h : ∀ mode ∈ m.modes, ∀ a ∈ mode.contains, ∀ b ∈ mode.contains, a ≠ b →
      ¬ m.openingSpelling a <+: m.openingSpelling b) (text : List Char) : m.OpensApart text := by
  intro id a ha b hb hNe c _ hBoth
  have hMode : m.mode id ∈ m.modes := by
    refine (m.mode_mem_or_eq id).resolve_right fun hEq => ?_
    rw [hEq] at ha
    cases ha
  rcases List.prefix_or_prefix_of_prefix hBoth.1.openingSpelling hBoth.2.openingSpelling with
    hPrefix | hPrefix
  · exact h _ hMode a ha b hb hNe hPrefix
  · exact h _ hMode b hb a ha (Ne.symm hNe) hPrefix

/-- The machine with the modes within each mode the other way round. -/
def reversed (m : Machine) : Machine :=
  { m with modes := m.modes.map fun mode => { mode with contains := mode.contains.reverse } }

theorem reordered_reversed (m : Machine) : m.Reordered m.reversed := by
  refine ⟨rfl, rfl, rfl, rfl, rfl, Array.size_map, fun id => ?_⟩
  refine ⟨(m.mode id).contains.reverse, (List.reverse_perm _).symm, ?_⟩
  simp only [mode, reversed, Array.getD_eq_getD_getElem?, Array.getElem?_map]
  cases m.modes[id]? <;> rfl

end Machine

namespace Scan

variable {m m' : Machine} {text : List Char} {count : Nat} {s : Scan}

theorem Reachable.step_reordered (hReach : Reachable m text count s) (h : m.Reordered m')
    (hWell : m.WellFormed) (hChecked : m.Checked) (hApart : m.OpensApart text) :
    s.step m' count = s.step m count := by
  have hSets := h.setOf hWell hChecked hApart (s.top.mode, s.top.closing)
  unfold step
  generalize m.setOf (s.top.mode, s.top.closing) = set,
    m'.setOf (s.top.mode, s.top.closing) = set' at hSets ⊢
  cases hSets with
  | error e => rfl
  | @ok set set' hAlike =>
    have hPlace := hReach.sound.pending.trans hReach.sound.place
    have hFind : set.find? s.place = set'.find? s.place :=
      TerminatorSet.search_eq_of_matchAt?_eq _ fun d hd => hAlike d (hPlace.trans hd)
    dsimp only
    rw [hFind]
    cases set'.find? s.place with
    | none => rfl
    | some found => exact h.take count found s

end Scan

namespace Tokenizer

variable {m m' : Machine}

theorem run_reordered (h : m.Reordered m') (hWell : m.WellFormed) (hChecked : m.Checked)
    {text : List Char} (hApart : m.OpensApart text) {fuel count : Nat} {s : Scan}
    (hReach : Scan.Reachable m text count s) (t : Tokenizer m) (t' : Tokenizer m') :
    (run fuel count s t).1 = (run fuel count s t').1 := by
  refine run_eq_of_related (R := fun st st' => Scan.Reachable m text st.1 st.2 ∧ st = st')
    (fun h => h.2 ▸ rfl) (fun {st _} hBoth => ?_) fuel ⟨hReach, rfl⟩ t t'
  obtain ⟨hReach, rfl⟩ := hBoth
  have hStep := hReach.step_reordered h hWell hChecked hApart
  have hTurn : Scan.turn m' st = Scan.turn m st := by
    simp only [Scan.turn, hStep, h.finish]
  rw [hTurn]
  cases hNext : Scan.turn m st with
  | inl next =>
    obtain ⟨hCount, hGoesOn⟩ := Scan.turn_eq_inl hNext
    exact .inl ⟨hCount ▸ hReach.next hGoesOn, rfl⟩
  | inr answer => exact .inr rfl

/-- The order of the modes within a mode decides nothing but ties. Machines that differ only in that
order answer alike for a text in which different modes within the same mode never open at the same
place: they find the same regions and tokens with the same relevance, or fail in the same way. -/
theorem tokenize_reordered {g : Grammar} (hCompile : g.compile = .ok m) (h : m.Reordered m')
    {text : String} (hApart : m.OpensApart text.toList) (t : Tokenizer m) (t' : Tokenizer m') :
    (t.tokenize text).1 = (t'.tokenize text).1 :=
  run_reordered h (Grammar.wellFormed_of_compile_eq_ok hCompile)
    (Grammar.checked_of_compile_eq_ok hCompile) hApart .start t t'

/-- Two kinds of brackets. -/
def brackets : Grammar where
  name := "brackets"
  contains :=
    [.inline (.ofSettings { category := some .string, opening := some "<<", closing := some ">>" }),
      .inline (.ofSettings
        { category := some .comment, opening := some "\\[\\[", closing := some "\\]\\]" })]

namespace brackets

theorem isSome_compile : brackets.compile.toOption.isSome := by decide +kernel

def machine : Machine := brackets.compile.toOption.get isSome_compile

/-- It does not matter which kind is listed first. -/
theorem tokenize_reversed :
    brackets.compile = .ok machine ∧ machine.Reordered machine.reversed ∧
      (machine.reversed.mode Machine.root).contains = [2, 1] ∧
      machine.OpensApart "<<[[>> [[<<]]".toList ∧
      ((fresh machine).tokenize "<<[[>> [[<<]]").1 =
        ((fresh machine.reversed).tokenize "<<[[>> [[<<]]").1 := by
  have hCompile : brackets.compile = .ok machine := Grammar.eq_ok_get isSome_compile
  have hApart : machine.OpensApart "<<[[>> [[<<]]".toList :=
    Machine.opensApart_of_openingSpelling (by decide +kernel) _
  exact ⟨hCompile, machine.reordered_reversed, by decide +kernel, hApart,
    tokenize_reordered hCompile machine.reordered_reversed hApart _ _⟩

end brackets

end Tokenizer

end Highlighter
