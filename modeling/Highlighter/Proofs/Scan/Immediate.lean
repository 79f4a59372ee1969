import Highlighter.Proofs.Pattern.Immediate
import Highlighter.Proofs.Scan.Calls
import Highlighter.Proofs.Scan.Ends
import Highlighter.Proofs.Scan.Settled
import Highlighter.Proofs.Scan.Word

/-! Modes that say nothing of their end. Such a mode ends where it stands, unless a mode within it
opens right there; nothing further on is looked at. So if there are no modes within it, it covers
the lexeme that opens it and nothing else. -/

namespace Highlighter

open Text Pattern

/-- A mode closes on the pattern of modes that say nothing of their end. -/
structure Machine.Immediate (m : Machine) (id : Nat) : Prop where
  closing : ∃ regex, (m.mode id).closing = some regex ∧
    m.regexes[regex]? = some (.ofPattern immediateEnd m.caseInsensitive)
  alone : (m.mode id).closesWithParent = false

/-- So does each mode that has been declared without an end. -/
theorem Machine.IsImage.immediate {g : Grammar} {m : Machine} {place : Address → Nat}
    (h : m.IsImage g place) {a : Address} {rule : ModeRule} (ha : a ≠ .root)
    (hRule : g.modeAt? a = some rule) (hClosing : rule.settings.closing = none)
    (hAlone : rule.settings.closesWithParent.getD false = false) : m.Immediate (place a) := by
  have hDepicts := (h.depicts hRule).1
  have hEnd := hDepicts.closing
  simp only [ha, decide_false, Bool.false_eq_true, if_false, ModeSettings.closingPattern, hClosing,
    hAlone, Option.none_or, Option.map_some, PlaceOf, Option.map_eq_some_iff] at hEnd
  obtain ⟨regex, hRegex, hTable⟩ := hEnd
  refine ⟨⟨regex, hRegex, by rw [hTable, h.caseInsensitive]⟩, ?_⟩
  rw [hDepicts.closesWithParent, hAlone]

namespace Machine.Immediate

variable {m : Machine} {id : Nat}

theorem terminatorEnd (h : m.Immediate id) (parent : Option String) :
    m.terminatorEnd id parent = some immediateEnd := by
  obtain ⟨regex, hRegex, hTable⟩ := h.closing
  simp [Machine.terminatorEnd, hRegex, h.alone, Machine.pattern, hTable, Regex.ofPattern]

theorem closesAt (h : m.Immediate id) (c : Cursor) : m.closesAt id c = true := by
  obtain ⟨regex, hRegex, hTable⟩ := h.closing
  rw [Machine.closesAt, hRegex, Option.bind_some, hTable, Option.any_some,
    Regex.matchAt?_immediateEnd, Option.isSome_some]

/-- At each place a mode within the mode opens, or else the mode ends there. -/
theorem matchAt?_cases {set : TerminatorSet} (hSet : m.setOf (id, some immediateEnd) = .ok set)
    (c : Cursor) :
    (∃ child ∈ (m.mode id).contains, ∃ stop,
        set.matchAt? c = some ⟨.opening child, ⟨c, stop⟩⟩) ∨
      set.matchAt? c = some ⟨.closing, ⟨c, c⟩⟩ := by
  have hEntries := Machine.forall₂_of_terminatorSet_eq_ok hSet
  rw [terminators, List.append_assoc] at hEntries
  -- The set has the openings first, and the end right behind them.
  have hOpenings := List.forall₂_take_append _ _ _ hEntries.flip
  have hRest := List.forall₂_drop_append _ _ _ hEntries.flip
  rw [Option.map_some, Option.toList_some, List.singleton_append,
    List.forall₂_cons_right_iff] at hRest
  obtain ⟨⟨kind, program⟩, illegal, ⟨hKind, hProgram⟩, -, hDrop⟩ := hRest
  dsimp only at hKind hProgram
  rw [Pattern.compile_immediateEnd] at hProgram
  cases hKind
  cases hProgram
  rw [← List.take_append_drop _ set, hDrop, TerminatorSet.matchAt?_append]
  cases hFound : TerminatorSet.matchAt? c _ with
  | none =>
    right
    rw [Option.none_or, TerminatorSet.matchAt?, Program.matchFrom_immediate]
  | some found =>
    left
    obtain ⟨hStart, -⟩ := TerminatorSet.reaches_matchAt? hFound
    obtain ⟨program, hMem, -⟩ := TerminatorSet.exists_of_matchAt? hFound
    obtain ⟨t, ht, hKind, -⟩ := exists_of_mem_of_forall₂ hOpenings.flip hMem
    obtain ⟨child, hChild, hOpening⟩ := List.mem_filterMap.1 ht
    obtain ⟨regex, -, rfl⟩ := Option.map_eq_some_iff.1 hOpening
    obtain ⟨kind, ⟨start, stop⟩⟩ := found
    cases hStart
    cases hKind
    exact ⟨child, hChild, stop, rfl⟩

end Machine.Immediate

namespace Scan

variable {m : Machine} {text : List Char} {count id : Nat} {s s' : Scan} {found : Span}

/-- The innermost mode, if it says nothing of its end, is not the whole text. -/
theorem Reachable.closing_of_immediate (h : Reachable m text count s) (hWell : m.WellFormed)
    (hTop : m.Immediate s.top.mode) :
    s.top.closing = some immediateEnd ∧ ∃ rest, s.frames = s.top :: rest := by
  have hLinked := h.linked
  cases hFrames : s.frames with
  | nil =>
    have hRoot : s.top.mode = Machine.root := by
      rw [top, hFrames]
      rfl
    obtain ⟨regex, hRegex, -⟩ := hTop.closing
    rw [hRoot, Machine.mode, Array.getD_eq_getD_getElem?] at hRegex
    cases hMode : m.modes[Machine.root]? with
    | none =>
      rw [hMode] at hRegex
      cases hRegex
    | some mode =>
      rw [hMode, Option.getD_some, (if_pos rfl).mp (hWell.closes _ mode hMode)] at hRegex
      cases hRegex
  | cons frame rest =>
    have hEq : s.top = frame := by
      rw [top, hFrames]
      rfl
    rw [hFrames] at hLinked
    rw [hEq] at hTop ⊢
    exact ⟨hLinked.1.trans (hTop.terminatorEnd _), rest, rfl⟩

/-- What is found in a mode that says nothing of its end is found right at the place at hand, and it
is not illegal: a mode within opens there, or else the mode ends. -/
theorem Reachable.find?_immediate (h : Reachable m text count s) (hWell : m.WellFormed)
    (hTop : m.Immediate s.top.mode) {set : TerminatorSet}
    (hSet : m.setOf (s.top.mode, s.top.closing) = .ok set) :
    (∃ child ∈ (m.mode s.top.mode).contains, ∃ stop,
      set.find? s.place = some ⟨.opening child, ⟨s.place, stop⟩⟩) ∨
      set.find? s.place = some ⟨.closing, ⟨s.place, s.place⟩⟩ := by
  rw [(h.closing_of_immediate hWell hTop).1] at hSet
  rcases Machine.Immediate.matchAt?_cases hSet s.place with
    ⟨child, hChild, stop, hMatch⟩ | hMatch
  · exact .inl ⟨child, hChild, stop, TerminatorSet.find?_of_matchAt? hMatch⟩
  · exact .inr (TerminatorSet.find?_of_matchAt? hMatch)

/-- A step within such a mode without modes within it, unless it is right where the mode has
opened. -/
theorem Reachable.step_immediate (h : Reachable m text count s) (hWell : m.WellFormed)
    (hTop : m.Immediate s.top.mode) (hEmpty : (m.mode s.top.mode).contains = [])
    (hMoved : s.lastOpening ≠ some s.place.offset) :
    (∃ n fault, s.step m count = .fails (.terminators n fault)) ∨
      s.step m count = .fails (.runaway s.place.offset) ∨
      ∃ closed kept, closed ++ kept = s.frames ∧ s.top ∈ closed ∧ s.step m count =
        .goesOn
          ({ s with lastOpening := none }.closeModes m closed kept ⟨s.place, s.place⟩) := by
  cases hSet : m.setOf (s.top.mode, s.top.closing) with
  | error e =>
    obtain ⟨fault, rfl, -⟩ := Machine.exists_of_terminatorSet_eq_error hSet
    refine .inl ⟨(m.terminators s.top.mode s.top.closing).length, fault, ?_⟩
    rw [step, hSet]
  | ok set =>
    right
    have hFound : set.find? s.place = some ⟨.closing, ⟨s.place, s.place⟩⟩ := by
      refine (h.find?_immediate hWell hTop hSet).resolve_left fun ⟨child, hChild, _⟩ => ?_
      rw [hEmpty] at hChild
      cases hChild
    obtain ⟨-, rest, hFrames⟩ := h.closing_of_immediate hWell hTop
    obtain ⟨closed, kept, hParts⟩ : ∃ closed kept, m.partClosing s.frames = (closed, kept) :=
      ⟨_, _, rfl⟩
    have hPartAt : m.partAt? s.place s.frames = some (closed, kept) := by
      rw [← hParts, hFrames, Machine.partAt?, if_pos (hTop.closesAt s.place)]
    rw [step, hSet]
    dsimp only
    rw [hFound]
    dsimp only [take]
    by_cases hMany : count > patience ∧ count > s.place.offset * 3
    · exact .inl (if_pos hMany)
    · right
      refine ⟨closed, kept, Machine.append_of_partAt? hPartAt, ?_, ?_⟩
      · rw [hFrames] at hParts
        obtain ⟨⟨more, rfl⟩, -⟩ := Machine.exists_of_partClosing hParts
        exact List.mem_cons_self
      · rw [if_neg hMany, close, if_neg fun hStays => hMoved hStays.1]
        dsimp only
        rw [hPartAt]

/-- The scan `s` comes upon a lexeme that opens a mode, and goes on as `s'`. -/
structure Enters (m : Machine) (count id : Nat) (found : Span) (s s' : Scan) : Prop where
  found : ∃ set, m.setOf (s.top.mode, s.top.closing) = .ok set ∧
    set.find? s.place = some ⟨.opening id, found⟩
  step : s.step m count = .goesOn s'

namespace Enters

theorem eq (h : Enters m count id found s s') :
    s' = { openMode m id found { s with lastOpening := none } with
      lastOpening := some found.start.offset } := by
  obtain ⟨set, hSet, hFound⟩ := h.found
  have hStep := h.step
  rw [Scan.step, hSet] at hStep
  dsimp only at hStep
  rw [hFound] at hStep
  dsimp only [take] at hStep
  split at hStep
  · cases hStep
  · exact (Outcome.goesOn.inj hStep).symm

theorem exists_of_find? {set : TerminatorSet} (hSet : m.setOf (s.top.mode, s.top.closing) = .ok set)
    (hFound : set.find? s.place = some ⟨.opening id, found⟩) (hCount : count ≤ patience) :
    ∃ s', Enters m count id found s s' := by
  refine ⟨{ openMode m id found { s with lastOpening := none } with
    lastOpening := some found.start.offset }, ⟨set, hSet, hFound⟩, ?_⟩
  rw [Scan.step, hSet]
  dsimp only
  rw [hFound]
  exact if_neg fun hMany => absurd hMany.1 (Nat.not_lt.2 hCount)

/-- A mode whose lexeme is part of it has a region that starts with the lexeme, and
the text goes on behind it. -/
theorem opened (h : Enters m count id found s s') (hReach : Reachable m text count s)
    {category : Category} (hCategory : (m.mode id).category = some category)
    (hReturn : (m.mode id).returnOpening = false)
    (hExclude : (m.mode id).excludeOpening = false) :
    s'.top.mode = id ∧ s'.place = found.stop ∧ s'.lastOpening = some found.start.offset ∧
      ∃ place region, s'.top.region = some place ∧ s'.output.regions[place]? = some region ∧
        region.category = category ∧ region.start = found.start.offset := by
  obtain ⟨set, -, hFound⟩ := h.found
  obtain ⟨hStart, -⟩ := TerminatorSet.reaches_find? hFound
  have hForgot : Sound text { s with lastOpening := none } :=
    ⟨hReach.sound.records, hReach.sound.unclosed, hReach.sound.pending, hReach.sound.place,
      hReach.sound.position⟩
  let flushed := { s with lastOpening := none }.flush m s.top.mode found.start
  have hPosition : flushed.output.position = found.start.offset :=
    (emits_flush hForgot m s.top.mode (hReach.sound.place.trans hStart)).2
  have hOpened :
      openMode m id found { s with lastOpening := none } = flushed.enter m id s.top found := by
    simp only [openMode, hExclude]
    rfl
  obtain rfl := h.eq
  rw [hOpened]
  let region : Region :=
    ⟨category, flushed.output.position, flushed.output.position, flushed.output.depth⟩
  refine ⟨rfl, ?_, rfl, flushed.output.regions.size, region, ?_, ?_, rfl, hPosition⟩
  · simp [enter, hReturn]
  · simp [enter, top, Machine.frameOn, hCategory]
  · simp only [enter, hCategory, Output.openFor, Output.openRegion]
    exact Array.getElem?_push_size

/-- A mode that says nothing of its end and has no modes within it covers just the lexeme that opens
it. -/
theorem covers (h : Enters m count id found s s') (hReach : Reachable m text count s)
    (hWell : m.WellFormed) (hImmediate : m.Immediate id) (hEmpty : (m.mode id).contains = [])
    {category : Category} (hCategory : (m.mode id).category = some category)
    (hReturn : (m.mode id).returnOpening = false) (hExclude : (m.mode id).excludeOpening = false)
    (hLexeme : found.start.offset < found.stop.offset) :
    (∃ n fault, s'.step m (count + 1) = .fails (.terminators n fault)) ∨
      s'.step m (count + 1) = .fails (.runaway found.stop.offset) ∨
      ∃ s'', s'.step m (count + 1) = .goesOn s'' ∧ s''.place = found.stop ∧ ∃ place region,
        s''.output.regions[place]? = some region ∧ place ∉ s''.output.unclosed ∧
        region.category = category ∧ region.start = found.start.offset ∧
        region.stop = found.stop.offset := by
  obtain ⟨rfl, hPlace, hOpening, place, region, hTop, hRegion, hKind, hFirst⟩ :=
    h.opened hReach hCategory hReturn hExclude
  have hReach' : Reachable m text (count + 1) s' := hReach.next h.step
  have hMoved : s'.lastOpening ≠ some s'.place.offset := by
    rw [hOpening, hPlace]
    exact fun hEq => Nat.ne_of_lt hLexeme (Option.some.inj hEq)
  rw [← hPlace]
  rcases hReach'.step_immediate hWell hImmediate hEmpty hMoved with hFails | hFails | hEnds
  · exact .inl hFails
  · exact .inr (.inl hFails)
  · obtain ⟨closed, kept, hFrames, hMem, hStep⟩ := hEnds
    have hForgot : Sound text { s' with lastOpening := none } :=
      ⟨hReach'.sound.records, hReach'.sound.unclosed, hReach'.sound.pending, hReach'.sound.place,
        hReach'.sound.position⟩
    let lexeme : Span := ⟨s'.place, s'.place⟩
    have hModes : EndsModes m closed kept { s' with lastOpening := none }
        ({ s' with lastOpening := none }.closeModes m closed kept lexeme) :=
      endsModes_closeModes hForgot hFrames (.refl _) (.refl _)
    have hPending :
        ({ s' with lastOpening := none }.closeModes m closed kept lexeme).pending = s'.place := by
      rw [pending_closeModes m closed kept hForgot.place (.refl _)]
      exact ite_self _
    obtain ⟨region', hBefore, hAfter⟩ := hModes.closedRegions _ hMem place hTop
    have hSame : region' = region := Option.some.inj (hBefore.symm.trans hRegion)
    refine .inr (.inr ⟨_, hStep, ?_, place, _, hAfter, fun hOpen => ?_, ?_, ?_, ?_⟩)
    · simp [closeModes, leave]
    · -- No region is open twice, so the region of the mode is not that of one that is kept.
      obtain ⟨es, hRecords⟩ := hForgot.records
      have hNodup := hRecords.nodup_unclosed
      rw [hModes.openAfter] at hOpen
      rw [hForgot.unclosed, ← hFrames, List.filterMap_append] at hNodup
      exact (List.nodup_append'.1 hNodup).2.2 (List.mem_filterMap.2 ⟨_, hMem, hTop⟩) hOpen
    · rw [hSame, ← hKind]
    · rw [hSame, ← hFirst]
    · rw [hPending]

end Enters

/-- Modes of a grammar that are declared without an end, and not to end with the mode around them.
Whatever their text, what is found next in such a mode is found right at the place at hand and shows
nothing illegal: a mode within opens there, or else the mode ends. So if there are no modes within,
what a nonempty lexeme opens is the region of that lexeme, and the text goes on behind it. -/
theorem immediate_modes {g : Grammar} (h : g.compile = .ok m) : ∃ place, m.IsImage g place ∧
    ∀ a rule, a ≠ .root → g.modeAt? a = some rule → rule.settings.closing = none →
      rule.settings.closesWithParent.getD false = false →
    ∀ (text : String) count s, Reachable m text.toList count s →
      (s.top.mode = place a → ∀ set, m.setOf (s.top.mode, s.top.closing) = .ok set →
        ∃ found, set.find? s.place = some found ∧ found.span.start = s.place ∧
          found.terminator ≠ .illegal ∧
          ((∃ child ∈ (m.mode (place a)).contains, found.terminator = .opening child) ∨
            found.terminator = .closing ∧ found.span.stop = s.place)) ∧
      (rule.entries = [] → rule.settings.returnOpening.getD false = false →
        rule.settings.excludeOpening.getD false = false →
        ∀ category found s', rule.settings.category = some category →
          Enters m count (place a) found s s' →
          found.start.offset < found.stop.offset →
          ((∃ n fault, s'.step m (count + 1) = .fails (.terminators n fault)) ∨
            s'.step m (count + 1) = .fails (.runaway found.stop.offset) ∨
            ∃ s'', s'.step m (count + 1) = .goesOn s'' ∧ s''.place = found.stop) ∧
          ∀ (t : Tokenizer m) tokens, (t.tokenize text).1 = .ok tokens →
            ∃ region ∈ tokens.regions,
            region.category = category ∧ region.start = found.start.offset ∧
              region.stop = found.stop.offset) := by
  have hWell := Grammar.wellFormed_of_compile_eq_ok h
  obtain ⟨place, hImage⟩ := Grammar.exists_isImage h
  refine ⟨place, hImage, fun a rule ha hRule hClosing hAlone text count s hReach => ?_⟩
  have hImmediate := hImage.immediate ha hRule hClosing hAlone
  refine ⟨fun hTop set hSet => ?_,
    fun hEmpty hReturn hExclude category found s' hCategory hEnters hLexeme => ?_⟩
  · rw [← hTop] at hImmediate ⊢
    rcases hReach.find?_immediate hWell hImmediate hSet with
      ⟨child, hChild, stop, hFound⟩ | hFound
    · exact ⟨_, hFound, rfl, nofun, .inl ⟨child, hChild, rfl⟩⟩
    · exact ⟨_, hFound, rfl, nofun, .inr ⟨rfl, rfl⟩⟩
  · obtain ⟨hDepicts, hContains⟩ := hImage.depicts hRule
    have hNone : (m.mode (place a)).contains = [] := by
      rw [hContains, hEmpty]
      rfl
    have hSteps := hEnters.covers hReach hWell hImmediate hNone (hDepicts.category.trans hCategory)
      (hDepicts.returnOpening.trans hReturn) (hDepicts.excludeOpening.trans hExclude) hLexeme
    refine ⟨?_, fun t tokens hTokens => ?_⟩
    · rcases hSteps with hFails | hFails | ⟨s'', hStep, hPlace, -⟩
      · exact .inl hFails
      · exact .inr (.inl hFails)
      · exact .inr (.inr ⟨s'', hStep, hPlace⟩)
    -- A text that has tokens has none of the two failures, so the mode has been left and
    -- its region is settled.
    · have hReach' := hReach.next hEnters.step
      rcases hSteps with
        ⟨n, fault, hFails⟩ | hFails | ⟨s'', hStep, -, i, region, hRegion, hClosed, hRest⟩
      · exact absurd hFails (hReach'.step_ne_fails hTokens _)
      · exact absurd hFails (hReach'.step_ne_fails hTokens _)
      · obtain ⟨hKind, hFirst, hLast⟩ := hRest
        refine ⟨region, (hReach'.next hStep).mem_regions hRegion hClosed ?_ hTokens, hKind,
          hFirst, hLast⟩
        rwa [hFirst, hLast]

/-- Numbers, of which nothing says where they end. Within them everything would be illegal. -/
def numbers : Grammar where
  name := "numbers"
  contains := [.inline
    (.ofSettings { category := some .number, opening := some "[0-9]+", illegal := some "." })]

namespace numbers

theorem isSome_compile : numbers.compile.toOption.isSome :=
  Grammar.isSome_compile (by decide +kernel)

def machine : Machine := numbers.compile.toOption.get isSome_compile

theorem compile_eq : numbers.compile = .ok machine := Grammar.eq_ok_get isSome_compile

/-- The machine with its patterns spelled out. -/
def spelled : Machine := (numbers.assemble.toOption.get (by decide +kernel)).spelled

theorem machine_eq : machine = spelled := Grammar.get_compile _ _

/-- Within a number, its end comes before what is illegal. -/
theorem setOf_number : spelled.setOf (1, some immediateEnd) =
    .ok [(.closing, .immediate wordChar), (.illegal, .test (.any false))] := by
  have hTerminators : spelled.caseInsensitive = false ∧
      spelled.terminators 1 (some immediateEnd) = [(.closing, immediateEnd), (.illegal, ".")] := by
    decide +kernel
  have hAny :
      Pattern.compile ⟨false, true⟩ (asciiClasses ".").toList = .ok (.test (.any false)) := by
    decide +kernel
  rw [Machine.setOf, Machine.terminatorSet, hTerminators.1, hTerminators.2]
  simp only [List.mapM_cons, compile_immediateEnd, hAny]
  rfl

/-- A tokenizer that knows what ends a number. -/
def acquainted : Tokenizer spelled := (Memo.empty.add _ _ setOf_number, .empty)

theorem isSome_tokenize : ((Tokenizer.fresh machine).tokenize "é12é").1.toOption.isSome := by
  rw [Tokenizer.tokenize_fst, machine_eq, ← acquainted.tokenize_fst]
  decide +kernel

/-- The digits of a text, between two other characters. -/
def lexeme : Span :=
  ⟨(Cursor.start "é12é".toList).advance,
    (Cursor.start "é12é".toList).advance.advance.advance⟩

/-- The number is the lexeme, and what follows it is not looked at. -/
theorem region_number : numbers.compile = .ok machine ∧
    ∃ tokens, ((Tokenizer.fresh machine).tokenize "é12é").1 = .ok tokens ∧
      ∃ region ∈ tokens.regions, region.category = .number ∧ region.start = 2 ∧
        region.stop = 4 := by
  have hFound : ((machine.setOf (Machine.root, none)).toOption.bind fun set =>
      (set.find? (.start "é12é".toList)).map fun found => (found.terminator, found.span)) =
        some (.opening 1, lexeme) := by
    rw [machine_eq]
    decide +kernel
  obtain ⟨set, hSet, hMatch⟩ := Option.bind_eq_some_iff.1 hFound
  obtain ⟨⟨kind, span⟩, hFind, hEq⟩ := Option.map_eq_some_iff.1 hMatch
  cases hEq
  have hSet := eq_ok_of_toOption_eq_some hSet
  obtain ⟨s', hEnters⟩ : ∃ s', Enters machine 1 1 lexeme (.start "é12é".toList) s' :=
    Enters.exists_of_find? hSet hFind (by decide)
  obtain ⟨place, hImage, hModes⟩ := immediate_modes compile_eq
  have hPlace : place (.inner .root 0 0) = 1 := by
    have hContains := (hImage.depicts (a := .root) rfl).2
    have hChild := (Machine.exists_of_find?_opening hSet hFind rfl).1
    rw [← hImage.root, hContains] at hChild
    exact (List.mem_singleton.1 hChild).symm
  have hNumber := hModes (.inner .root 0 0) _ (by decide) rfl rfl rfl "é12é" 1 _ .start
  rw [hPlace] at hNumber
  obtain ⟨-, hRegion⟩ := hNumber.2 rfl rfl rfl .number lexeme s' rfl hEnters (by decide +kernel)
  have hOffsets : lexeme.start.offset = 2 ∧ lexeme.stop.offset = 4 := by decide +kernel
  rw [hOffsets.1, hOffsets.2] at hRegion
  have hTokens := Grammar.eq_ok_get isSome_tokenize
  exact ⟨compile_eq, _, hTokens, hRegion _ _ hTokens⟩

end numbers

end Scan

end Highlighter
