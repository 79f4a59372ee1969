import Highlighter.Proofs.Pattern.Joining
import Highlighter.Proofs.Scan.Closing
import Highlighter.Proofs.Scan.Compatible

/-! The end that is searched for and the modes that it belongs to. A mode is searched by one
pattern, which is put together from its own end and those of the modes around it that it ends with.
What is found is then tried on the end of each mode alone. -/

namespace Highlighter

open Text Pattern

/-- A choice matches where one of its programs does. -/
theorem Pattern.Program.isSome_matchFrom_choice (first second : Program) (c : Cursor) :
    ((choice first second).matchFrom c).isSome =
      ((first.matchFrom c).isSome || (second.matchFrom c).isSome) := by
  simp only [matchFrom, run, Option.isSome_map, Option.isSome_or]

namespace Machine

/-- Each end of a mode is a pattern that can be an alternative of another. -/
def EndsStandAlone (m : Machine) : Prop :=
  ∀ mode ∈ m.modes, ∀ regex ∈ mode.closing, StandsAlone m.caseInsensitive (m.pattern regex)

/-- Frames, the innermost first, each of which ends on what its mode resolves to on the one
below. -/
def Linked (m : Machine) : List Frame → Prop
  | [] => True
  | frame :: rest =>
    frame.closing = m.terminatorEnd frame.mode (rest.head?.getD .root).closing ∧ m.Linked rest

/-- A pattern matches where an end belongs to one of the frames; without it, no end does. -/
def Recognizes (m : Machine) (closing : Option String) (frames : List Frame) : Prop :=
  match closing with
  | none => ∀ c, m.partAt? c frames = none
  | some pattern => ∃ program, Stands m.caseInsensitive (asciiClasses pattern).toList program ∧
    ∀ c, (program.matchFrom c).isSome = (m.partAt? c frames).isSome

variable {m : Machine}

theorem isSome_partAt? (c : Cursor) (frame : Frame) (rest : List Frame) :
    (m.partAt? c (frame :: rest)).isSome =
      (m.closesAt frame.mode c ||
        ((m.mode frame.mode).closesWithParent && (m.partAt? c rest).isSome)) := by
  rw [partAt?]
  cases m.closesAt frame.mode c with
  | true => rfl
  | false => cases (m.mode frame.mode).closesWithParent <;> simp

/-- The own end of a mode matches where its pattern matches among the terminators. -/
theorem exists_stands (hWell : m.WellFormed) (hChecked : m.Checked) (hEnds : m.EndsStandAlone)
    {id regex : Nat} (hRegex : (m.mode id).closing = some regex) :
    openClasses 0 false (m.pattern regex).toList = 0 ∧
      ∃ program, Stands m.caseInsensitive (asciiClasses (m.pattern regex)).toList program ∧
        ∀ c, m.closesAt id c = (program.matchFrom c).isSome := by
  have hMode : m.mode id ∈ m.modes := by
    refine (m.mode_mem_or_eq id).resolve_right fun hEq => ?_
    rw [hEq] at hRegex
    cases hRegex
  have hAlone := hEnds _ hMode regex hRegex
  have hLt := hWell.regexes _ hMode regex (.inr (.inl hRegex))
  have hGet := Array.getElem?_eq_getElem hLt
  generalize m.regexes[regex] = r at hGet
  obtain ⟨hCase, hFault⟩ := hChecked r (Array.mem_of_getElem? hGet)
  have hPattern : m.pattern regex = r.pattern := by
    rw [pattern, hGet]
    rfl
  cases hProgram : r.program with
  | error e =>
    rw [Regex.fault?, hProgram] at hFault
    cases hFault
  | ok program =>
    have hCompile := r.program_eq.symm.trans hProgram
    rw [hCase, ← hPattern] at hCompile
    refine ⟨hAlone.closed, program, hAlone.plain.stands hCompile,
      fun c => ?_⟩
    rw [closesAt, hRegex, Option.bind_some, hGet, Option.any_some, Regex.matchAt?, hProgram]

theorem toList_asciiClasses_alternatives {own : String} (h : openClasses 0 false own.toList = 0)
    (other : String) : (asciiClasses ("(?:" ++ own ++ ")|(?:" ++ other ++ ")")).toList =
      joined (asciiClasses own).toList (asciiClasses other).toList := by
  have hText :
      ("(?:" ++ own ++ ")|(?:" ++ other ++ ")").toList = joined own.toList other.toList := by
    simp [joined]
  rw [toList_asciiClasses, toList_asciiClasses, toList_asciiClasses, hText, spellOut_joined h]

theorem Recognizes.congr {closing : Option String} {frames frames' : List Frame}
    (h : m.Recognizes closing frames)
    (hSame : ∀ c, (m.partAt? c frames').isSome = (m.partAt? c frames).isSome) :
    m.Recognizes closing frames' := by
  cases closing with
  | none =>
    intro c
    rw [← Option.isNone_iff_eq_none, ← Option.not_isSome, hSame, h c]
    rfl
  | some pattern =>
    obtain ⟨program, hStands, hMatches⟩ := h
    exact ⟨program, hStands, fun c => (hMatches c).trans (hSame c).symm⟩

/-- A mode without an end of its own has the end of the frame below, or none. -/
theorem Recognizes.push_inherited {closing : Option String} {rest : List Frame} {frame : Frame}
    (h : m.Recognizes closing rest) (hOwn : (m.mode frame.mode).closing = none) :
    m.Recognizes (m.terminatorEnd frame.mode closing) (frame :: rest) := by
  have hNever : ∀ c, m.closesAt frame.mode c = false := by
    intro c
    rw [closesAt, hOwn]
    rfl
  cases hWith : (m.mode frame.mode).closesWithParent with
  | false =>
    have hEnd : m.terminatorEnd frame.mode closing = none := by simp [terminatorEnd, hOwn, hWith]
    have hRoot : m.Recognizes none [] := fun _ => rfl
    rw [hEnd]
    refine hRoot.congr fun c => ?_
    rw [isSome_partAt?, hNever, hWith]
    rfl
  | true =>
    have hEnd : m.terminatorEnd frame.mode closing = closing := by
      cases closing <;> simp [terminatorEnd, hOwn, hWith]
    rw [hEnd]
    refine h.congr fun c => ?_
    rw [isSome_partAt?, hNever, hWith, Bool.false_or, Bool.true_and]

/-- What a mode resolves to on top of frames matches where its own end does, or where the end of a
frame below does that it ends with. -/
theorem Recognizes.push (hWell : m.WellFormed) (hChecked : m.Checked) (hEnds : m.EndsStandAlone)
    {closing : Option String} {rest : List Frame} (h : m.Recognizes closing rest) (frame : Frame) :
    m.Recognizes (m.terminatorEnd frame.mode closing) (frame :: rest) := by
  cases hOwn : (m.mode frame.mode).closing with
  | none => exact h.push_inherited hOwn
  | some regex =>
    obtain ⟨hClosed, program, hStands, hCloses⟩ := exists_stands hWell hChecked hEnds hOwn
    cases hWith : (m.mode frame.mode).closesWithParent with
    | false =>
      have hEnd : m.terminatorEnd frame.mode closing = some (m.pattern regex) := by
        simp [terminatorEnd, hOwn, hWith]
      rw [hEnd]
      refine ⟨program, hStands, fun c => ?_⟩
      rw [isSome_partAt?, hWith, Bool.false_and, Bool.or_false, hCloses]
    | true =>
      cases closing with
      | none =>
        have hEnd : m.terminatorEnd frame.mode none = some (m.pattern regex) := by
          simp [terminatorEnd, hOwn, hWith]
        rw [hEnd]
        refine ⟨program, hStands, fun c => ?_⟩
        rw [isSome_partAt?, h c, Option.isSome_none, Bool.and_false, Bool.or_false, hCloses]
      -- Both ends are spelled as alternatives in groups, so that each keeps its own program.
      | some parent =>
        have hEnd : m.terminatorEnd frame.mode (some parent) =
            some ("(?:" ++ m.pattern regex ++ ")|(?:" ++ parent ++ ")") := by
          simp [terminatorEnd, hOwn, hWith]
        rw [hEnd]
        obtain ⟨program', hStands', hMatches⟩ := h
        refine ⟨.choice program program', ?_, fun c => ?_⟩
        · rw [toList_asciiClasses_alternatives hClosed]
          exact hStands.join hStands'
        · rw [isSome_partAt?, hWith, Bool.true_and, Program.isSome_matchFrom_choice,
            hCloses, hMatches]

theorem Linked.recognizes (hWell : m.WellFormed) (hChecked : m.Checked) (hEnds : m.EndsStandAlone)
    {frames : List Frame} (h : m.Linked frames) :
    m.Recognizes (frames.head?.getD .root).closing frames := by
  induction frames with
  | nil => exact fun _ => rfl
  | cons frame rest ih =>
    obtain ⟨hClosing, hRest⟩ := h
    have hRecognizes := (ih hRest).push hWell hChecked hEnds frame
    rw [← hClosing] at hRecognizes
    exact hRecognizes

theorem Linked.of_append {above below : List Frame} (h : m.Linked (above ++ below)) :
    m.Linked below := by
  induction above with
  | nil => exact h
  | cons frame above ih => exact ih h.2

end Machine

namespace Scan

variable {m : Machine} {text : List Char} {count : Nat} {s : Scan}

theorem Reachable.linked (h : Reachable m text count s) : m.Linked s.frames :=
  h.frames_induct trivial (fun hLinked _ _ => ⟨rfl, hLinked⟩) Machine.Linked.of_append

/-- The pattern that ends the innermost mode and the modes that an end belongs to agree. -/
structure EndsAgree (m : Machine) (s : Scan) : Prop where
  /-- The pattern is broken only if modes are nested too deep. -/
  searchable : ∀ pattern, s.top.closing = some pattern → ∃ program,
    Yields (Pattern.compile ⟨m.caseInsensitive, true⟩ (asciiClasses pattern).toList) program
  /-- It matches where an end belongs to an open mode that those above end with. -/
  matched : ∀ pattern, s.top.closing = some pattern → ∀ program,
    Pattern.compile ⟨m.caseInsensitive, true⟩ (asciiClasses pattern).toList = .ok program →
      ∀ c, (program.matchFrom c).isSome = true ↔ ∃ o, m.Owns c s.stack o
  /-- Without a pattern, no end belongs to any mode. -/
  unmatched : s.top.closing = none → ∀ c o, ¬ m.Owns c s.stack o
  /-- An end that has been found closes modes. -/
  found : ∀ set, m.setOf (s.top.mode, s.top.closing) = .ok set →
    ∀ c found, set.find? c = some found → found.terminator = .closing →
    ∃ closed kept, m.partAt? found.span.start s.frames = some (closed, kept)
  /-- A mode that ends with the one around it can be ended wherever that one could. -/
  inherited : ∀ frame rest, s.frames = frame :: rest →
    (m.mode frame.mode).closesWithParent = true →
    ∀ parent, (rest.head?.getD .root).closing = some parent →
    ∃ own, s.top.closing = some own ∧ ∀ outer inner,
      Pattern.compile ⟨m.caseInsensitive, true⟩ (asciiClasses parent).toList = .ok outer →
      Pattern.compile ⟨m.caseInsensitive, true⟩ (asciiClasses own).toList = .ok inner →
      ∀ c, (outer.matchFrom c).isSome = true → (inner.matchFrom c).isSome = true

theorem isSome_partAt?_iff (m : Machine) (s : Scan) (c : Cursor) :
    (m.partAt? c s.frames).isSome = true ↔ ∃ o, m.Owns c s.stack o := by
  refine ⟨fun hSome => ?_, fun ⟨o, hOwns⟩ => ?_⟩
  · obtain ⟨⟨closed, kept⟩, hParts⟩ := Option.isSome_iff_exists.1 hSome
    obtain ⟨above, owner, below, _, hFrames, -, hAbove, hOwner, -⟩ :=
      Machine.exists_of_partAt? hParts
    exact ⟨_, owns_append hFrames hAbove hOwner⟩
  · obtain ⟨above, owner, below, hFrames, hAbove, hOwner⟩ := exists_of_owns hOwns
    rw [hFrames]
    exact Machine.partAt?_append hAbove hOwner

/-- The program of a pattern that finds the ends of frames. -/
theorem isSome_of_recognizes {pattern : String} {frames : List Frame}
    (h : m.Recognizes (some pattern) frames) {captureAll : Bool} {program : Program}
    (hCompile : Pattern.compile ⟨m.caseInsensitive, captureAll⟩
      (asciiClasses pattern).toList = .ok program) (c : Cursor) :
    (program.matchFrom c).isSome = (m.partAt? c frames).isSome := by
  obtain ⟨program', hStands, hMatches⟩ := h
  rcases hStands.yields captureAll with hDeep | hYields
  · rw [hDeep] at hCompile
    cases hCompile
  · rw [hYields] at hCompile
    cases hCompile
    exact hMatches c

theorem endsAgree_of_linked (hWell : m.WellFormed) (hChecked : m.Checked) (hEnds : m.EndsStandAlone)
    (hLinked : m.Linked s.frames) : EndsAgree m s := by
  have hRecognizes : m.Recognizes s.top.closing s.frames := hLinked.recognizes hWell hChecked hEnds
  refine ⟨fun pattern hTop => ?_, fun pattern hTop program hProgram c => ?_,
    fun hTop c o hOwns => ?_, fun set hSet c found hFound hClosing => ?_,
    fun frame rest hFrames hWith parent hParent => ?_⟩
  · rw [hTop] at hRecognizes
    obtain ⟨program, hStands, -⟩ := hRecognizes
    exact ⟨program, hStands.yields true⟩
  · rw [hTop] at hRecognizes
    rw [isSome_of_recognizes hRecognizes hProgram, isSome_partAt?_iff]
  · rw [hTop] at hRecognizes
    have hSome := (isSome_partAt?_iff m s c).2 ⟨o, hOwns⟩
    rw [hRecognizes c] at hSome
    cases hSome
  · obtain ⟨pattern, hEnd, program, hProgram, hMatch⟩ :=
      Machine.exists_of_find?_closing hSet hFound hClosing
    have hTop : s.top.closing = some pattern := hEnd
    rw [hTop] at hRecognizes
    have hSome := isSome_of_recognizes hRecognizes hProgram found.span.start
    rw [hMatch] at hSome
    obtain ⟨⟨closed, kept⟩, hParts⟩ := Option.isSome_iff_exists.1 hSome.symm
    exact ⟨closed, kept, hParts⟩
  -- The frames below the innermost one are linked as well, so that its parent
  -- recognizes its own ends.
  · rw [hFrames] at hLinked
    have hOuter := hLinked.2.recognizes hWell hChecked hEnds
    rw [hParent] at hOuter
    have hTop : s.top.closing = m.terminatorEnd frame.mode (some parent) := by
      rw [← hParent, ← hLinked.1, top, hFrames]
      rfl
    obtain ⟨own, hOwn⟩ : ∃ own, m.terminatorEnd frame.mode (some parent) = some own := by
      cases hClosing : (m.mode frame.mode).closing with
      | none => exact ⟨parent, by simp [Machine.terminatorEnd, hClosing, hWith]⟩
      | some regex => exact ⟨_, by simp only [Machine.terminatorEnd, hClosing, hWith]; rfl⟩
    rw [hOwn] at hTop
    refine ⟨own, hTop, fun outer inner hProgram hProgram' c hMatch => ?_⟩
    rw [hTop] at hRecognizes
    rw [isSome_of_recognizes hOuter hProgram] at hMatch
    rw [isSome_of_recognizes hRecognizes hProgram', hFrames, Machine.isSome_partAt?, hWith, hMatch,
      Bool.true_and, Bool.or_true]

/-- Where the ends of a compiled grammar are patterns that can be alternatives of one
another, what is searched for as the end of the innermost mode is found exactly where an end
belongs to one of the open modes. -/
theorem Reachable.ends_agree {g : Grammar} (hCompile : g.compile = .ok m) (hEnds : m.EndsStandAlone)
    (h : Reachable m text count s) : EndsAgree m s :=
  endsAgree_of_linked (Grammar.wellFormed_of_compile_eq_ok hCompile)
    (Grammar.checked_of_compile_eq_ok hCompile) hEnds h.linked

end Scan

/-- Tags whose values end with them, or at a blank. -/
def tags : Grammar where
  name := "tags"
  contains := [.inline (.containing
    { category := some .metadata, opening := some "<", closing := some "/?>" }
    [.inline (.ofSettings { category := some .string, opening := some "=", closing := some " ",
                            closesWithParent := some true })])]

namespace tags

theorem isSome_compile : tags.compile.toOption.isSome := by decide +kernel

def machine : Machine := tags.compile.toOption.get isSome_compile

theorem compile_eq : tags.compile = .ok machine := Grammar.eq_ok_get isSome_compile

theorem endsStandAlone : machine.EndsStandAlone := by
  unfold Machine.EndsStandAlone
  decide +kernel

/-- A tag within whose value the text goes on. -/
def valued : Scan := (Scan.start "<a=b/>".toList).afterSteps machine 2 1

/-- What the value resolves to. -/
def ending : Program :=
  (Pattern.compile ⟨false, true⟩ (asciiClasses "(?: )|(?:/?>)").toList).toOption.get
    (by decide +kernel)

/-- The end of the tag is found within the value, and it belongs to the tag. -/
theorem ends_found : machine.EndsStandAlone ∧ valued.top.closing = some "(?: )|(?:/?>)" ∧
    (ending.matchFrom valued.place.advance).isSome = true ∧
      ∃ o, machine.Owns valued.place.advance valued.stack o := by
  have hStart : Scan.Reachable machine "<a=b/>".toList 1 (.start "<a=b/>".toList) := .start
  obtain ⟨count, hReach⟩ := hStart.exists_afterSteps 2
  have hClosing : valued.top.closing = some "(?: )|(?:/?>)" := by decide +kernel
  have hMatch : (ending.matchFrom valued.place.advance).isSome = true := by decide +kernel
  have hCase : machine.caseInsensitive = false := by decide +kernel
  have hEnding : Pattern.compile ⟨machine.caseInsensitive, true⟩
      (asciiClasses "(?: )|(?:/?>)").toList = .ok ending := by
    rw [hCase]
    exact Grammar.eq_ok_get _
  have hAgree := Scan.Reachable.ends_agree compile_eq endsStandAlone hReach
  exact ⟨endsStandAlone, hClosing, hMatch,
    (hAgree.matched _ hClosing ending hEnding _).1 hMatch⟩

end tags

/-- Marks that end at a digit, with a value that also ends at the control character of a bracket. -/
def controls : Grammar where
  name := "controls"
  contains := [.inline (.containing
    { category := some .metadata, opening := some "<", closing := some "\\d" }
    [.inline (.ofSettings { category := some .title, opening := some "=", closing := some "\\c[",
                            closesWithParent := some true })])]

namespace controls

theorem isSome_compile : controls.compile.toOption.isSome := by decide +kernel

def machine : Machine := controls.compile.toOption.get isSome_compile

/-- A mark within whose value the text goes on. -/
def valued : Scan := (Scan.start "<a=b1c".toList).afterSteps machine 2 1

/-- What the value resolves to. -/
def ending : Program :=
  (Pattern.compile ⟨false, true⟩ (asciiClasses "(?:\\c[)|(?:\\d)").toList).toOption.get
    (by decide +kernel)

/-- The bracket counts as the opening of a class, so that the digits behind it are spelled out as
those of a class. The end of the mark belongs to the mark, but it is not found within the value. -/
theorem end_missed : controls.compile = .ok machine ∧
    (∀ mode ∈ machine.modes, ∀ regex ∈ mode.closing,
      Reader.Plain ⟨machine.caseInsensitive, false, false⟩
        (asciiClasses (machine.pattern regex)).toList) ∧
    ∃ count, Scan.Reachable machine "<a=b1c".toList count valued ∧
      valued.top.closing = some "(?:\\c[)|(?:\\d)" ∧
      Pattern.compile ⟨machine.caseInsensitive, true⟩ (asciiClasses "(?:\\c[)|(?:\\d)").toList =
        .ok ending ∧
      ending.matchFrom valued.place.advance = none ∧
      ∃ o, machine.Owns valued.place.advance valued.stack o := by
  have hStart : Scan.Reachable machine "<a=b1c".toList 1 (.start "<a=b1c".toList) := .start
  obtain ⟨count, hReach⟩ := hStart.exists_afterSteps 2
  have hCase : machine.caseInsensitive = false := by decide +kernel
  refine ⟨Grammar.eq_ok_get _, by decide +kernel, count, hReach, by decide +kernel, ?_, ?_,
    (Scan.isSome_partAt?_iff machine valued _).1 (by decide +kernel)⟩
  · rw [hCase]
    exact Grammar.eq_ok_get _
  · rw [← Option.isNone_iff_eq_none]
    decide +kernel

end controls

end Highlighter
