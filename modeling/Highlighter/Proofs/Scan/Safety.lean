import Highlighter.Proofs.Scan.Checked

/-! No access of a scan fails. What a raw scan looks up is there for as long as it does what a
scan does: the root is at the bottom of its stack and nowhere above, the modes on the stack are
in the table, and what has been emitted ends at a boundary of the text, not behind the place
that the scan goes on from. -/

namespace Highlighter

open Text Pattern

namespace Scan

theorem Sound.output_flush {text : List Char} {s : Scan} (h : s.Sound text) (m : Machine) (id : Nat)
    {stop : Cursor} (hStop : s.pending.Reaches stop) :
    (∃ es, (s.flush m id stop).output.Records text es) ∧
      (s.flush m id stop).output.unclosed = s.frames.filterMap (·.region) := by
  have hFlushed := h.flush m id hStop
  exact ⟨hFlushed.records, hFlushed.unclosed.trans (by rw [frames_flush])⟩

end Scan

namespace Machine

variable {m : Machine} {id child : Nat}

/-- A mode that opens within another one is in the table, and is never the root, which has no
opening. -/
theorem WellFormed.opened (h : m.WellFormed) (hId : id < m.modes.size)
    (hWithin : child ∈ (m.mode id).contains) (hOpening : (m.mode child).opening.isSome) :
    child < m.modes.size ∧ child ≠ root := by
  have hChild := h.contains _ (mode_mem hId) child hWithin
  exact ⟨hChild, (h.opens child _ (getElem?_modes hChild)).1 hOpening⟩

theorem root_lt_size {g : Grammar} (h : g.compile = .ok m) : root < m.modes.size := by
  obtain ⟨place, hImage⟩ := Grammar.exists_isImage h
  have hRoot : (g.modeAt? .root).isSome := rfl
  have hPlace := hImage.places.mapsTo hRoot
  rwa [hImage.root] at hPlace

end Machine

namespace Scan

variable {m : Machine} {text : List Char} {count : Nat} {s : Scan}

/-- The open modes are in the table, and the root is not among them. -/
def Placed (m : Machine) (s : Scan) : Prop :=
  ∀ frame ∈ s.frames, frame.mode < m.modes.size ∧ frame.mode ≠ Machine.root

theorem Reachable.placed (h : Reachable m text count s) (hWell : m.WellFormed)
    (hRoot : Machine.root < m.modes.size) : s.Placed m := by
  refine h.forall_frames ?_
  intro parent id region hParent hWithin hOpening
  have hAround : parent.mode < m.modes.size := by
    rcases hParent with rfl | hParent
    · exact hRoot
    · exact hParent.1
  exact hWell.opened hAround hWithin hOpening

end Scan

namespace RawScan

/-- A scan with the root put on its stack. -/
def of (s : Scan) : RawScan := ⟨s.frames ++ [.root], s.output, s.place.offset, s.lastOpening⟩

def ofOutcome (m : Machine) (count : Nat) :
    Outcome → (Nat × RawScan) ⊕ Except TokenizeError Tokens
  | .goesOn s => .inl (count + 1, of s)
  | .ends s => .inr (.ok (s.finish m))
  | .fails e => .inr (.error e)

variable {m : Machine} {text : List Char} {s : Scan} {found : Span} {count : Nat}

@[simp] theorem output_of (s : Scan) : (of s).output = s.output := rfl

@[simp] theorem place_of (s : Scan) : (of s).place = s.place.offset := rfl

theorem head?_stack_of (s : Scan) : (of s).stack.head? = some s.top := by
  obtain ⟨frames, output, pending, place, lastOpening⟩ := s
  cases frames <;> rfl

/-- A scan whose operations find what they look up: its open modes are in the tables of the
machine. -/
structure Fits (m : Machine) (text : List Char) (s : Scan) : Prop where
  wellFormed : m.WellFormed
  sound : s.Sound text
  modes : ∀ frame ∈ (of s).stack, frame.mode < m.modes.size

namespace Fits

theorem root (h : Fits m text s) : Machine.root < m.modes.size := h.modes .root (by simp [of])

theorem top (h : Fits m text s) : s.top.mode < m.modes.size :=
  h.modes _ (List.mem_of_mem_head? (head?_stack_of s))

theorem frames (h : Fits m text s) : ∀ frame ∈ s.frames, frame.mode < m.modes.size :=
  fun frame hFrame => h.modes frame (List.mem_append_left _ hFrame)

theorem forget (h : Fits m text s) : Fits m text { s with lastOpening := none } :=
  ⟨h.wellFormed,
    ⟨h.sound.records, h.sound.unclosed, h.sound.pending, h.sound.place, h.sound.position⟩,
    h.modes⟩

theorem openMode?_eq (h : Fits m text s) {id : Nat} (hId : id < m.modes.size)
    (hStart : s.place.Reaches found.start) (hStop : found.start.Reaches found.stop) :
    (of s).openMode? m text id found.start.offset found.stop.offset =
      some (of { s.openMode m id found with lastOpening := some found.start.offset }) := by
  have hFound := h.sound.place.trans hStart
  let stop := if (m.mode id).excludeOpening then found.stop else found.start
  have hFlush : s.pending.Reaches stop := .ite (hFound.trans hStop) hFound
  obtain ⟨es, hRecords⟩ := h.sound.records
  have hTidy := (Scan.emits_flush h.sound m s.top.mode hFlush).1.tidy hRecords.tidy
  have hFlushed := h.wellFormed.flush?_eq h.top h.sound hFlush
  simp only [stop, apply_ite Cursor.offset] at hFlushed hTidy
  simp only [openMode?, Machine.getElem?_modes hId, head?_stack_of, Option.bind_eq_bind,
    Option.bind_some]
  rw [output_of, hFlushed, Option.bind_some, h.wellFormed.terminatorEnd?_eq hId,
    Option.bind_some]
  cases hCategory : (m.mode id).category with
  | none =>
    simp [of, Scan.openMode, Scan.enter, Output.openFor, Machine.frameOn, hCategory,
      apply_ite Cursor.offset]
  | some category =>
    simp [of, Scan.openMode, Scan.enter, Output.openFor, Output.openRegion, Machine.frameOn,
      hCategory, Output.addRegion_eq hTidy, apply_ite Cursor.offset]

/-- The frames that an end closes are popped once the text before the end has been emitted. -/
theorem popTo?_eq (h : Fits m text s) {closed kept : List Frame}
    (hFrames : closed ++ kept = s.frames) {stop : Cursor} (hStop : s.pending.Reaches stop) :
    m.popTo? (kept.length + 1) (s.frames ++ [.root]) (s.flush m s.top.mode stop).output =
      some (kept ++ [.root], .closeFrames m closed (s.flush m s.top.mode stop).output) := by
  obtain ⟨⟨es, hRecords⟩, hUnclosed⟩ := h.sound.output_flush m s.top.mode hStop
  have hModes : ∀ frame ∈ closed, frame.mode < m.modes.size :=
    fun frame hFrame => h.frames frame (hFrames ▸ List.mem_append_left kept hFrame)
  rw [← hFrames, List.filterMap_append] at hUnclosed
  rw [← hFrames, List.append_assoc]
  exact Machine.popTo?_eq hRecords hModes hUnclosed

theorem closeModes?_eq (h : Fits m text s) (hLast : s.lastOpening = none)
    (hStart : s.place.Reaches found.start) (hStop : found.start.Reaches found.stop) :
    (of s).closeModes? m text found.start.offset found.stop.offset =
      some ((m.partAt? found.start s.frames).map fun parts =>
        of (s.closeModes m parts.1 parts.2 found)) := by
  have hFound := h.sound.place.trans hStart
  have hReach := h.sound.pending.trans hFound
  have hDepth :=
    @Machine.WellFormed.endDepth?_eq m text h.wellFormed h.root [] s.frames h.frames _ hReach
  have hLength : (of s).stack.length - 1 = s.frames.length := by simp [of]
  rw [closeModes?, hLength, show (of s).stack = [] ++ (s.frames ++ [.root]) from rfl, hDepth]
  cases hParts : m.partAt? found.start s.frames with
  | none => rfl
  | some parts =>
    obtain ⟨closed, kept⟩ := parts
    let mode := m.mode s.top.mode
    let stop := if mode.returnClosing || mode.excludeClosing then found.start else found.stop
    have hFlush : s.pending.Reaches stop := .ite hFound (hFound.trans hStop)
    have hFlushed := h.wellFormed.flush?_eq h.top h.sound hFlush
    have hPopped := h.popTo?_eq (Machine.append_of_partAt? hParts) hFlush
    have hId := h.wellFormed.id _ _ (Machine.getElem?_modes h.top)
    have hTop : (s.frames ++ [Frame.root]).head? = some s.top := head?_stack_of s
    simp only [stop, mode, apply_ite Cursor.offset] at hFlushed hPopped
    simp only [List.nil_append, Option.map_some, Option.bind_eq_bind, Option.bind_some, hTop,
      Machine.getElem?_modes h.top, hId, output_of, hFlushed, hPopped]
    simp only [of, Scan.closeModes, Scan.leave, Scan.lastOpening_flush, hLast,
      apply_ite Cursor.offset]
    rfl

theorem finish?_eq (h : Fits m text s) : (of s).finish? m text = some (s.finish m) := by
  have hEnd := Cursor.reaches_toEnd s.pending
  have hFlushed := h.wellFormed.flush?_eq h.top h.sound hEnd
  rw [Cursor.offset_toEnd h.sound.pending] at hFlushed
  obtain ⟨⟨es, hRecords⟩, hUnclosed⟩ := h.sound.output_flush m s.top.mode hEnd
  simp only [finish?, head?_stack_of, Option.bind_eq_bind, Option.bind_some]
  rw [output_of, hFlushed, Option.bind_some]
  rw [show (of s).stack = s.frames ++ [.root] from rfl, hRecords.closeAbove?_eq hUnclosed]
  simp [Scan.finish]

theorem pass?_eq (h : Fits m text s) (hStart : s.place.Reaches found.start) :
    (of s).pass? m text count found.start.offset found.stop.offset =
      some (ofOutcome m count (Scan.pass found { s with lastOpening := none })) := by
  have hNext := nextBoundary?_eq (h.sound.pending.trans (h.sound.place.trans hStart))
  unfold pass? Scan.pass
  split
  · rfl
  · rw [hNext]
    cases found.start.atEnd with
    | false => rfl
    | true =>
      have hFinish := h.forget.finish?_eq
      have hSame : (of s).finish? m text = (of { s with lastOpening := none }).finish? m text := rfl
      simp [hSame, hFinish, ofOutcome]

theorem take?_eq (h : Fits m text s) {found : Match}
    (hOpens : ∀ id, found.terminator = .opening id → id < m.modes.size)
    (hStart : s.place.Reaches found.span.start) (hStop : found.span.start.Reaches found.span.stop) :
    (of s).take? m text count found = some (ofOutcome m count (s.take m count found)) := by
  have hFound := h.sound.pending.trans (h.sound.place.trans hStart)
  simp only [take?, Scan.take]
  split
  · rfl
  · cases hKind : found.terminator with
    | opening id =>
      have hOpened := h.forget.openMode?_eq (hOpens id hKind) hStart hStop
      have hSame : (of s).openMode? m text id found.span.start.offset found.span.stop.offset =
        (of { s with lastOpening := none }).openMode? m text id found.span.start.offset
          found.span.stop.offset := rfl
      simp [hSame, hOpened, ofOutcome]
    | illegal =>
      have hLexeme := slice?_eq hFound hStop
      simp [hLexeme, ofOutcome, Span.text]
    | closing =>
      have hPassed := @pass?_eq m text s found.span count h hStart
      have hClosed := h.forget.closeModes?_eq rfl hStart hStop
      -- Neither side looks at the last opening again once it is known that the end does not stall.
      have hSame : (of s).closeModes? m text found.span.start.offset found.span.stop.offset =
          (of { s with lastOpening := none }).closeModes? m text found.span.start.offset
            found.span.stop.offset := rfl
      have hLast : (of s).lastOpening = s.lastOpening := rfl
      simp only [Scan.close, Span.isEmpty, beq_iff_eq, hLast]
      by_cases hStalled : s.lastOpening = some found.span.start.offset ∧
          found.span.start.offset = found.span.stop.offset
      · rw [if_pos hStalled, if_pos hStalled]
        exact hPassed
      · rw [if_neg hStalled, if_neg hStalled, hSame, hClosed]
        cases m.partAt? found.span.start s.frames with
        | none => exact hPassed
        | some parts => rfl

theorem turn?_eq (h : Fits m text s) (count : Nat) :
    turn? m text (count, of s) = some (ofOutcome m count (s.step m count)) := by
  have hPlace := Cursor.at?_offset (h.sound.pending.trans h.sound.place)
  simp only [turn?, head?_stack_of, h.wellFormed.terminatorSet?_eq h.top, Option.bind_eq_bind,
    Option.bind_some]
  rw [Scan.step, Machine.setOf]
  cases hSet : m.terminatorSet s.top.mode s.top.closing with
  | error e => rfl
  | ok set =>
    dsimp only
    rw [place_of, hPlace]
    dsimp only [Option.bind_some]
    cases hFound : set.find? s.place with
    | none => simp [h.finish?_eq, ofOutcome]
    | some found =>
      obtain ⟨hStart, hStop⟩ := TerminatorSet.reaches_find? hFound
      refine h.take?_eq (fun child hKind => ?_) hStart hStop
      exact h.wellFormed.contains _ (Machine.mode_mem h.top) child
        (Machine.exists_of_find?_opening hSet hFound hKind).1

theorem turn_eq (h : Fits m text s) (count : Nat) :
    RawScan.turn m text (count, of s) =
      (Scan.turn m (count, s)).map (fun next => (next.1, of next.2)) some := by
  rw [turn, h.turn?_eq, Scan.turn]
  cases s.step m count <;> rfl

end Fits

theorem fits_of_reachable (h : Scan.Reachable m text count s) (hWell : m.WellFormed)
    (hRoot : Machine.root < m.modes.size) : Fits m text s := by
  refine ⟨hWell, h.sound, fun frame hFrame => ?_⟩
  rcases List.mem_append.1 hFrame with hFrame | hFrame
  · exact (h.placed hWell hRoot frame hFrame).1
  · rw [List.mem_singleton.1 hFrame]
    exact hRoot

/-- The raw scans of a text, each with the number of the terminator that it searches for. -/
inductive Reachable (m : Machine) (text : List Char) : Nat → RawScan → Prop
  | start : Reachable m text 1 .start
  | next {count : Nat} {s : RawScan} {next : Nat × RawScan} (h : Reachable m text count s)
    (hTurn : turn m text (count, s) = .inl next) : Reachable m text next.1 next.2

/-- The raw scans of a text are its scans. -/
theorem Reachable.exists_scan {st : RawScan} (h : Reachable m text count st) (hWell : m.WellFormed)
    (hRoot : Machine.root < m.modes.size) : ∃ s, Scan.Reachable m text count s ∧ st = of s := by
  induction h with
  | start => exact ⟨.start text, .start, rfl⟩
  | @next count _ next _ hTurn ih =>
    obtain ⟨s, hReach, rfl⟩ := ih
    rw [(fits_of_reachable hReach hWell hRoot).turn_eq] at hTurn
    cases hStep : Scan.turn m (count, s) with
    | inr r =>
      rw [hStep] at hTurn
      cases hTurn
    | inl n =>
      rw [hStep] at hTurn
      cases hTurn
      obtain ⟨hCount, hNext⟩ := Scan.turn_eq_inl hStep
      exact ⟨n.2, hCount ▸ hReach.next hNext, rfl⟩

/-- A raw scan is left with what the scan is left with. -/
theorem loops_of {r : Except TokenizeError Tokens} {n : Nat}
    (hLoops : Loops (Scan.turn m) (count, s) n r) (hReach : Scan.Reachable m text count s)
    (hWell : m.WellFormed) (hRoot : Machine.root < m.modes.size) :
    Loops (turn m text) (count, of s) n (some r) := by
  generalize hState : (count, s) = state at hLoops
  induction hLoops generalizing count s with
  | leave hTurn =>
    subst hState
    have hLeaves := (fits_of_reachable hReach hWell hRoot).turn_eq count
    rw [hTurn] at hLeaves
    exact .leave hLeaves
  | again hTurn _ ih =>
    subst hState
    obtain ⟨hCount, hStep⟩ := Scan.turn_eq_inl hTurn
    have hGoesOn := (fits_of_reachable hReach hWell hRoot).turn_eq count
    rw [hTurn] at hGoesOn
    exact .again hGoesOn (ih (hCount ▸ hReach.next hStep) rfl)

/-- What holds of a raw scan before each turn. -/
structure Intact (m : Machine) (text : String) (s : RawScan) : Prop where
  bottom : s.stack.getLast? = some .root
  above : ∀ frame ∈ s.stack.dropLast, frame.mode ≠ Machine.root
  modes : ∀ frame ∈ s.stack, frame.mode < m.modes.size
  /-- Each frame ends on what its mode resolves to on the one below. -/
  closing : s.stack.IsChain fun frame below =>
    m.terminatorEnd? frame.mode below.closing = some frame.closing
  unclosed : s.output.unclosed = s.stack.filterMap (·.region)
  regions : ∀ place ∈ s.output.unclosed, place < s.output.regions.size
  position_le : s.output.position ≤ s.place
  place_le : s.place ≤ text.utf8ByteSize
  position_isValid : (⟨s.output.position⟩ : String.Pos.Raw).IsValid text
  place_isValid : (⟨s.place⟩ : String.Pos.Raw).IsValid text

theorem isChain_stack_of (hWell : m.WellFormed) (h : m.Linked s.frames)
    (hModes : ∀ frame ∈ s.frames, frame.mode < m.modes.size) :
    (of s).stack.IsChain fun frame below => m.terminatorEnd? frame.mode below.closing =
      some frame.closing := by
  simp only [of]
  generalize s.frames = frames at h hModes
  induction frames with
  | nil => exact .singleton _
  | cons frame rest ih =>
    obtain ⟨hMode, hRest⟩ := List.forall_mem_cons.1 hModes
    obtain ⟨hClosing, hLinked⟩ := h
    refine List.isChain_cons.2 ⟨fun below hBelow => ?_, ih hLinked hRest⟩
    have hHead : below = rest.head?.getD .root := by
      cases rest <;> exact (Option.some.inj hBelow).symm
    rw [hWell.terminatorEnd?_eq hMode, hHead, ← hClosing]

theorem intact_of {text : String} (h : Scan.Reachable m text.toList count s) (hWell : m.WellFormed)
    (hRoot : Machine.root < m.modes.size) : (of s).Intact m text := by
  have hFits := fits_of_reachable h hWell hRoot
  obtain ⟨es, hRecords⟩ := h.sound.records
  have hPlace := h.sound.pending.trans h.sound.place
  have hUnclosed : (of s).output.unclosed = (of s).stack.filterMap (·.region) := by
    simp [of, h.sound.unclosed, Frame.root]
  have hBoundary := Cursor.boundary_offset hPlace
  refine ⟨by simp [of], fun frame hFrame => ?_, hFits.modes,
    isChain_stack_of hWell h.linked hFits.frames, hUnclosed, hRecords.proper.opened, ?_, ?_, ?_,
    boundary_toList_iff.1 hBoundary⟩
  · exact (h.placed hWell hRoot frame (by simpa [of] using hFrame)).2
  · exact h.sound.position ▸ h.sound.place.offset_le
  · exact byteLength_toList text ▸ hBoundary.le
  · rw [output_of, h.sound.position]
    exact boundary_toList_iff.1 (Cursor.boundary_offset h.sound.pending)

/-- In no text does an access of a scan by a compiled grammar fail: a raw scan ends with the answer
of the tokenizer, and before each of its turns its stack, its output and its places fit together. -/
theorem loops_intact {g : Grammar} (h : g.compile = .ok m) (t : Tokenizer m) (text : String) :
    (∃ n, Loops (turn m text.toList) (1, start) n (some (t.tokenize text).1)) ∧
      ∀ count s, Reachable m text.toList count s →
        s.Intact m text ∧ (turn? m text.toList (count, s)).isSome := by
  have hWell := Grammar.wellFormed_of_compile_eq_ok h
  have hRoot := Machine.root_lt_size h
  refine ⟨?_, fun count s hReach => ?_⟩
  · obtain ⟨n, -, hLoops, -⟩ := t.exists_loops_tokenize text
    exact ⟨n, loops_of hLoops .start hWell hRoot⟩
  · obtain ⟨s, hScan, rfl⟩ := hReach.exists_scan hWell hRoot
    refine ⟨intact_of hScan hWell hRoot, ?_⟩
    rw [(fits_of_reachable hScan hWell hRoot).turn?_eq]
    rfl

end RawScan

/-- Parentheses within one another, with values that end along with them. The text around them names
itself among the modes within it. -/
def terms : Grammar where
  name := "terms"
  keywords := some { keyword := ["é"] }
  contains := [.named "self", .inline (.containing
    { category := some .params, opening := some "[(]", closing := some "[)]" }
    [.named "self", .inline (.ofSettings
      { category := some .string, opening := some "=", closesWithParent := some true })])]

namespace terms

theorem isSome_compile : terms.compile.toOption.isSome := by decide +kernel

def machine : Machine := terms.compile.toOption.get isSome_compile

theorem root_mem_contains : Machine.root ∈ (machine.mode Machine.root).contains := by
  obtain ⟨place, hImage⟩ := Grammar.exists_isImage (Grammar.eq_ok_get isSome_compile)
  have hRoot : terms.modeAt? .root = some terms.root := rfl
  have hContains := (hImage.depicts hRoot).2
  rw [hImage.root] at hContains
  rw [machine, hContains]
  exact List.mem_map.2 ⟨.root, List.mem_cons_self, hImage.root⟩

/-- The root is among the modes within it, but it never comes on top of itself. -/
theorem loops_nested : Machine.root ∈ (machine.mode Machine.root).contains ∧
    (∃ n, Loops (RawScan.turn machine "é(é(1)=é".toList) (1, .start) n
      (some ((Tokenizer.fresh machine).tokenize "é(é(1)=é").1)) ∧
    ∀ count s, RawScan.Reachable machine "é(é(1)=é".toList count s →
      s.Intact machine "é(é(1)=é" ∧
        (RawScan.turn? machine "é(é(1)=é".toList (count, s)).isSome :=
  ⟨root_mem_contains,
    RawScan.loops_intact (Grammar.eq_ok_get isSome_compile) (.fresh machine) "é(é(1)=é"⟩

end terms

end Highlighter
