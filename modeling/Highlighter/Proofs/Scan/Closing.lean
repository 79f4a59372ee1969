import Highlighter.Proofs.Scan.Emission
import Highlighter.Proofs.Scan.Progress

/-! Which modes an end closes. The end belongs to one open mode, which all above it end with. Those
between that one and the outermost one to be closed close the modes around them. The modes below
stay open, and the text before the end has been emitted within all that were open. -/

namespace Highlighter

open Text

namespace Machine

variable {m : Machine} {c : Cursor}

/-- An end at `c` belongs to the open mode at place `o` above the root, among modes of which the
outermost comes first: the mode's own end matches, and the modes above it end with the one around
them, but not by themselves. -/
structure Owns (m : Machine) (c : Cursor) (stack : List Frame) (o : Nat) : Prop where
  aboveRoot : 1 ≤ o
  closes : ∃ frame, stack[o]? = some frame ∧ m.closesAt frame.mode c = true
  above : ∀ i frame, o < i → stack[i]? = some frame →
    (m.mode frame.mode).closesWithParent = true ∧ m.closesAt frame.mode c = false

theorem Owns.eq {stack : List Frame} {o o' : Nat} (h : m.Owns c stack o) (h' : m.Owns c stack o') :
    o = o' := by
  obtain ⟨frame, hFrame, hCloses⟩ := h.closes
  obtain ⟨frame', hFrame', hCloses'⟩ := h'.closes
  rcases Nat.lt_trichotomy o o' with hLt | hEq | hLt
  · have hNot := (h.above o' frame' hLt hFrame').2
    rw [hCloses'] at hNot
    cases hNot
  · exact hEq
  · have hNot := (h'.above o frame hLt hFrame).2
    rw [hCloses] at hNot
    cases hNot

/-- What ends along with a mode: modes that close the ones around them, and a last one that does
not, if there are others below. -/
theorem exists_of_partClosing {frame : Frame} {rest closed kept : List Frame}
    (h : m.partClosing (frame :: rest) = (closed, kept)) :
    (∃ more, closed = frame :: more) ∧ ∃ between last, closed = between ++ [last] ∧
      (∀ f ∈ between, (m.mode f.mode).closesParent = true) ∧
      (kept = [] ∨ (m.mode last.mode).closesParent = false) := by
  induction rest generalizing frame closed kept with
  | nil =>
    cases h
    exact ⟨⟨[], rfl⟩, [], frame, rfl, List.forall_mem_nil _, .inl rfl⟩
  | cons parent rest ih =>
    unfold partClosing at h
    split at h
    · next hCloses =>
      generalize hParts : m.partClosing (parent :: rest) = parts at h
      cases h
      obtain ⟨-, between, last, hEq, hBetween, hLast⟩ := ih hParts
      rw [hEq]
      exact ⟨⟨_, rfl⟩, frame :: between, last, rfl,
        List.forall_mem_cons.2 ⟨hCloses, hBetween⟩, hLast⟩
    · next hStays =>
      cases h
      exact ⟨⟨[], rfl⟩, [], frame, rfl, List.forall_mem_nil _,
        .inr (Bool.not_eq_true _ ▸ hStays)⟩

/-- What an end closes: modes that end with the one around them, and from the mode that the end
belongs to on, what ends along with that. -/
theorem exists_of_partAt? {frames closed kept : List Frame}
    (h : m.partAt? c frames = some (closed, kept)) : ∃ above owner below closed',
    frames = above ++ owner :: below ∧ closed = above ++ closed' ∧
      (∀ f ∈ above, (m.mode f.mode).closesWithParent = true ∧ m.closesAt f.mode c = false) ∧
      m.closesAt owner.mode c = true ∧ m.partClosing (owner :: below) = (closed', kept) := by
  induction frames generalizing closed kept with
  | nil => cases h
  | cons frame rest ih =>
    unfold partAt? at h
    split at h
    · next hCloses =>
        exact ⟨[], frame, rest, closed, rfl, rfl, List.forall_mem_nil _, hCloses,
          Option.some.inj h⟩
    · next hOpen =>
      split at h
      · next hWith =>
        obtain ⟨⟨closed', kept'⟩, hRest, hEq⟩ := Option.map_eq_some_iff.1 h
        cases hEq
        obtain ⟨above, owner, below, more, rfl, rfl, hAbove, hOwner, hParts⟩ := ih hRest
        exact ⟨frame :: above, owner, below, more, rfl, rfl,
          List.forall_mem_cons.2 ⟨⟨hWith, Bool.not_eq_true _ ▸ hOpen⟩, hAbove⟩,
          hOwner, hParts⟩
      · cases h

theorem partAt?_append {above below : List Frame} {owner : Frame}
    (hAbove : ∀ f ∈ above, (m.mode f.mode).closesWithParent = true ∧
      m.closesAt f.mode c = false) (hOwner : m.closesAt owner.mode c = true) :
    (m.partAt? c (above ++ owner :: below)).isSome = true := by
  induction above with
  | nil =>
    rw [List.nil_append, partAt?, if_pos hOwner]
    rfl
  | cons frame above ih =>
    obtain ⟨⟨hWith, hOpen⟩, hAbove⟩ := List.forall_mem_cons.1 hAbove
    rw [List.cons_append, partAt?, if_neg (by simp [hOpen]), if_pos hWith, Option.isSome_map]
    exact ih hAbove

end Machine

namespace Scan

variable {m : Machine} {text : List Char} {count : Nat} {s : Scan}

/-- The open modes, the outermost first. -/
def stack (s : Scan) : List Frame := Frame.root :: s.frames.reverse

/-- What a closing lexeme makes of a scan: the text before its end is emitted within all modes that
are open, and then some are closed, the innermost first. -/
structure EndsModes (m : Machine) (closed kept : List Frame) (s s' : Scan) : Prop where
  frames : s'.frames = kept
  /-- The regions of the open modes are the open regions. -/
  openBefore : s.output.unclosed = s.frames.filterMap (·.region)
  openAfter : s'.output.unclosed = kept.filterMap (·.region)
  output : ∃ out, s.output.Emits out ∧ out.position = s'.pending.offset ∧
    s'.output = .closeFrames m closed out
  emitted : ∀ p, s.pending.offset ≤ p → p < s'.pending.offset →
    ∃ t ∈ s'.output.tokens, t.covers p = true ∧ s.output.categories <+: t.categories
  closedRegions : ∀ frame ∈ closed, ∀ place ∈ frame.region, ∃ region,
    s.output.regions[place]? = some region ∧
      s'.output.regions[place]? = some { region with stop := s'.pending.offset }
  otherRegions :
    ∀ place < s.output.regions.size, (∀ frame ∈ closed, frame.region ≠ some place) →
      s'.output.regions[place]? = s.output.regions[place]?
  keptRegions : ∀ frame ∈ kept, ∀ place ∈ frame.region,
    s'.output.regions[place]? = s.output.regions[place]?

theorem endsModes_closeModes (hSound : s.Sound text) {closed kept : List Frame} {found : Span}
    (hFrames : closed ++ kept = s.frames) (hStart : s.place.Reaches found.start)
    (hStop : found.start.Reaches found.stop) :
    EndsModes m closed kept s (s.closeModes m closed kept found) := by
  let mode := m.mode s.top.mode
  let stop := if mode.returnClosing || mode.excludeClosing then found.start else found.stop
  have hFound := hSound.place.trans hStart
  have hFlush : s.pending.Reaches stop := .ite hFound (hFound.trans hStop)
  obtain ⟨hEmits, hPosition⟩ := emits_flush hSound m s.top.mode hFlush
  have hPending : (s.closeModes m closed kept found).pending = stop :=
    pending_closeModes m closed kept hFound hStop
  have hOutput : (s.closeModes m closed kept found).output =
      .closeFrames m closed (s.flush m s.top.mode stop).output := rfl
  have hRegions :=
    fun place => Output.regions_closeFrames m closed (s.flush m s.top.mode stop).output place
  obtain ⟨es, hRecords⟩ := hSound.records
  have hOpen :
      ∀ frame ∈ s.frames, ∀ place ∈ frame.region, place < s.output.regions.size := by
    intro frame hFrame place hPlace
    refine hRecords.proper.opened place ?_
    rw [hSound.unclosed]
    exact List.mem_filterMap.2 ⟨frame, hFrame, hPlace⟩
  -- A region changes only if one of the closed frames has it.
  have hKept :
      ∀ place < s.output.regions.size, (∀ frame ∈ closed, frame.region ≠ some place) →
        (s.closeModes m closed kept found).output.regions[place]? = s.output.regions[place]? := by
    intro place hPlace hOther
    rw [hOutput, hRegions, if_neg fun ⟨frame, hFrame, hEq⟩ => hOther frame hFrame hEq]
    exact hEmits.regions place hPlace
  refine
    { frames := rfl
      openBefore := hSound.unclosed
      openAfter := (hSound.closeModes m hFrames hStart hStop).unclosed
      output := ⟨_, hEmits, hPending ▸ hPosition, hOutput⟩
      emitted := fun p hp hpStop => ?_
      closedRegions := fun frame hFrame place hPlace => ?_
      otherRegions := hKept
      keptRegions := fun frame hFrame place hPlace => ?_ }
  · rw [hPending] at hpStop
    rw [hOutput, Output.tokens_closeFrames]
    exact hEmits.within p (hSound.position ▸ hp) (hPosition ▸ hpStop)
  · have hLt := hOpen frame (hFrames ▸ List.mem_append_left kept hFrame) place hPlace
    refine ⟨s.output.regions[place], Array.getElem?_eq_getElem hLt, ?_⟩
    rw [hOutput, hRegions, if_pos ⟨frame, hFrame, hPlace⟩, hEmits.regions place hLt, hPending,
      hPosition, Array.getElem?_eq_getElem hLt]
    rfl
  · have hLt := hOpen frame (hFrames ▸ List.mem_append_right closed hFrame) place hPlace
    -- No two open modes share a region.
    have hNodup := hRecords.nodup_unclosed
    rw [hSound.unclosed, ← hFrames, List.filterMap_append] at hNodup
    refine hKept place hLt fun frame' hFrame' hEq => ?_
    exact (List.nodup_append'.1 hNodup).2.2 (List.mem_filterMap.2 ⟨frame', hFrame', hEq⟩)
      (List.mem_filterMap.2 ⟨frame, hFrame, hPlace⟩)

/-- The frames above the root, the innermost first, by the places of the stack. -/
theorem owns_append {above below : List Frame} {owner : Frame} {c : Cursor}
    (hFrames : s.frames = above ++ owner :: below) (hAbove : ∀ f ∈ above,
      (m.mode f.mode).closesWithParent = true ∧ m.closesAt f.mode c = false)
    (hOwner : m.closesAt owner.mode c = true) : m.Owns c s.stack (below.length + 1) := by
  have hStack : s.stack = (.root :: below.reverse) ++ owner :: above.reverse := by
    simp [stack, hFrames]
  have hLength : (Frame.root :: below.reverse).length = below.length + 1 := by simp
  refine ⟨Nat.le_add_left _ _, ⟨owner, ?_, hOwner⟩,
    fun i frame hi hFrame => hAbove frame ?_⟩
  · rw [hStack, List.getElem?_append_right hLength.le, hLength, Nat.sub_self]
    rfl
  · rw [hStack, List.getElem?_append_right (hLength.le.trans hi.le), hLength,
      show i - (below.length + 1) = (i - (below.length + 1) - 1) + 1 by omega,
      List.getElem?_cons_succ] at hFrame
    exact List.mem_reverse.1 (List.mem_of_getElem? hFrame)

theorem exists_of_owns {c : Cursor} {o : Nat} (h : m.Owns c s.stack o) : ∃ above owner below,
    s.frames = above ++ owner :: below ∧
      (∀ f ∈ above, (m.mode f.mode).closesWithParent = true ∧ m.closesAt f.mode c = false) ∧
      m.closesAt owner.mode c = true := by
  obtain ⟨owner, hOwner, hCloses⟩ := h.closes
  obtain ⟨k, rfl⟩ := Nat.exists_eq_add_of_le' h.aboveRoot
  rw [stack, List.getElem?_cons_succ] at hOwner
  obtain ⟨hLt, hOwner⟩ := List.getElem?_eq_some_iff.1 hOwner
  refine ⟨(s.frames.reverse.drop (k + 1)).reverse, owner, (s.frames.reverse.take k).reverse, ?_,
    fun f hf => ?_, hCloses⟩
  · rw [← List.reverse_inj, List.reverse_append, List.reverse_cons, List.reverse_reverse,
      List.reverse_reverse, List.append_assoc, List.singleton_append, ← hOwner]
    rw [← List.drop_eq_getElem_cons hLt, List.take_append_drop]
  · obtain ⟨i, hi⟩ := List.mem_iff_getElem?.1 (List.mem_reverse.1 hf)
    rw [List.getElem?_drop] at hi
    exact h.above (k + 1 + i + 1) f (by omega) hi

/-- The scan that some steps lead to, as far as it goes on. -/
def afterSteps (m : Machine) : (steps : Nat) → (count : Nat) → Scan → Scan
  | 0, _, s => s
  | steps + 1, count, s =>
    match s.step m count with
    | .goesOn s' => afterSteps m steps (count + 1) s'
    | _ => s

theorem Reachable.exists_afterSteps (h : Reachable m text count s) (steps : Nat) :
    ∃ count', Reachable m text count' (s.afterSteps m steps count) := by
  induction steps generalizing count s with
  | zero => exact ⟨count, h⟩
  | succ steps ih =>
    rw [afterSteps]
    cases hStep : s.step m count with
    | goesOn s' => exact ih (h.next hStep)
    | ends _ => exact ⟨count, h⟩
    | fails _ => exact ⟨count, h⟩

end Scan

/-- A call within whose arguments a value is given. -/
def calls.within : Scan := (Scan.start "f(a=b)".toList).afterSteps calls.machine 3 1

end Highlighter
