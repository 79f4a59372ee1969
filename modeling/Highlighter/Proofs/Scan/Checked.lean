import Highlighter.Proofs.Scan.Ends
import Highlighter.Proofs.Scan.Raw

/-! What the operations of a raw scan need. Each does the same as its counterpart if
all that it reads is there. -/

namespace Highlighter

open Text Pattern

/-! ### Texts -/

namespace Text

namespace Cursor

theorem seek_go_eq {c d : Cursor} (h : c.Reaches d) {rest : List Char} (hRest : c.after = rest) :
    seek.go d.offset rest c = d := by
  induction rest generalizing c with
  | nil =>
    obtain ⟨passed, hAfter, hOffset⟩ := h.exists_passed
    rw [hRest, List.nil_eq, List.append_eq_nil_iff] at hAfter
    refine h.eq_of_offset_le ?_
    rw [hOffset, hAfter.1]
    exact Nat.le_refl _
  | cons x rest ih =>
    rw [seek.go]
    split
    · next hLe => exact h.eq_of_offset_le hLe
    · next hLt => exact ih (h.advance (Nat.lt_of_not_le hLt)) (advance_after hRest)

theorem reaches_seek_go (n : Nat) (rest : List Char) (c : Cursor) :
    c.Reaches (seek.go n rest c) := by
  induction rest generalizing c with
  | nil => exact .refl c
  | cons x rest ih =>
    rw [seek.go]
    split
    · exact .refl c
    · exact (reaches_advance c).trans (ih _)

theorem at?_offset {text : List Char} {c : Cursor} (h : (start text).Reaches c) :
    at? text c.offset = some c := by
  have hSeek : (start text).seek c.offset = c := seek_go_eq h rfl
  simp [at?, hSeek]

theorem isSome_at?_iff {text : List Char} {n : Nat} : (at? text n).isSome ↔ Boundary text n := by
  constructor
  · intro h
    obtain ⟨c, hc⟩ := Option.isSome_iff_exists.1 h
    simp only [at?, Option.ite_none_right_eq_some, Option.some.injEq] at hc
    rw [← hc.1]
    exact boundary_offset (reaches_seek_go n _ _)
  · rintro ⟨left, right, rfl, rfl⟩
    have hReach :
        (start (left ++ right)).Reaches ⟨left.reverse, right, byteLength left, by simp⟩ :=
      ⟨left, rfl, (List.append_nil _).symm⟩
    rw [at?_offset hReach]
    rfl

end Cursor

variable {text : List Char}

theorem slice?_eq {c d : Cursor} (hStart : (Cursor.start text).Reaches c) (hStop : c.Reaches d) :
    slice? text c.offset d.offset = some (Span.mk c d).chars := by
  simp [slice?, Cursor.at?_offset hStart, Cursor.at?_offset (hStart.trans hStop), hStop.offset_le]

theorem nextBoundary?_eq {c : Cursor} (h : (Cursor.start text).Reaches c) :
    nextBoundary? text c.offset = some (if c.atEnd then none else some c.advance.offset) := by
  have hSlice := slice?_eq h (Cursor.reaches_toEnd c)
  have hChars := (@Span.after_eq_of_reaches ⟨c, c.toEnd⟩ (Cursor.reaches_toEnd c)).1
  rw [Cursor.toEnd_after, List.append_nil] at hChars
  rw [Cursor.offset_toEnd h, ← hChars] at hSlice
  rw [nextBoundary?, hSlice]
  obtain ⟨before, _ | ⟨x, after⟩, offset, hc⟩ := c
  · rfl
  · rfl

end Text

/-! ### Words -/

namespace KeywordIndex

theorem hitsFrom?_eq (k : KeywordIndex) {buffer : List Char} {searches : Nat} {c : Cursor}
    (h : (Cursor.start buffer).Reaches c) (hEnough : c.after.length < searches) :
    k.hitsFrom? buffer searches c.offset =
      some ((k.regex.matchesFrom searches c).filterMap k.hit?) := by
  -- By induction on the searches. Each starts behind at least one more character, so that they
  -- suffice.
  induction searches generalizing c with
  | zero => exact absurd hEnough (Nat.not_lt_zero _)
  | succ searches ih =>
    rw [hitsFrom?, Regex.matchesFrom, Cursor.at?_offset h]
    dsimp only [Option.bind_eq_bind, Option.bind_some]
    cases hFind : k.regex.find? c with
    | none => rfl
    | some s =>
      obtain ⟨start, stop⟩ := s
      obtain ⟨hStart, hStop⟩ := Regex.reaches_find? hFind
      have hReach := h.trans hStart
      have hLength := hStart.length_le
      dsimp only at hReach hLength hStop ⊢
      by_cases hEmpty : start.offset = stop.offset
      · have hIsEmpty : (Span.mk start stop).isEmpty = true := by simp [Span.isEmpty, hEmpty]
        rw [if_pos hEmpty, if_pos hIsEmpty, nextBoundary?_eq hReach]
        cases hEnd : start.atEnd with
        | true => rfl
        | false =>
          have hLt := Cursor.length_advance_lt hEnd
          exact ih (hReach.trans (Cursor.reaches_advance start)) (by omega)
      · have hIsEmpty : ¬ (Span.mk start stop).isEmpty = true := by simp [Span.isEmpty, hEmpty]
        have hLt := hStop.length_lt (Nat.lt_of_le_of_ne hStop.offset_le hEmpty)
        rw [if_neg hEmpty, if_neg hIsEmpty, slice?_eq hReach hStop, Option.bind_some,
          ih (hReach.trans hStop) (by omega), Option.bind_some, List.filterMap_cons]
        simp only [hit?, Span.text]
        cases k.get? (String.ofList (Span.mk start stop).chars) <;> rfl

theorem hits?_eq (k : KeywordIndex) (buffer : List Char) : k.hits? buffer = some (k.hits buffer) :=
  k.hitsFrom?_eq (.refl (.start buffer)) (Nat.lt_succ_self _)

end KeywordIndex

/-! ### The output -/

theorem mapM_eq_some_filterMap {α β : Type} {f : α → Option β} {l : List α}
    (h : ∀ a ∈ l, (f a).isSome) : l.mapM f = some (l.filterMap f) := by
  induction l with
  | nil => rfl
  | cons a l ih =>
    obtain ⟨hFirst, hRest⟩ := List.forall_mem_cons.1 h
    obtain ⟨b, hb⟩ := Option.isSome_iff_exists.1 hFirst
    rw [List.mapM_cons, hb, ih hRest, List.filterMap_cons_some hb]
    rfl

namespace Output

variable {text : List Char} {es : List Entry} {out out' : Output}

/-- The open regions are there, and the innermost one tells how many there are. -/
structure Tidy (out : Output) : Prop where
  proper : out.Proper
  depth : out.depth = out.unclosed.length

theorem Records.tidy (h : out.Records text es) : out.Tidy :=
  ⟨h.proper, h.depth_eq.trans h.length_unclosed.symm⟩

theorem Emits.tidy (h : Emits out out') (hTidy : out.Tidy) : out'.Tidy :=
  ⟨h.proper, by rw [h.depth_eq hTidy.proper, hTidy.depth, h.unclosed]⟩

theorem categories?_eq (h : out.Proper) : out.categories? = some out.categories := by
  refine mapM_eq_some_filterMap fun place hPlace => ?_
  rw [Array.getElem?_eq_getElem (h.opened place (List.mem_reverse.1 hPlace))]
  rfl

theorem emit?_eq (h : out.Proper) (stop : Nat) (innermost : Option Category) :
    out.emit? stop innermost = some (out.emit stop innermost) := by
  unfold emit? emit
  split
  · rfl
  · rw [categories?_eq h]
    rfl

theorem addRegion_eq (h : out.Tidy) (category : Category) (start stop : Nat) :
    out.addRegion category start stop =
      { out with regions := out.regions.push ⟨category, start, stop, out.depth⟩ } := by
  rw [addRegion, h.depth]

theorem Proper.addRegion (h : out.Proper) (category : Category) (start stop : Nat) :
    (out.addRegion category start stop).Proper := by
  refine ⟨fun place hPlace => (h.opened place hPlace).trans ?_, h.spans⟩
  rw [Output.addRegion, Array.size_push]
  exact Nat.lt_succ_self _

theorem emitHits?_eq (h : out.Tidy) (offset : Nat) (hits : List Hit) :
    out.emitHits? offset hits = some (out.emitHits offset hits) := by
  induction hits generalizing out with
  | nil => rfl
  | cons hit hits ih =>
    have hGap := (Emits.emit h.proper (offset + hit.start) none).tidy h
    have hWord :=
      Emits.emitKeyword h.proper (offset + hit.start) (offset + hit.stop) hit.data.category
    have hCounted := hWord.trans h.proper (.countHit hWord.proper hit.key hit.data.relevance)
    have hRest := ih (hCounted.tidy h)
    rw [emitHits?] at hRest ⊢
    rw [List.foldlM_cons, emit?_eq h.proper]
    dsimp only [Option.bind_eq_bind, Option.bind_some]
    rw [emit?_eq (hGap.proper.addRegion ..), addRegion_eq hGap]
    exact hRest

/-- The region of the innermost frame that has one is the innermost open region. -/
theorem Records.closeFrame?_eq (h : out.Records text es) {frame : Frame} {rest : List Nat}
    (hUnclosed : out.unclosed = [frame].filterMap (·.region) ++ rest) :
    out.closeFrame? frame = some (out.closeFrame frame) := by
  unfold closeFrame? closeFrame
  cases hRegion : frame.region with
  | none => rfl
  | some place =>
    rw [List.filterMap_cons_some hRegion, List.filterMap_nil, List.singleton_append] at hUnclosed
    have hLt := h.proper.opened place (by rw [hUnclosed]; exact List.mem_cons_self)
    simp [Output.closeRegion, Array.getElem?_eq_getElem hLt, hUnclosed]

theorem Records.closeAbove?_eq (h : out.Records text es) {frames : List Frame}
    (hUnclosed : out.unclosed = frames.filterMap (·.region)) :
    out.closeAbove? (frames ++ [.root]) = some (frames.foldl Output.closeFrame out) := by
  induction frames generalizing es out with
  | nil => rfl
  | cons frame frames ih =>
    rw [← List.singleton_append, List.filterMap_append] at hUnclosed
    have hStep : ∀ (out : Output) frame, ∃ n,
        out.closeFrame frame = (out.closeFrame frame).addRelevance n :=
      fun _ _ => ⟨0, by rw [Output.addRelevance, UInt32.add_zero]⟩
    obtain ⟨⟨es', hNext⟩, hRest, -⟩ := h.closeEach hStep hUnclosed
    rw [List.cons_append, closeAbove?, if_pos (by simp), h.closeFrame?_eq hUnclosed]
    exact ih hNext hRest

end Output

namespace Machine

variable {m : Machine} {text : List Char} {id : Nat}

theorem getElem?_modes (hId : id < m.modes.size) : m.modes[id]? = some (m.mode id) := by
  rw [mode, Array.getD_eq_getD_getElem?, Array.getElem?_eq_getElem hId]
  rfl

theorem mode_mem (hId : id < m.modes.size) : m.mode id ∈ m.modes :=
  Array.mem_of_getElem? (getElem?_modes hId)

theorem patternAt?_eq {place : Option Nat} (h : ∀ i ∈ place, i < m.regexes.size) :
    m.patternAt? place = some (place.map m.pattern) := by
  cases place with
  | none => rfl
  | some i => simp [patternAt?, pattern, Array.getElem?_eq_getElem (h i rfl)]

/-- The frame of a stack that has so many below it. -/
theorem modeAt?_eq {above below : List Frame} {frame : Frame} {depth : Nat}
    (hDepth : below.length = depth) (hMode : frame.mode < m.modes.size) :
    m.modeAt? (above ++ frame :: below) depth = some (m.mode frame.mode) := by
  have hFrame : (above ++ frame :: below).reverse[depth]? = some frame := by simp [← hDepth]
  rw [modeAt?, hFrame]
  exact getElem?_modes hMode

theorem modeAt?_aboveRoot {above frames : List Frame} {frame : Frame}
    (hMode : frame.mode < m.modes.size) :
    m.modeAt? (above ++ (frame :: frames ++ [.root])) (frames.length + 1) =
      some (m.mode frame.mode) :=
  modeAt?_eq (by simp) hMode

/-- The outermost mode that ends along with the innermost of `frames` has as many modes below it as
stay open, and the root. -/
theorem closingDepth?_eq {above frames : List Frame} (hFrames : frames ≠ [])
    (hModes : ∀ frame ∈ frames, frame.mode < m.modes.size) :
    m.closingDepth? (above ++ (frames ++ [.root])) frames.length =
      some ((m.partClosing frames).2.length + 1) := by
  fun_induction partClosing m frames generalizing above with
  | case1 => exact absurd rfl hFrames
  | case2 frame => rfl
  | case3 frame parent rest hCloses closed kept hEq ih =>
    obtain ⟨hMode, hRest⟩ := List.forall_mem_cons.1 hModes
    have hOuter := @ih (above ++ [frame]) (List.cons_ne_nil _ _) hRest
    rw [hEq, List.append_assoc] at hOuter
    rw [List.length_cons, closingDepth?, if_neg (by simp), modeAt?_aboveRoot hMode]
    dsimp only [Option.bind_eq_bind, Option.bind_some]
    rw [if_pos hCloses]
    exact hOuter
  | case4 frame parent rest hStays =>
    obtain ⟨hMode, hRest⟩ := List.forall_mem_cons.1 hModes
    rw [List.length_cons, closingDepth?, if_neg (by simp), modeAt?_aboveRoot hMode]
    dsimp only [Option.bind_eq_bind, Option.bind_some]
    rw [if_neg hStays]
    rfl

namespace WellFormed

variable (h : m.WellFormed)
include h

theorem terminatorEnd?_eq (hId : id < m.modes.size) (parent : Option String) :
    m.terminatorEnd? id parent = some (m.terminatorEnd id parent) := by
  have hOwn := patternAt?_eq fun i hi => h.regexes _ (mode_mem hId) i (.inr (.inl hi))
  simp only [terminatorEnd?, getElem?_modes hId, hOwn, Option.bind_eq_bind, Option.bind_some,
    terminatorEnd]
  cases (m.mode id).closesWithParent <;> cases (m.mode id).closing.map m.pattern
    <;> cases parent <;> rfl

theorem openingOf?_eq {child : Nat} (hChild : child < m.modes.size) : m.openingOf? child =
    some ((m.mode child).opening.map fun regex => (.opening child, m.pattern regex)) := by
  have hOpening := patternAt?_eq fun i hi => h.regexes _ (mode_mem hChild) i (.inl hi)
  simp [openingOf?, getElem?_modes hChild, hOpening, Function.comp_def]

theorem terminators?_eq (hId : id < m.modes.size) (closing : Option String) :
    m.terminators? id closing = some (m.terminators id closing) := by
  have hMem := mode_mem hId
  have hIllegal := patternAt?_eq fun i hi => h.regexes _ hMem i (.inr (.inr hi))
  have hOpening : ∀ child ∈ (m.mode id).contains, m.openingOf? child =
      some ((m.mode child).opening.map fun regex => (.opening child, m.pattern regex)) :=
    fun child hChild => h.openingOf?_eq (h.contains _ hMem child hChild)
  have hOpenings : (m.mode id).contains.mapM m.openingOf? = _ :=
    mapM_eq_some_filterMap fun child hChild => by simp [hOpening child hChild]
  rw [List.filterMap_congr hOpening] at hOpenings
  simp [terminators?, terminators, getElem?_modes hId, hOpenings, hIllegal,
    List.filterMap_map, Function.comp_def]

theorem terminatorSet?_eq (hId : id < m.modes.size) (closing : Option String) :
    m.terminatorSet? id closing = some (m.terminatorSet id closing) := by
  rw [terminatorSet?, h.terminators?_eq hId]
  rfl

theorem closesAt?_eq (hId : id < m.modes.size) {c : Cursor}
    (hReach : (Cursor.start text).Reaches c) :
    m.closesAt? (m.mode id) text c.offset = some (m.closesAt id c) := by
  rw [closesAt?, closesAt]
  cases hClosing : (m.mode id).closing with
  | none => rfl
  | some place =>
    have hLt := h.regexes _ (mode_mem hId) place (.inr (.inl hClosing))
    simp [Array.getElem?_eq_getElem hLt, Cursor.at?_offset hReach]

/-- An end leaves as many frames on the stack as there are modes that it leaves open, and the
root. -/
theorem endDepth?_eq (hRoot : root < m.modes.size) {above frames : List Frame}
    (hModes : ∀ frame ∈ frames, frame.mode < m.modes.size) {c : Cursor}
    (hReach : (Cursor.start text).Reaches c) :
    m.endDepth? text c.offset (above ++ (frames ++ [.root])) frames.length =
      some ((m.partAt? c frames).map fun parts => parts.2.length + 1) := by
  -- The stack above is kept in the statement, as looking further down does not shorten the stack.
  induction frames generalizing above with
  | nil =>
    have hAt : m.modeAt? (above ++ [.root]) 0 = some (m.mode root) :=
      @modeAt?_eq m above [] .root 0 rfl hRoot
    have hNone : (m.mode root).closing = none := by
      have hCloses := h.closes root _ (getElem?_modes hRoot)
      rwa [if_pos rfl] at hCloses
    simp [endDepth?, partAt?, hAt, closesAt?, hNone]
  | cons frame frames ih =>
    obtain ⟨hMode, hRest⟩ := List.forall_mem_cons.1 hModes
    have hCloses := h.closesAt?_eq hMode hReach
    simp only [List.length_cons, endDepth?, modeAt?_aboveRoot hMode, hCloses, Option.bind_eq_bind,
      Option.bind_some, partAt?]
    split
    · have hDepth := @closingDepth?_eq m above _ (List.cons_ne_nil frame frames) hModes
      rw [List.length_cons] at hDepth
      rw [hDepth]
      rfl
    · cases frames with
      | nil => simp [partAt?]
      | cons parent frames =>
        have hOuter := @ih (above ++ [frame]) hRest
        rw [List.append_assoc] at hOuter
        by_cases hWith : (m.mode frame.mode).closesWithParent = true
        · rw [if_pos ⟨hWith, by simp⟩, if_pos hWith, Option.map_map]
          exact hOuter
        · rw [if_neg fun hBoth => hWith hBoth.1, if_neg hWith]
          rfl

theorem flush?_eq (hId : id < m.modes.size) {s : Scan} (hSound : s.Sound text) {stop : Cursor}
    (hStop : s.pending.Reaches stop) :
    m.flush? text id stop.offset s.output = some (s.flush m id stop).output := by
  obtain ⟨es, hRecords⟩ := hSound.records
  rw [flush?, Scan.flush, hSound.position]
  split
  · rfl
  · have hTidy := hRecords.tidy
    dsimp only
    rw [getElem?_modes hId, Option.bind_eq_bind, Option.bind_some]
    cases hKeywords : (m.mode id).keywords with
    | none =>
      have hNone : m.hits id (Span.mk s.pending stop).chars = [] := by simp [hits, hKeywords]
      rw [hNone]
      exact Output.emit?_eq hTidy.proper ..
    | some place =>
      have hLt := h.keywords _ (mode_mem hId) place hKeywords
      have hHits : m.hits id (Span.mk s.pending stop).chars =
          m.keywordSets[place].hits (Span.mk s.pending stop).chars := by
        simp [hits, hKeywords, Array.getElem?_eq_getElem hLt]
      have hEmits := Output.Emits.emitHits hTidy.proper s.pending.offset
        (m.hits id (Span.mk s.pending stop).chars)
      rw [hHits] at hEmits ⊢
      simp [Array.getElem?_eq_getElem hLt, slice?_eq hSound.pending hStop, KeywordIndex.hits?_eq,
        Output.emitHits?_eq hTidy, Output.emit?_eq hEmits.proper]

end WellFormed

theorem popTo?_eq {closed kept : List Frame} {es : List Entry} {out : Output} {rest : List Nat}
    (h : out.Records text es) (hModes : ∀ frame ∈ closed, frame.mode < m.modes.size)
    (hUnclosed : out.unclosed = closed.filterMap (·.region) ++ rest) :
    m.popTo? (kept.length + 1) (closed ++ (kept ++ [.root])) out =
      some (kept ++ [.root], .closeFrames m closed out) := by
  induction closed generalizing es out with
  | nil => cases kept <;> simp [popTo?, Output.closeFrames]
  | cons frame closed ih =>
    obtain ⟨hMode, hRest⟩ := List.forall_mem_cons.1 hModes
    rw [← List.singleton_append, List.filterMap_append, List.append_assoc] at hUnclosed
    have hStep : ∀ (out : Output) frame, ∃ n,
        (out.closeFrame frame).addRelevance (m.mode frame.mode).relevance =
          (out.closeFrame frame).addRelevance n :=
      fun _ _ => ⟨_, rfl⟩
    obtain ⟨⟨es', hNext⟩, hUnclosed', -⟩ := h.closeEach hStep hUnclosed
    have hAbove : kept.length + 1 < (closed ++ (kept ++ [Frame.root])).length + 1 ∧
        closed ++ (kept ++ [Frame.root]) ≠ [] := by
      refine ⟨?_, by simp⟩
      simp only [List.length_append, List.length_singleton]
      omega
    rw [List.cons_append, popTo?, if_pos hAbove, h.closeFrame?_eq hUnclosed]
    dsimp only [Option.bind_eq_bind, Option.bind_some]
    rw [getElem?_modes hMode]
    exact ih hNext hRest hUnclosed'

end Machine

end Highlighter
