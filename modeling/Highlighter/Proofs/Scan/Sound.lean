import Highlighter.Proofs.Scan.Record
import Highlighter.Proofs.Scan.Run

/-! What a scan keeps to. `Scan.Sound` ties its open modes, its output and its places together: the
open regions are those of the open modes, and the output ends where the pending text starts. Each
step keeps this, so that what is found in a text describes the text. -/

namespace Highlighter

open Text

namespace Machine

theorem ordered_hits (m : Machine) (id : Nat) (text : List Char) :
    Hit.Ordered text 0 (m.hits id text) := by
  unfold hits
  split
  · next index _ => exact index.ordered_hits text
  · trivial

theorem partClosing_append (m : Machine) (frames : List Frame) :
    (m.partClosing frames).1 ++ (m.partClosing frames).2 = frames := by
  fun_induction partClosing m frames with
  | case1 => rfl
  | case2 frame => rfl
  | case3 frame parent rest hCloses closed kept hEq ih =>
    rw [hEq] at ih
    rw [List.cons_append, ih]
  | case4 frame parent rest hCloses => rfl

theorem append_of_partAt? {m : Machine} {c : Cursor} {frames closed kept : List Frame}
    (h : m.partAt? c frames = some (closed, kept)) : closed ++ kept = frames := by
  induction frames generalizing closed kept with
  | nil => cases h
  | cons frame rest ih =>
    unfold partAt? at h
    split at h
    · have hParts := m.partClosing_append (frame :: rest)
      rw [Option.some.inj h] at hParts
      exact hParts
    · split at h
      · obtain ⟨⟨closed', kept'⟩, hRest, hEq⟩ := Option.map_eq_some_iff.1 h
        cases hEq
        rw [List.cons_append, ih hRest]
      · cases h

end Machine

namespace Scan

/-- The output, the open modes and the places of a scan of a text fit together. -/
structure Sound (text : List Char) (s : Scan) : Prop where
  records : ∃ es, s.output.Records text es
  unclosed : s.output.unclosed = s.frames.filterMap (·.region)
  pending : (Cursor.start text).Reaches s.pending
  place : s.pending.Reaches s.place
  position : s.output.position = s.pending.offset

@[simp] theorem frames_flush (m : Machine) (id : Nat) (stop : Cursor) (s : Scan) :
    (s.flush m id stop).frames = s.frames := by
  unfold flush
  split <;> rfl

@[simp] theorem lastOpening_flush (m : Machine) (id : Nat) (stop : Cursor) (s : Scan) :
    (s.flush m id stop).lastOpening = s.lastOpening := by
  unfold flush
  split <;> rfl

theorem pending_flush (m : Machine) (id : Nat) {stop : Cursor} {s : Scan}
    (h : s.pending.Reaches stop) : (s.flush m id stop).pending = stop := by
  unfold flush
  split
  · next hStop => exact h.eq_of_offset_le hStop
  · rfl

theorem pending_flush_reaches (m : Machine) (id : Nat) {stop place : Cursor} {s : Scan}
    (hStop : s.pending.Reaches stop) (hPlace : stop.Reaches place) :
    (s.flush m id stop).pending.Reaches place := by
  rw [pending_flush m id hStop]
  exact hPlace

namespace Sound

variable {text : List Char} {s : Scan}

theorem start (text : List Char) : (Scan.start text).Sound text :=
  ⟨⟨[], .start text⟩, rfl, .refl _, .refl _, rfl⟩

theorem moveTo (h : s.Sound text) {place : Cursor} (hPlace : s.pending.Reaches place) :
    Sound text { s with place } :=
  ⟨h.records, h.unclosed, h.pending, hPlace, h.position⟩

theorem flush (h : s.Sound text) (m : Machine) (id : Nat) {stop : Cursor}
    (hStop : s.pending.Reaches stop) : Sound text { s.flush m id stop with place := stop } := by
  unfold Scan.flush
  split
  · exact h.moveTo hStop
  · next hLt =>
    -- The words are looked for in the pending text, which is a stretch of the text.
    obtain ⟨left, hText, hLeft⟩ := h.pending.exists_passed
    obtain ⟨right, hAfter, hLength⟩ := (Span.mk s.pending stop).chars_append
    obtain ⟨es, hRecords⟩ := h.records
    have hLeft : s.pending.offset = byteLength left := hLeft.trans (Nat.zero_add _)
    have hSplit : text = left ++ ((Span.mk s.pending stop).chars ++ right) := by
      rw [← hAfter]
      exact hText
    have hBoundary := Cursor.boundary_offset (h.pending.trans hStop)
    have hStart := h.position
    rw [hLeft] at hStart ⊢
    rw [hSplit] at hRecords
    obtain ⟨⟨es', hEmitted⟩, hUnclosed, hPosition⟩ :=
      hRecords.emitHits (m.ordered_hits id _) (by omega) (Nat.zero_le _)
    rw [← hSplit] at hEmitted
    refine ⟨⟨es', hEmitted.emit hBoundary⟩, ?_, h.pending.trans hStop, .refl _, ?_⟩
    · rw [Output.unclosed_emit]
      exact hUnclosed.trans h.unclosed
    · have hEnd : byteLength left + byteLength (Span.mk s.pending stop).chars ≤ stop.offset := by
        simp only [Span.length] at hLength
        omega
      rw [Output.position_emit]
      exact Nat.max_eq_right (hPosition.trans hEnd)

/-- A mode whose region opens where the emitted text ends goes on top of the open ones. -/
theorem push (h : s.Sound text) (category : Option Category) (frame : Frame)
    (hRegion : frame.region = if category.isSome then some s.output.regions.size else none) :
    Sound text { s with output := s.output.openFor category, frames := frame :: s.frames } := by
  obtain ⟨es, hRecords⟩ := h.records
  cases category with
  | none =>
    exact ⟨h.records, by rw [List.filterMap_cons_none hRegion]; exact h.unclosed, h.pending,
      h.place, h.position⟩
  | some category =>
    refine ⟨⟨_, hRecords.openRegion category⟩, ?_, h.pending, h.place, h.position⟩
    rw [List.filterMap_cons_some hRegion, ← h.unclosed]
    rfl

theorem pop (h : s.Sound text) (step : Output → Frame → Output)
    (hStep : ∀ out frame, ∃ n, step out frame = (out.closeFrame frame).addRelevance n)
    {closed kept : List Frame} (hFrames : closed ++ kept = s.frames) :
    Sound text { s with output := closed.foldl step s.output, frames := kept } := by
  obtain ⟨es, hRecords⟩ := h.records
  have hUnclosed := h.unclosed
  rw [← hFrames, List.filterMap_append] at hUnclosed
  obtain ⟨hClosed, hRest, hPosition⟩ := hRecords.closeEach hStep hUnclosed
  exact ⟨hClosed, hRest, h.pending, h.place, hPosition.trans h.position⟩

theorem openMode (h : s.Sound text) (m : Machine) (id : Nat) {found : Span}
    (hStart : s.place.Reaches found.start) (hStop : found.start.Reaches found.stop) :
    (s.openMode m id found).Sound text := by
  have hFound := h.place.trans hStart
  let stop := if (m.mode id).excludeOpening then found.stop else found.start
  let place :=
    if (m.mode id).returnOpening && !(m.mode id).excludeOpening then found.start else found.stop
  have hFlush : s.pending.Reaches stop := by
    dsimp only [stop]
    split
    · exact hFound.trans hStop
    · exact hFound
  -- An opening lexeme that is emitted is never read again.
  have hPlace : stop.Reaches place := by
    dsimp only [stop, place]
    cases (m.mode id).excludeOpening with
    | true => cases (m.mode id).returnOpening <;> exact .refl _
    | false =>
      cases (m.mode id).returnOpening with
      | true => exact .refl _
      | false => exact hStop
  have hEmitted := h.flush m s.top.mode hFlush
  have hPushed := hEmitted.push (m.mode id).category
    (m.frameOn s.top id
      (if (m.mode id).category.isSome then some (s.flush m s.top.mode stop).output.regions.size
        else none)) rfl
  exact hPushed.moveTo (pending_flush_reaches m s.top.mode hFlush hPlace)

theorem closeModes (h : s.Sound text) (m : Machine) {closed kept : List Frame} {found : Span}
    (hFrames : closed ++ kept = s.frames) (hStart : s.place.Reaches found.start)
    (hStop : found.start.Reaches found.stop) : (s.closeModes m closed kept found).Sound text := by
  have hFound := h.place.trans hStart
  let mode := m.mode s.top.mode
  let stop := if mode.returnClosing || mode.excludeClosing then found.start else found.stop
  let place := if mode.returnClosing then found.start else found.stop
  have hFlush : s.pending.Reaches stop := by
    dsimp only [stop]
    split
    · exact hFound
    · exact hFound.trans hStop
  -- A closing lexeme that is emitted is never read again.
  have hPlace : stop.Reaches place := by
    dsimp only [stop, place]
    cases mode.returnClosing with
    | true => cases mode.excludeClosing <;> exact .refl _
    | false =>
      cases mode.excludeClosing with
      | true => exact hStop
      | false => exact .refl _
  have hPopped := (h.flush m s.top.mode hFlush).pop
    (fun out frame => (out.closeFrame frame).addRelevance (m.mode frame.mode).relevance)
    (fun _ _ => ⟨_, rfl⟩) (hFrames.trans (frames_flush m s.top.mode stop s).symm)
  exact hPopped.moveTo (pending_flush_reaches m s.top.mode hFlush hPlace)

theorem pass (h : s.Sound text) {found : Span} (hStart : s.place.Reaches found.start)
    (hStop : found.start.Reaches found.stop) : (s.pass found).Leads (Sound text) := by
  have hFound := h.place.trans hStart
  unfold Scan.pass
  split
  · exact h.moveTo (hFound.trans hStop)
  · split
    · exact h
    · exact h.moveTo (hFound.trans (Cursor.reaches_advance found.start))

theorem close (h : s.Sound text) (m : Machine) (lastOpening : Option Nat) {found : Span}
    (hStart : s.place.Reaches found.start) (hStop : found.start.Reaches found.stop) :
    (s.close m found lastOpening).Leads (Sound text) := by
  unfold Scan.close
  split
  · exact h.pass hStart hStop
  · split
    · next closed kept hParts =>
        exact h.closeModes m (Machine.append_of_partAt? hParts) hStart hStop
    · exact h.pass hStart hStop

theorem take (h : s.Sound text) (m : Machine) (count : Nat) {found : Match}
    (hStart : s.place.Reaches found.span.start) (hStop : found.span.start.Reaches found.span.stop) :
    (s.take m count found).Leads (Sound text) := by
  have hForgot : Sound text { s with lastOpening := none } :=
    ⟨h.records, h.unclosed, h.pending, h.place, h.position⟩
  simp only [Scan.take]
  split
  · trivial
  · split
    · next id _ =>
      have hOpened := hForgot.openMode m id hStart hStop
      exact ⟨hOpened.records, hOpened.unclosed, hOpened.pending, hOpened.place,
        hOpened.position⟩
    · trivial
    · exact hForgot.close m s.lastOpening hStart hStop

theorem step (h : s.Sound text) (m : Machine) (count : Nat) :
    (s.step m count).Leads (Sound text) := by
  unfold Scan.step
  split
  · trivial
  · split
    · exact h
    · next set _ found hFound =>
      obtain ⟨hStart, hStop⟩ := TerminatorSet.reaches_find? hFound
      exact h.take m count hStart hStop

theorem describes {text : String} (h : s.Sound text.toList) (m : Machine) :
    (s.finish m).Describes text := by
  have hFlush := h.flush m s.top.mode (Cursor.reaches_toEnd s.pending)
  have hPending := pending_flush m s.top.mode (Cursor.reaches_toEnd s.pending)
  have hFrames := (List.append_nil s.frames).trans
    (frames_flush m s.top.mode s.pending.toEnd s).symm
  have hPopped := hFlush.pop Output.closeFrame
    (fun out frame => ⟨0, by simp [Output.addRelevance]⟩) hFrames
  obtain ⟨es, hRecords⟩ := hPopped.records
  have hEnd : (s.flush m s.top.mode s.pending.toEnd).pending.offset = text.utf8ByteSize := by
    rw [hPending, Cursor.offset_toEnd h.pending, byteLength_toList]
  have hFound := hRecords.describes hPopped.unclosed (hPopped.position.trans hEnd)
  simp only [Scan.finish, frames_flush]
  exact hFound

end Sound

theorem Reachable.sound {m : Machine} {text : List Char} {count : Nat} {s : Scan}
    (h : Reachable m text count s) : s.Sound text :=
  h.induct (.start text) fun count _ hSound => hSound.step m count

end Scan

theorem Tokenizer.describes_tokenize {m : Machine} {t : Tokenizer m} {text : String}
    {found : Tokens} (h : (t.tokenize text).1 = .ok found) : found.Describes text := by
  obtain ⟨n, last, final, hReach, hEnds, rfl⟩ := exists_reachable_of_tokenize_eq_ok h
  have hFinal := hReach.sound.step m n
  rw [hEnds] at hFinal
  exact Scan.Sound.describes hFinal m

end Highlighter
