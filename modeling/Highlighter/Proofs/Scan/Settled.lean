import Highlighter.Proofs.Scan.Closing

/-! Regions that are closed are settled. A text leads to one scan at a time, and from a scan on, no
step touches a region that is not open; so it is among what is found in the text, if anything is. -/

namespace Highlighter

open Text

namespace Scan

variable {m : Machine} {text : List Char} {n k : Nat} {s s' : Scan}

theorem Reachable.pos (h : Reachable m text n s) : 0 < n := by
  cases h with
  | start => exact Nat.one_pos
  | next _ _ => exact Nat.succ_pos _

/-- For each number of searches there is one scan. -/
theorem Reachable.eq (h : Reachable m text n s) (h' : Reachable m text n s') : s = s' := by
  induction h generalizing s' with
  | start =>
    cases h' with
    | start => rfl
    | next hBefore _ => exact absurd hBefore.pos (Nat.lt_irrefl 0)
  | next hBefore hStep ih =>
    cases h' with
    | start => exact absurd hBefore.pos (Nat.lt_irrefl 0)
    | next hBefore' hStep' =>
      rw [ih hBefore', hStep'] at hStep
      cases hStep
      rfl

/-- Before a scan is reached, each earlier one goes on. -/
theorem Reachable.exists_step_eq_goesOn (h : Reachable m text n s) (h' : Reachable m text k s')
    (hLt : k < n) : ∃ next, s'.step m k = .goesOn next := by
  induction h with
  | start => exact absurd h'.pos (by omega)
  | @next count last reached hBefore hStep ih =>
    rcases Nat.lt_succ_iff_lt_or_eq.1 hLt with hLt | rfl
    · exact ih hLt
    · rw [← hBefore.eq h']
      exact ⟨_, hStep⟩

/-- What holds of a scan and is kept by each step holds of all later scans. -/
theorem Reachable.later {p : Scan → Prop} (h : Reachable m text n s) (hp : p s)
    (hStep : ∀ count s, p s → (s.step m count).Leads p) (h' : Reachable m text k s')
    (hLe : n ≤ k) : p s' := by
  induction h' with
  | start =>
    obtain rfl : n = 1 := Nat.le_antisymm hLe h.pos
    rwa [← h.eq .start]
  | @next count last reached hBefore hNext ih =>
    rcases Nat.le_succ_iff.1 hLe with hLe | rfl
    · have hLeads := hStep count last (ih hLe)
      rw [hNext] at hLeads
      exact hLeads
    · rwa [← h.eq (hBefore.next hNext)]

/-- A region at a place of the output is closed. -/
structure Settled (text : List Char) (place : Nat) (region : Region) (s : Scan) : Prop where
  sound : s.Sound text
  region : s.output.regions[place]? = some region
  closed : place ∉ s.output.unclosed

namespace Settled

variable {place : Nat} {region : Region}

theorem lt_size (h : s.Settled text place region) : place < s.output.regions.size :=
  (Array.getElem?_eq_some_iff.1 h.region).1

theorem ne_region (h : s.Settled text place region) {frame : Frame} (hFrame : frame ∈ s.frames) :
    frame.region ≠ some place := by
  intro hRegion
  refine h.closed ?_
  rw [h.sound.unclosed]
  exact List.mem_filterMap.2 ⟨frame, hFrame, hRegion⟩

theorem flush (h : s.Settled text place region) (id : Nat) {stop : Cursor}
    (hStop : s.pending.Reaches stop) :
    (s.flush m id stop).output.regions[place]? = some region ∧
      place ∉ (s.flush m id stop).output.unclosed := by
  obtain ⟨hEmits, -⟩ := emits_flush h.sound m id hStop
  rw [hEmits.regions place h.lt_size, hEmits.unclosed]
  exact ⟨h.region, h.closed⟩

theorem openMode (h : s.Settled text place region) (id : Nat) {found : Span}
    (hStart : s.place.Reaches found.start) (hStop : found.start.Reaches found.stop) :
    (s.openMode m id found).Settled text place region := by
  have hFound := h.sound.place.trans hStart
  let stop := if (m.mode id).excludeOpening then found.stop else found.start
  have hFlush : s.pending.Reaches stop := .ite (hFound.trans hStop) hFound
  obtain ⟨hRegion, hClosed⟩ := h.flush (m := m) s.top.mode hFlush
  have hLt := (Array.getElem?_eq_some_iff.1 hRegion).1
  refine ⟨h.sound.openMode m id hStart hStop, ?_, ?_⟩
  · simp only [Scan.openMode, Scan.enter, Output.openFor]
    split
    · simp only [Output.openRegion]
      rw [Array.getElem?_push_lt hLt, ← Array.getElem?_eq_getElem hLt]
      exact hRegion
    · exact hRegion
  · simp only [Scan.openMode, Scan.enter, Output.openFor]
    split
    · simp only [Output.openRegion, List.mem_cons, not_or]
      exact ⟨Nat.ne_of_lt hLt, hClosed⟩
    · exact hClosed

theorem closeModes (h : s.Settled text place region) {closed kept : List Frame} {found : Span}
    (hFrames : closed ++ kept = s.frames) (hStart : s.place.Reaches found.start)
    (hStop : found.start.Reaches found.stop) :
    (s.closeModes m closed kept found).Settled text place region := by
  have hEnds := endsModes_closeModes (m := m) h.sound hFrames hStart hStop
  refine ⟨h.sound.closeModes m hFrames hStart hStop, ?_, fun hMem => ?_⟩
  · rw [hEnds.otherRegions place h.lt_size fun frame hFrame =>
      h.ne_region (hFrames ▸ List.mem_append_left kept hFrame)]
    exact h.region
  · rw [hEnds.openAfter] at hMem
    obtain ⟨frame, hFrame, hRegion⟩ := List.mem_filterMap.1 hMem
    exact h.ne_region (hFrames ▸ List.mem_append_right closed hFrame) hRegion

theorem step (h : s.Settled text place region) (count : Nat) :
    (s.step m count).Leads (Settled text place region) := by
  have hSteps := steps_step m count s
  have hSound := h.sound.step m count
  generalize s.step m count = o at hSteps hSound ⊢
  cases hSteps with
  | broken _ | runaway _ _ _ _ => trivial
  | none _ _ => exact h
  | found _ hFound _ hTakes =>
    obtain ⟨hStart, hStop⟩ := TerminatorSet.reaches_find? hFound
    have hForgot : Settled text place region { s with lastOpening := none } :=
      ⟨⟨h.sound.records, h.sound.unclosed, h.sound.pending, h.sound.place, h.sound.position⟩,
        h.region, h.closed⟩
    cases hTakes with
    | @opens id _ =>
      have hOpened := hForgot.openMode (m := m) id hStart hStop
      exact ⟨hSound, hOpened.region, hOpened.closed⟩
    | illegal _ => trivial
    | closes _ _ hParts => exact hForgot.closeModes (Machine.append_of_partAt? hParts) hStart hStop
    | passes _ _ | passesNext _ _ _ | passesEnd _ _ _ => exact ⟨hSound, h.region, h.closed⟩

theorem regions_closeEach {frames : List Frame} {out : Output}
    (hFrames : ∀ frame ∈ frames, frame.region ≠ some place)
    (hOut : out.regions[place]? = some region) :
    (frames.foldl Output.closeFrame out).regions[place]? = some region := by
  induction frames generalizing out with
  | nil => exact hOut
  | cons frame frames ih =>
    obtain ⟨hFrame, hFrames⟩ := List.forall_mem_cons.1 hFrames
    refine ih hFrames ?_
    rw [Output.regions_closeFrame, if_neg hFrame]
    exact hOut

theorem exists_finish (h : s.Settled text place region) : ∃ regions : Array Region,
    regions[place]? = some region ∧
      (s.finish m).regions = regions.toList.filter fun r => decide (r.start < r.stop) := by
  obtain ⟨hRegion, -⟩ := h.flush (m := m) s.top.mode (Cursor.reaches_toEnd s.pending)
  refine ⟨_, regions_closeEach (fun frame hFrame => h.ne_region hFrame) hRegion, ?_⟩
  unfold Scan.finish Output.finish
  dsimp only
  rw [frames_flush]

theorem mem_finish (h : s.Settled text place region) (hNonempty : region.start < region.stop) :
    region ∈ (s.finish m).regions := by
  obtain ⟨regions, hRegion, hFinish⟩ := h.exists_finish (m := m)
  rw [hFinish, List.mem_filter, decide_eq_true_eq]
  exact ⟨Array.mem_toList_iff.2 (Array.mem_of_getElem? hRegion), hNonempty⟩

/-- The first region stays the first one. -/
theorem head?_finish (h : s.Settled text 0 region) (hNonempty : region.start < region.stop) :
    (s.finish m).regions.head? = some region := by
  obtain ⟨regions, hRegion, hFinish⟩ := h.exists_finish (m := m)
  rw [hFinish]
  rw [← Array.getElem?_toList] at hRegion
  cases hRegions : regions.toList with
  | nil =>
    rw [hRegions] at hRegion
    cases hRegion
  | cons first later =>
    rw [hRegions] at hRegion
    cases hRegion
    simp [hNonempty]

end Settled

/-- A text in which something is found leads from each of its scans to the end. -/
theorem Reachable.exists_last {text : String} (h : Reachable m text.toList n s) {t : Tokenizer m}
    {found : Tokens} (hFound : (t.tokenize text).1 = .ok found) : ∃ k last final, n ≤ k ∧
      Reachable m text.toList k last ∧ last.step m k = .ends final ∧
        found = final.finish m := by
  obtain ⟨k, last, final, hLast, hEnds, rfl⟩ :=
    Tokenizer.exists_reachable_of_tokenize_eq_ok hFound
  refine ⟨k, last, final, Nat.le_of_not_lt fun hLt => ?_, hLast, hEnds, rfl⟩
  obtain ⟨next, hNext⟩ := h.exists_step_eq_goesOn hLast hLt
  rw [hEnds] at hNext
  cases hNext

theorem Reachable.step_ne_fails {text : String} (h : Reachable m text.toList n s) {t : Tokenizer m}
    {found : Tokens} (hFound : (t.tokenize text).1 = .ok found) (e : TokenizeError) :
    s.step m n ≠ .fails e := by
  intro hFails
  obtain ⟨k, last, final, hLe, hLast, hEnds, -⟩ := h.exists_last hFound
  rcases Nat.lt_or_eq_of_le hLe with hLt | rfl
  · obtain ⟨next, hNext⟩ := hLast.exists_step_eq_goesOn h hLt
    rw [hFails] at hNext
    cases hNext
  · rw [h.eq hLast, hEnds] at hFails
    cases hFails

/-- A closed region that is not empty is found in the text, if the text is in the language. -/
theorem Reachable.mem_regions {text : String} {place : Nat} {region : Region}
    (h : Reachable m text.toList n s) (hRegion : s.output.regions[place]? = some region)
    (hClosed : place ∉ s.output.unclosed) (hNonempty : region.start < region.stop)
    {t : Tokenizer m} {found : Tokens} (hFound : (t.tokenize text).1 = .ok found) :
    region ∈ found.regions := by
  obtain ⟨k, last, final, hLe, hLast, hEnds, rfl⟩ := h.exists_last hFound
  have hSettled : last.Settled text.toList place region :=
    h.later ⟨h.sound, hRegion, hClosed⟩ (fun count _ hSettled => hSettled.step count) hLast hLe
  have hFinal := hSettled.step (m := m) k
  rw [hEnds] at hFinal
  exact Settled.mem_finish hFinal hNonempty

end Scan

end Highlighter
