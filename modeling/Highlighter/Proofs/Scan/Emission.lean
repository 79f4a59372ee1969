import Highlighter.Proofs.Scan.Sound
import Mathlib.Data.List.Nodup

/-! What emitting text does to an output. The open regions stay open, and whatever is emitted
carries their categories; regions and tokens that are there are kept, except that the last
token may be continued. Closing frames afterwards stops their regions where the emitted text
ends, and touches nothing else. -/

namespace Highlighter

open Text

theorem Text.Cursor.Reaches.ite {p : Prop} [Decidable p] {c d e : Cursor} (hd : c.Reaches d)
    (he : c.Reaches e) : c.Reaches (if p then d else e) := by
  split
  · exact hd
  · exact he

/-- The region of a word in a text that starts at `offset`, with so many regions around it. -/
def Hit.regionIn (offset depth : Nat) (hit : Hit) : Region :=
  ⟨hit.data.category, offset + hit.start, offset + hit.stop, depth⟩

namespace Output

/-- The open regions are among those that there are, and no token ends before it starts. -/
structure Proper (out : Output) : Prop where
  opened : ∀ place ∈ out.unclosed, place < out.regions.size
  spans : ∀ t ∈ out.tokens, t.start ≤ t.stop

theorem Records.proper {text : List Char} {es : List Entry} {out : Output}
    (h : Records text es out) : out.Proper := by
  refine ⟨fun place hPlace => ?_, fun t ht => (h.cover.bounds t ht).1.le⟩
  rw [h.unclosed, List.mem_reverse] at hPlace
  obtain ⟨⟨e, _⟩, hEntry, rfl⟩ := List.mem_map.1 hPlace
  have hLt := (List.mem_zipIdx' (List.mem_of_mem_filter hEntry)).1
  rwa [← Array.length_toList, h.regions, List.length_map]

theorem Records.nodup_unclosed {text : List Char} {es : List Entry} {out : Output}
    (h : Records text es out) : out.unclosed.Nodup := by
  rw [h.unclosed, List.nodup_reverse]
  have hPlaces : (openPlaces es).Sublist (es.zipIdx.map (·.2)) := List.filter_sublist.map _
  refine hPlaces.nodup ?_
  rw [List.zipIdx_map_snd]
  exact List.nodup_range'

/-- What a token covers is covered when it has been added, also where it continues the last one. -/
theorem exists_covers_addToken {t : Token} {tokens : List Token}
    (hSpans : ∀ u ∈ tokens, u.start ≤ u.stop) {p : Nat} (hp : t.covers p = true) :
    ∃ u ∈ Output.addToken t tokens, u.covers p = true ∧ u.categories = t.categories := by
  cases tokens with
  | nil => exact ⟨t, List.mem_cons_self, hp, rfl⟩
  | cons last earlier =>
    rw [addToken_cons]
    split
    · next hSame =>
      obtain ⟨hMeets, hEqual⟩ := hSame
      have hLast := hSpans last List.mem_cons_self
      rw [Token.covers_iff] at hp
      exact ⟨_, List.mem_cons_self, Token.covers_iff.2 ⟨by dsimp only; omega, hp.2⟩, hEqual⟩
    · exact ⟨t, List.mem_cons_self, hp, rfl⟩

/-- An output has emitted text after another one, within the regions that are open. -/
structure Emits (out out' : Output) : Prop where
  proper : out'.Proper
  unclosed : out'.unclosed = out.unclosed
  regions : ∀ place < out.regions.size, out'.regions[place]? = out.regions[place]?
  position : out.position ≤ out'.position
  tokens : ∀ t ∈ out.tokens, ∃ t' ∈ out'.tokens,
    t'.start = t.start ∧ t.stop ≤ t'.stop ∧ t'.categories = t.categories
  within : ∀ p, out.position ≤ p → p < out'.position →
    ∃ t ∈ out'.tokens, t.covers p = true ∧ out.categories <+: t.categories

namespace Emits

variable {out out' out'' : Output}

/-- Nothing is emitted where regions are added that are not open, or other things change. -/
theorem of_eq (hProper : out.Proper) (hUnclosed : out'.unclosed = out.unclosed)
    (hRegions : ∀ place < out.regions.size, out'.regions[place]? = out.regions[place]?)
    (hSize : out.regions.size ≤ out'.regions.size) (hPosition : out'.position = out.position)
    (hTokens : out'.tokens = out.tokens) : Emits out out' where
  proper := ⟨fun place hPlace => (hProper.opened place (hUnclosed ▸ hPlace)).trans_le hSize,
    fun t ht => hProper.spans t (hTokens ▸ ht)⟩
  unclosed := hUnclosed
  regions := hRegions
  position := hPosition.ge
  tokens := fun t ht => ⟨t, hTokens ▸ ht, rfl, Nat.le_refl _, rfl⟩
  within := fun p hp hpStop => by omega

theorem refl (hProper : out.Proper) : Emits out out :=
  of_eq hProper rfl (fun _ _ => rfl) (Nat.le_refl _) rfl rfl

theorem size_le (h : Emits out out') : out.regions.size ≤ out'.regions.size := by
  refine Nat.le_of_not_lt fun hLt => ?_
  have hLast := h.regions out'.regions.size hLt
  rw [Array.getElem?_eq_none (Nat.le_refl _), Array.getElem?_eq_getElem hLt] at hLast
  cases hLast

theorem categories (h : Emits out out') (hProper : out.Proper) :
    out'.categories = out.categories := by
  unfold Output.categories
  rw [h.unclosed]
  refine List.filterMap_congr fun place hPlace => ?_
  rw [h.regions place (hProper.opened place (List.mem_reverse.1 hPlace))]

theorem depth_eq (h : Emits out out') (hProper : out.Proper) : out'.depth = out.depth := by
  unfold depth
  rw [h.unclosed]
  split
  · rfl
  · next place rest hUnclosed =>
    have hPlace := hProper.opened place (by simp [hUnclosed])
    rw [Array.getD_eq_getD_getElem?, Array.getD_eq_getD_getElem?, h.regions place hPlace]

theorem trans (h : Emits out out') (hProper : out.Proper) (h' : Emits out' out'') :
    Emits out out'' := by
  refine ⟨h'.proper, h'.unclosed.trans h.unclosed, fun place hPlace => ?_,
    h.position.trans h'.position, fun t ht => ?_, fun p hp hpStop => ?_⟩
  · rw [h'.regions place (hPlace.trans_le h.size_le), h.regions place hPlace]
  · obtain ⟨t1, ht1, hStart1, hStop1, hCategories1⟩ := h.tokens t ht
    obtain ⟨t2, ht2, hStart2, hStop2, hCategories2⟩ := h'.tokens t1 ht1
    exact ⟨t2, ht2, hStart2.trans hStart1, hStop1.trans hStop2, hCategories2.trans hCategories1⟩
  · by_cases hFirst : p < out'.position
    · obtain ⟨t1, ht1, hCovers, hPrefix⟩ := h.within p hp hFirst
      obtain ⟨t2, ht2, hStart, hStop, hCategories⟩ := h'.tokens t1 ht1
      rw [Token.covers_iff] at hCovers
      refine ⟨t2, ht2, Token.covers_iff.2 ⟨by omega, by omega⟩, ?_⟩
      rwa [hCategories]
    · obtain ⟨t, ht, hCovers, hPrefix⟩ := h'.within p (Nat.le_of_not_lt hFirst) hpStop
      rw [h.categories hProper] at hPrefix
      exact ⟨t, ht, hCovers, hPrefix⟩

theorem addToken (hProper : out.Proper) {stop : Nat} (hStop : out.position < stop)
    (innermost : List Category) :
    Emits out { out with
      tokens := Output.addToken ⟨out.position, stop, out.categories ++ innermost⟩ out.tokens
      position := stop } := by
  have hWithin : ∀ p, out.position ≤ p → p < stop → ∃ t ∈ Output.addToken
      ⟨out.position, stop, out.categories ++ innermost⟩ out.tokens,
        t.covers p = true ∧ out.categories <+: t.categories := by
    intro p hp hpStop
    obtain ⟨t, ht, hCovers, hCategories⟩ :=
      exists_covers_addToken (t := ⟨out.position, stop, out.categories ++ innermost⟩)
        hProper.spans (Token.covers_iff.2 ⟨hp, hpStop⟩)
    exact ⟨t, ht, hCovers, hCategories ▸ List.prefix_append _ _⟩
  -- The last token is continued if it meets the text and has its categories.
  cases hTokens : out.tokens with
  | nil =>
    rw [hTokens] at hWithin
    refine ⟨⟨hProper.opened, ?_⟩, rfl, fun _ _ => rfl, hStop.le, ?_, hWithin⟩
    · simpa [Output.addToken] using hStop.le
    · simp [hTokens]
  | cons last earlier =>
    have hSpans := hProper.spans
    rw [hTokens] at hSpans hWithin
    obtain ⟨hLast, hEarlier⟩ := List.forall_mem_cons.1 hSpans
    rw [addToken_cons] at hWithin ⊢
    split
    · next hSame =>
      obtain ⟨hMeets, hEqual⟩ := hSame
      dsimp only at hMeets hEqual
      rw [if_pos ⟨hMeets, hEqual⟩] at hWithin
      refine ⟨⟨hProper.opened, ?_⟩, rfl, fun _ _ => rfl, hStop.le, ?_, hWithin⟩
      · refine List.forall_mem_cons.2 ⟨?_, hEarlier⟩
        dsimp only
        omega
      · rw [hTokens]
        refine List.forall_mem_cons.2
          ⟨⟨_, List.mem_cons_self, rfl, ?_, rfl⟩, fun t ht => ?_⟩
        · dsimp only
          omega
        · exact ⟨t, List.mem_cons_of_mem _ ht, rfl, Nat.le_refl _, rfl⟩
    · next hOther =>
      rw [if_neg hOther] at hWithin
      refine ⟨⟨hProper.opened, ?_⟩, rfl, fun _ _ => rfl, hStop.le, ?_, hWithin⟩
      · exact List.forall_mem_cons.2 ⟨hStop.le, hSpans⟩
      · rw [hTokens]
        exact fun t ht => ⟨t, List.mem_cons_of_mem _ ht, rfl, Nat.le_refl _, rfl⟩

theorem emit (hProper : out.Proper) (stop : Nat) (innermost : Option Category) :
    Emits out (out.emit stop innermost) := by
  unfold Output.emit
  split
  · exact refl hProper
  · next hStop => exact addToken hProper (Nat.lt_of_not_le hStop) innermost.toList

theorem countHit (hProper : out.Proper) (word : String) (n : UInt32) :
    Emits out (out.countHit word n) := by
  simp only [Output.countHit]
  split <;> exact of_eq hProper rfl (fun _ _ => rfl) (Nat.le_refl _) rfl rfl

theorem pushRegion (hProper : out.Proper) (region : Region) :
    Emits out { out with regions := out.regions.push region } := by
  refine of_eq hProper rfl (fun place hPlace => ?_) ?_ rfl rfl
  · rw [Array.getElem?_push_lt hPlace, Array.getElem?_eq_getElem hPlace]
  · exact (Array.size_push region).ge.trans' (Nat.le_succ _)

theorem emitKeyword (hProper : out.Proper) (start stop : Nat) (category : Category) :
    Emits out (out.emitKeyword start stop category) := by
  have hGap := emit hProper start none
  have hPushed := pushRegion hGap.proper ⟨category, start, stop, (out.emit start none).depth⟩
  exact (hGap.trans hProper hPushed).trans hProper (emit hPushed.proper stop (some category))

theorem emitHits (hProper : out.Proper) (offset : Nat) (hits : List Hit) :
    Emits out (out.emitHits offset hits) := by
  induction hits generalizing out with
  | nil => exact refl hProper
  | cons hit hits ih =>
    have hWord := emitKeyword hProper (offset + hit.start) (offset + hit.stop) hit.data.category
    have hCounted := hWord.trans hProper (countHit hWord.proper hit.key hit.data.relevance)
    exact hCounted.trans hProper (ih hCounted.proper)

end Emits

theorem regions_emitHits {out : Output} (hProper : out.Proper) (offset : Nat) (hits : List Hit) :
    (out.emitHits offset hits).regions.toList =
      out.regions.toList ++ hits.map (·.regionIn offset out.depth) := by
  induction hits generalizing out with
  | nil => simp [emitHits]
  | cons hit hits ih =>
    have hGap := Emits.emit hProper (offset + hit.start) none
    have hWord :=
      Emits.emitKeyword hProper (offset + hit.start) (offset + hit.stop) hit.data.category
    have hCounted := hWord.trans hProper (.countHit hWord.proper hit.key hit.data.relevance)
    have hRegions :
        (out.emitKeyword (offset + hit.start) (offset + hit.stop)
          hit.data.category).regions.toList =
        out.regions.toList ++ [hit.regionIn offset out.depth] := by
      rw [emitKeyword, regions_emit, Array.toList_push, hGap.depth_eq hProper, regions_emit]
      rfl
    rw [emitHits, List.foldl_cons]
    refine (ih hCounted.proper).trans ?_
    rw [hCounted.depth_eq hProper, regions_countHit, hRegions, List.map_cons, List.append_assoc,
      List.singleton_append]

/-! ### Closing frames -/

variable (m : Machine)

theorem closeFrames_cons (frame : Frame) (closed : List Frame) (out : Output) :
    closeFrames m (frame :: closed) out =
      closeFrames m closed ((out.closeFrame frame).addRelevance (m.mode frame.mode).relevance) :=
  rfl

@[simp] theorem tokens_closeFrame (out : Output) (frame : Frame) :
    (out.closeFrame frame).tokens = out.tokens := by
  unfold closeFrame
  split <;> rfl

@[simp] theorem position_closeFrame (out : Output) (frame : Frame) :
    (out.closeFrame frame).position = out.position := by
  unfold closeFrame
  split <;> rfl

@[simp] theorem tokens_closeFrames (closed : List Frame) (out : Output) :
    (closeFrames m closed out).tokens = out.tokens := by
  induction closed generalizing out with
  | nil => rfl
  | cons frame closed ih =>
    rw [closeFrames_cons, ih]
    exact tokens_closeFrame out frame

theorem regions_closeFrame (out : Output) (frame : Frame) (place : Nat) :
    (out.closeFrame frame).regions[place]? =
      if frame.region = some place then
        (out.regions[place]?).map fun r => { r with stop := out.position }
      else out.regions[place]? := by
  unfold closeFrame
  cases frame.region with
  | none => rfl
  | some region =>
    dsimp only [closeRegion]
    rw [Array.getElem?_modify]
    simp only [Option.some.injEq]

/-- The regions of frames that are closed stop where the emitted text ends; all
others are as they were. -/
theorem regions_closeFrames (closed : List Frame) (out : Output) (place : Nat) :
    (closeFrames m closed out).regions[place]? =
      if ∃ frame ∈ closed, frame.region = some place then
        (out.regions[place]?).map fun r => { r with stop := out.position }
      else out.regions[place]? := by
  induction closed generalizing out with
  | nil => simp [closeFrames]
  | cons frame closed ih =>
    have hRegions :
        ((out.closeFrame frame).addRelevance (m.mode frame.mode).relevance).regions[place]? =
          if frame.region = some place then
            (out.regions[place]?).map fun r => { r with stop := out.position }
          else out.regions[place]? :=
      regions_closeFrame out frame place
    have hPosition : ((out.closeFrame frame).addRelevance (m.mode frame.mode).relevance).position =
        out.position := position_closeFrame out frame
    rw [closeFrames_cons, ih, hRegions, hPosition]
    by_cases hFrame : frame.region = some place
    · by_cases hRest : ∃ frame ∈ closed, frame.region = some place
      · simp [hFrame, Function.comp_def]
      · simp [hFrame, hRest]
    · by_cases hRest : ∃ frame ∈ closed, frame.region = some place
      · simp [hFrame, hRest]
      · simp [hFrame, hRest]

end Output

namespace Scan

variable {s : Scan} {text : List Char} {found : Span}

theorem pending_openMode (m : Machine) (id : Nat) (hStart : s.pending.Reaches found.start)
    (hStop : found.start.Reaches found.stop) :
    (s.openMode m id found).pending = if (m.mode id).excludeOpening then found.stop
      else found.start :=
  pending_flush m s.top.mode (.ite (hStart.trans hStop) hStart)

theorem pending_closeModes (m : Machine) (closed kept : List Frame)
    (hStart : s.pending.Reaches found.start) (hStop : found.start.Reaches found.stop) :
    (s.closeModes m closed kept found).pending =
      if (m.mode s.top.mode).returnClosing || (m.mode s.top.mode).excludeClosing then found.start
      else found.stop :=
  pending_flush m s.top.mode (.ite hStart (hStart.trans hStop))

theorem emits_flush (hSound : s.Sound text) (m : Machine) (id : Nat) {stop : Cursor}
    (hStop : s.pending.Reaches stop) :
    s.output.Emits (s.flush m id stop).output ∧
      (s.flush m id stop).output.position = stop.offset := by
  obtain ⟨es, hRecords⟩ := hSound.records
  refine ⟨?_, ?_⟩
  · unfold flush
    split
    · exact .refl hRecords.proper
    · have hWords := Output.Emits.emitHits hRecords.proper s.pending.offset
        (m.hits id (Span.mk s.pending stop).chars)
      exact hWords.trans hRecords.proper (.emit hWords.proper stop.offset none)
  · have hPosition := (hSound.flush m id hStop).position
    rw [pending_flush m id hStop] at hPosition
    exact hPosition

end Scan

end Highlighter
