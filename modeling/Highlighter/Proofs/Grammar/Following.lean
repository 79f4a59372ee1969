import Highlighter.Proofs.Grammar.Standing
import Highlighter.Proofs.Scan.Course
import Highlighter.Proofs.Scan.Credit

/-! Scans follow the moves of their grammar. `Standing.Describes` ties a scan to how it stands, and
each move is one that the machine of the grammar makes. So what is found in a text can be told by
following its moves to its end. -/

namespace Highlighter

open Text Pattern

theorem Output.regions_openFor (out : Output) (category : Option Category) :
    (out.openFor category).regions.toList =
      out.regions.toList ++
        (category.map (⟨·, out.position, out.position, out.depth⟩)).toList := by
  cases category with
  | none => simp [openFor]
  | some category => simp [openFor, openRegion]

def Machine.frameOf (m : Machine) (place : Address → Nat)
    (mode : Address × Option Nat) : Frame :=
  ⟨place mode.1, m.ownEnd (place mode.1), mode.2⟩

theorem Output.addRelevance_zero (out : Output) : out.addRelevance 0 = out := by
  simp [addRelevance]

theorem Output.regions_closeFrame_frameOf (m : Machine) (place : Address → Nat)
    (mode : Address × Option Nat) (out : Output) :
    (out.closeFrame (m.frameOf place mode)).regions.toList =
      stopRegion out.position out.regions.toList mode := by
  obtain ⟨a, region⟩ := mode
  cases region with
  | none => rfl
  | some region => exact Array.toList_modify

theorem Output.regions_closeEach (m : Machine) (place : Address → Nat)
    {step : Output → Frame → Output}
    (hStep : ∀ out frame, ∃ n, step out frame = (out.closeFrame frame).addRelevance n)
    (modes : List (Address × Option Nat)) (out : Output) :
    ((modes.map (m.frameOf place)).foldl step out).regions.toList =
      modes.foldl (stopRegion out.position) out.regions.toList := by
  induction modes generalizing out with
  | nil => rfl
  | cons mode modes ih =>
    obtain ⟨n, hn⟩ := hStep out (m.frameOf place mode)
    rw [List.map_cons, List.foldl_cons, List.foldl_cons, ih, hn,
      ← regions_closeFrame_frameOf m place mode out,
      ← position_closeFrame out (m.frameOf place mode)]
    rfl

theorem Machine.Realizes.partClosing_eq {m : Machine} {g : Grammar} {place : Address → Nat}
    (h : m.Realizes g place) {modes : List (Address × Option Nat)}
    (hKnown : ∀ mode ∈ modes, (g.modeAt? mode.1).isSome) :
    m.partClosing (modes.map (m.frameOf place)) =
      ((modes.take (g.closingCount modes)).map (m.frameOf place),
        (modes.drop (g.closingCount modes)).map (m.frameOf place)) := by
  fun_induction g.closingCount modes with
  | case1 => rfl
  | case2 mode => rfl
  | case3 mode parent rest hCloses ih =>
    have hFlag : (m.mode (m.frameOf place mode).mode).closesParent = true :=
      (h.depicts (hKnown mode List.mem_cons_self)).1.closesParent.trans hCloses
    have hRest := ih fun mode hMode => hKnown mode (List.mem_cons_of_mem _ hMode)
    rw [List.map_cons] at hRest
    rw [List.map_cons, List.map_cons, Machine.partClosing, if_pos hFlag, hRest]
    rfl
  | case4 mode parent rest hStays =>
    have hFlag : ¬ (m.mode (m.frameOf place mode).mode).closesParent = true := by
      rw [Machine.frameOf, (h.depicts (hKnown mode List.mem_cons_self)).1.closesParent]
      exact hStays
    rw [List.map_cons, List.map_cons, Machine.partClosing, if_neg hFlag]
    rfl

/-- A scan of a text stands so. -/
structure Standing.Describes (d : Standing) (m : Machine) (g : Grammar) (place : Address → Nat)
    (text : List Char) (s : Scan) : Prop where
  sound : s.Sound text
  known : ∀ mode ∈ d.modes, (g.modeAt? mode.1).isSome
  frames : s.frames = d.modes.map (m.frameOf place)
  regions : s.output.regions.toList = d.regions
  pending : s.pending = d.pending
  place : s.place = d.place
  lastOpening : s.lastOpening = d.lastOpening

namespace Standing.Describes

variable {m : Machine} {g : Grammar} {place : Address → Nat} {text : List Char}
  {d : Standing} {s : Scan}

theorem isSome_top (h : d.Describes m g place text s) : (g.modeAt? d.top).isSome := by
  obtain ⟨modes, regions, pending, p, lastOpening⟩ := d
  cases modes with
  | nil => rfl
  | cons mode modes => exact h.known mode List.mem_cons_self

theorem top_eq (h : d.Describes m g place text s) (hRealizes : m.Realizes g place) :
    s.top.mode = place d.top ∧ s.top.closing = m.ownEnd (place d.top) := by
  have hFrames := h.frames
  obtain ⟨modes, regions, pending, p, lastOpening⟩ := d
  rw [Scan.top, hFrames]
  cases modes with
  | nil =>
    have hEnd : m.ownEnd Machine.root = none := by rw [Machine.ownEnd, hRealizes.alone.root]; rfl
    rw [show Standing.top ⟨[], regions, pending, p, lastOpening⟩ = .root from rfl,
      hRealizes.image.root, hEnd]
    exact ⟨rfl, rfl⟩
  | cons mode modes => exact ⟨rfl, rfl⟩

theorem depth_eq (h : d.Describes m g place text s) : s.output.depth = d.depth := by
  obtain ⟨es, hRecords⟩ := h.sound.records
  rw [hRecords.depth_eq, ← hRecords.length_unclosed, h.sound.unclosed, h.frames,
    List.filterMap_map]
  rfl

variable (h : d.Describes m g place text s) (hRealizes : m.Realizes g place)
include h hRealizes

theorem exists_setOf_eq_ok : ∃ set, m.setOf (s.top.mode, s.top.closing) = .ok set ∧
    ∀ c, set.matchAt? c =
      (g.cueAt? d.top c).map fun (cue, stop) => ⟨cue.terminator place, ⟨c, stop⟩⟩ := by
  obtain ⟨hMode, hClosing⟩ := h.top_eq hRealizes
  obtain ⟨set, hSet⟩ := hRealizes.exists_setOf_eq_ok (place d.top)
  rw [hMode, hClosing]
  exact ⟨set, hSet, hRealizes.matchAt?_eq h.isSome_top hSet⟩

theorem regions_flush {stop : Cursor} : (s.flush m s.top.mode stop).output.regions.toList =
    (d.flush g stop).regions := by
  have hWords := hRealizes.hits_eq h.isSome_top (Span.mk s.pending stop).chars
  obtain ⟨es, hRecords⟩ := h.sound.records
  rw [(h.top_eq hRealizes).1, Scan.flush, hWords, Standing.flush, ← h.pending, ← h.depth_eq,
    ← h.regions]
  split
  · next hStop =>
    rw [← hWords, Span.chars_eq_nil hStop, m.hits_nil]
    simp
  · rw [Output.regions_emit, Output.regions_emitHits hRecords.proper]

omit hRealizes in
theorem forget :
    { d with lastOpening := none }.Describes m g place text { s with lastOpening := none } :=
  ⟨⟨h.sound.records, h.sound.unclosed, h.sound.pending, h.sound.place, h.sound.position⟩,
    h.known, h.frames, h.regions, h.pending, h.place, rfl⟩

theorem flush {stop : Cursor} (hStop : s.pending.Reaches stop) :
    (s.flush m s.top.mode stop).pending = stop ∧
      (s.flush m s.top.mode stop).output.regions.toList = (d.flush g stop).regions ∧
      (s.flush m s.top.mode stop).output.position = stop.offset ∧
      (s.flush m s.top.mode stop).output.depth = d.depth := by
  obtain ⟨es, hRecords⟩ := h.sound.records
  obtain ⟨hEmits, hPosition⟩ := Scan.emits_flush h.sound m s.top.mode hStop
  exact ⟨Scan.pending_flush m _ hStop, h.regions_flush hRealizes, hPosition,
    (hEmits.depth_eq hRecords.proper).trans h.depth_eq⟩

theorem enter {a : Address} {stop : Cursor}
    (hCue : g.cueAt? d.top d.place = some (.opens a, stop)) :
    ∃ s', Scan.LeadsTo m s s' ∧ (d.enter g a stop).Describes m g place text s' := by
  obtain ⟨set, hSet, hMatches⟩ := h.exists_setOf_eq_ok hRealizes
  have hFound : set.find? s.place = some ⟨.opening (place a), ⟨d.place, stop⟩⟩ := by
    rw [h.place]
    refine TerminatorSet.find?_of_matchAt? ?_
    rw [hMatches, hCue]
    rfl
  obtain ⟨hStart, hStop⟩ := TerminatorSet.reaches_find? hFound
  have hKnown := Grammar.isSome_child h.isSome_top (Grammar.mem_childrenAt_of_cueAt? hCue)
  have hDepicts := (hRealizes.depicts hKnown).1
  let forgotten : Scan := { s with lastOpening := none }
  have hForgot : { d with lastOpening := none }.Describes m g place text forgotten := h.forget
  have hPlace : forgotten.pending.Reaches d.place := hForgot.sound.place.trans hStart
  -- A lexeme that the mode excludes belongs to the text of the mode around it.
  let flushAt := if (g.settingsAt a).excludeOpening.getD false then stop else d.place
  have hFlushAt : forgotten.pending.Reaches flushAt := .ite (hPlace.trans hStop) hPlace
  let flushed := forgotten.flush m s.top.mode flushAt
  obtain ⟨hPending, hRegions, hPosition, hDepth⟩ : flushed.pending = flushAt ∧
      flushed.output.regions.toList = (d.flush g flushAt).regions ∧
      flushed.output.position = flushAt.offset ∧ flushed.output.depth = d.depth :=
    hForgot.flush hRealizes hFlushAt
  have hEnter : forgotten.openMode m (place a) ⟨d.place, stop⟩ =
      flushed.enter m (place a) s.top ⟨d.place, stop⟩ := by
    simp only [Scan.openMode, hDepicts.excludeOpening]
    rfl
  have hSize : flushed.output.regions.size = (d.flush g flushAt).regions.length := by
    rw [← hRegions, Array.length_toList]
  have hOpened : (forgotten.openMode m (place a) ⟨d.place, stop⟩).Sound text :=
    hForgot.sound.openMode m (place a) hStart hStop
  refine ⟨_, Scan.leadsTo_openMode hSet hFound,
    ⟨hOpened.records, hOpened.unclosed, hOpened.pending, hOpened.place, hOpened.position⟩,
    List.forall_mem_cons.2 ⟨hKnown, h.known⟩, ?_, ?_, ?_, ?_, rfl⟩
  · have hTop : m.frameOn s.top (place a)
        (if (m.mode (place a)).category.isSome then some flushed.output.regions.size else none) =
          m.frameOf place
            (a, (g.settingsAt a).category.map fun _ => (d.flush g flushAt).regions.length) := by
      rw [hDepicts.category, hSize, Machine.frameOf,
        ← hRealizes.alone.frameOn_closing s.top (place a) none]
      cases (g.settingsAt a).category <;> rfl
    show (forgotten.openMode m (place a) ⟨d.place, stop⟩).frames = _
    rw [hEnter, Scan.enter, hTop, Scan.frames_flush]
    exact congrArg (_ :: ·) h.frames
  · show (forgotten.openMode m (place a) ⟨d.place, stop⟩).output.regions.toList = _
    rw [hEnter]
    refine (Output.regions_openFor flushed.output (m.mode (place a)).category).trans ?_
    rw [hDepicts.category, hRegions, hPosition, hDepth]
    rfl
  · show (forgotten.openMode m (place a) ⟨d.place, stop⟩).pending = _
    rw [hEnter]
    exact hPending
  · show (forgotten.openMode m (place a) ⟨d.place, stop⟩).place = _
    rw [hEnter, Scan.enter, hDepicts.returnOpening, hDepicts.excludeOpening]
    rfl

/-- An end closes the innermost modes that it is the end of. -/
theorem partAt?_eq {stop : Cursor} (hCue : g.cueAt? d.top d.place = some (.closes, stop)) :
    m.partAt? d.place s.frames =
      some ((d.modes.take (g.closingCount d.modes)).map (m.frameOf place),
      (d.modes.drop (g.closingCount d.modes)).map (m.frameOf place)) := by
  have hCloses : m.closesAt (place d.top) d.place = true := by
    obtain ⟨pattern, hPattern, hStop⟩ := Grammar.closingAt_of_cueAt? hCue
    rw [hRealizes.closesAt_eq h.isSome_top, hPattern, Option.any_some, hStop]
    rfl
  have hParts := hRealizes.partClosing_eq h.known
  rw [h.frames]
  cases hModes : d.modes with
  | nil =>
    -- Nothing closes the root.
    obtain ⟨pattern, hPattern, -⟩ := Grammar.closingAt_of_cueAt? hCue
    rw [Standing.top, hModes] at hPattern
    cases hPattern
  | cons mode modes =>
    have hTop : m.closesAt (m.frameOf place mode).mode d.place = true := by
      rw [Standing.top, hModes] at hCloses
      exact hCloses
    rw [hModes] at hParts
    rw [List.map_cons, Machine.partAt?, if_pos hTop, ← List.map_cons, hParts]

theorem leave {stop : Cursor} (hCue : g.cueAt? d.top d.place = some (.closes, stop))
    (hMoved : d.lastOpening ≠ some d.place.offset ∨ d.place.offset < stop.offset) :
    ∃ s', Scan.LeadsTo m s s' ∧ (d.leave g stop).Describes m g place text s' := by
  obtain ⟨set, hSet, hMatches⟩ := h.exists_setOf_eq_ok hRealizes
  have hFound : set.find? s.place = some ⟨.closing, ⟨d.place, stop⟩⟩ := by
    rw [h.place]
    refine TerminatorSet.find?_of_matchAt? ?_
    rw [hMatches, hCue]
    rfl
  obtain ⟨hStart, hStop⟩ := TerminatorSet.reaches_find? hFound
  have hDepicts := (hRealizes.depicts h.isSome_top).1
  have hParts := h.partAt?_eq hRealizes hCue
  -- This end is not one that is passed over, as it has moved on since the last opening.
  have hStays : ¬ (s.lastOpening = some d.place.offset ∧
      (⟨d.place, stop⟩ : Span).isEmpty = true) := by
    rw [h.lastOpening]
    rintro ⟨hOpening, hEmpty⟩
    have hEq : d.place.offset = stop.offset := by simpa [Span.isEmpty] using hEmpty
    exact hMoved.elim (· hOpening) (Nat.ne_of_lt · hEq)
  let forgotten : Scan := { s with lastOpening := none }
  have hForgot : { d with lastOpening := none }.Describes m g place text forgotten := h.forget
  have hPlace : forgotten.pending.Reaches d.place := hForgot.sound.place.trans hStart
  -- What becomes of the closing lexeme is decided before any mode is closed.
  let flushAt :=
    if (g.settingsAt d.top).returnClosing.getD false ||
        (g.settingsAt d.top).excludeClosing.getD false then d.place
    else stop
  have hFlushAt : forgotten.pending.Reaches flushAt := .ite hPlace (hPlace.trans hStop)
  let flushed := forgotten.flush m s.top.mode flushAt
  obtain ⟨hPending, hRegions, hPosition, -⟩ : flushed.pending = flushAt ∧
      flushed.output.regions.toList = (d.flush g flushAt).regions ∧
      flushed.output.position = flushAt.offset ∧ flushed.output.depth = d.depth :=
    hForgot.flush hRealizes hFlushAt
  let closed := (d.modes.take (g.closingCount d.modes)).map (m.frameOf place)
  let kept := (d.modes.drop (g.closingCount d.modes)).map (m.frameOf place)
  have hLeave : forgotten.closeModes m closed kept ⟨d.place, stop⟩ =
      flushed.leave m closed kept (m.mode (place d.top)) ⟨d.place, stop⟩ := by
    have hTop : forgotten.top.mode = place d.top := (h.top_eq hRealizes).1
    simp only [Scan.closeModes, hTop, hDepicts.returnClosing, hDepicts.excludeClosing]
    rw [← hTop]
    rfl
  have hClosed : (forgotten.closeModes m closed kept ⟨d.place, stop⟩).Sound text :=
    hForgot.sound.closeModes m (Machine.append_of_partAt? hParts) hStart hStop
  refine ⟨_, Scan.leadsTo_closeModes hSet hFound hStays hParts, hClosed,
    fun mode hMode => h.known mode (List.mem_of_mem_drop hMode), rfl, ?_, ?_, ?_, ?_⟩
  · show (forgotten.closeModes m closed kept ⟨d.place, stop⟩).output.regions.toList = _
    rw [hLeave]
    refine (Output.regions_closeEach m place (fun _ _ => ⟨_, rfl⟩) _ flushed.output).trans ?_
    rw [hRegions, hPosition]
    rfl
  · show (forgotten.closeModes m closed kept ⟨d.place, stop⟩).pending = _
    rw [hLeave]
    exact hPending
  · show (forgotten.closeModes m closed kept ⟨d.place, stop⟩).place = _
    rw [hLeave, Scan.leave, hDepicts.returnClosing]
    rfl
  · show (forgotten.closeModes m closed kept ⟨d.place, stop⟩).lastOpening = _
    rw [hLeave]
    exact Scan.lastOpening_flush m _ _ _

theorem skip (hCue : g.cueAt? d.top d.place = none) (hEnd : d.place.atEnd = false) :
    ∃ s', Scan.LeadsTo m s s' ∧
      { d with place := d.place.advance }.Describes m g place text s' := by
  obtain ⟨set, hSet, hMatches⟩ := h.exists_setOf_eq_ok hRealizes
  have hNone : set.matchAt? s.place = none := by
    rw [hMatches, h.place, hCue]
    rfl
  have hFind := TerminatorSet.find?_advance hNone (h.place ▸ hEnd)
  have hReaches := h.sound.place.trans (Cursor.reaches_advance s.place)
  exact ⟨_, Scan.leadsTo_of_find?_eq hSet hFind, h.sound.moveTo hReaches, h.known, h.frames,
    h.regions, h.pending, congrArg Cursor.advance h.place, h.lastOpening⟩

theorem illegal {stop : Cursor} (hCue : g.cueAt? d.top d.place = some (.illegal, stop)) :
    Scan.Gives m s (.error (.illegal d.place.offset (Span.mk d.place stop).text)) := by
  obtain ⟨set, hSet, hMatches⟩ := h.exists_setOf_eq_ok hRealizes
  have hMatch : set.matchAt? s.place = some ⟨.illegal, ⟨d.place, stop⟩⟩ := by
    rw [hMatches, h.place, hCue]
    rfl
  exact Scan.gives_illegal hSet (TerminatorSet.find?_of_matchAt? hMatch)

theorem ends (hCue : g.cueAt? d.top d.place = none) (hEnd : d.place.atEnd = true) :
    ∃ tokens, Scan.Gives m s (.ok tokens) ∧ tokens.regions = d.found g := by
  obtain ⟨set, hSet, hMatches⟩ := h.exists_setOf_eq_ok hRealizes
  have hNone : set.matchAt? s.place = none := by
    rw [hMatches, h.place, hCue]
    rfl
  refine ⟨_, Scan.gives_finish hSet (TerminatorSet.find?_atEnd hNone (h.place ▸ hEnd)), ?_⟩
  obtain ⟨-, hRegions, hPosition, -⟩ := h.flush hRealizes (Cursor.reaches_toEnd s.pending)
  have hStep : ∀ (out : Output) frame, ∃ n,
      out.closeFrame frame = (out.closeFrame frame).addRelevance n :=
    fun out frame => ⟨0, (Output.addRelevance_zero _).symm⟩
  simp only [Scan.finish, Output.finish, Scan.frames_flush, h.frames]
  rw [Output.regions_closeEach m place hStep, hRegions, hPosition, h.pending]
  rfl

omit hRealizes in
/-- The first region is settled once its mode is closed. -/
theorem settled {region : Region} (hFirst : d.regions.head? = some region)
    (hClosed : ∀ mode ∈ d.modes, mode.2 ≠ some 0) : s.Settled text 0 region where
  sound := h.sound
  region := by rw [← Array.getElem?_toList, h.regions, ← List.head?_eq_getElem?, hFirst]
  closed hMem := by
    rw [h.sound.unclosed, h.frames, List.filterMap_map] at hMem
    obtain ⟨mode, hMode, hRegion⟩ := List.mem_filterMap.1 hMem
    exact hClosed mode hMode hRegion

end Standing.Describes

namespace Machine.Realizes

variable {m : Machine} {g : Grammar} {place : Address → Nat} {d d' : Standing}

/-- A machine makes each move of its grammar. -/
theorem exists_leadsTo (h : m.Realizes g place) (hCourse : g.Course d d') {text : List Char}
    {s : Scan} (hStands : d.Describes m g place text s) :
    ∃ s', Scan.LeadsTo m s s' ∧ d'.Describes m g place text s' := by
  induction hCourse with
  | refl => exact ⟨s, .refl s, hStands⟩
  | @tail d1 d2 _ hMove ih =>
    obtain ⟨s1, hLeads, h1⟩ := ih
    obtain ⟨s2, hNext, h2⟩ :
        ∃ s2, Scan.LeadsTo m s1 s2 ∧ d2.Describes m g place text s2 := by
      cases hMove with
      | opens hCue => exact h1.enter h hCue
      | closes hCue hMoved => exact h1.leave h hCue hMoved
      | skips hCue hEnd => exact h1.skip h hCue hEnd
    exact ⟨s2, hLeads.trans hNext, h2⟩

end Machine.Realizes

/-- What is found in texts is told by the moves of a grammar. -/
structure Machine.Follows (m : Machine) (g : Grammar) : Prop where
  /-- What the moves of a text find on the way to its end is found. -/
  ends : ∀ (t : Tokenizer m) (text : String) (d : Standing), g.Course (.start text.toList) d →
    g.cueAt? d.top d.place = none → d.place.atEnd = true →
      ∃ tokens, (t.tokenize text).1 = .ok tokens ∧ tokens.regions = d.found g
  /-- What the moves of a text come upon that is illegal is reported. -/
  illegal : ∀ (t : Tokenizer m) (text : String) (d : Standing) (stop : Cursor),
    g.Course (.start text.toList) d → g.cueAt? d.top d.place = some (.illegal, stop) →
      (t.tokenize text).1 = .error (.illegal d.place.offset (Span.mk d.place stop).text)
  /-- The first region is the first one that is found, whatever comes after its mode is closed. -/
  keeps : ∀ (t : Tokenizer m) (text : String) (d : Standing) (region : Region) (tokens : Tokens),
    g.Course (.start text.toList) d → d.regions.head? = some region →
    (∀ mode ∈ d.modes, mode.2 ≠ some 0) → region.start < region.stop →
    (t.tokenize text).1 = .ok tokens → tokens.regions.head? = some region

theorem Standing.Describes.start (m : Machine) (g : Grammar) (place : Address → Nat)
    (text : List Char) : (Standing.start text).Describes m g place text (.start text) :=
  ⟨.start text, nofun, rfl, rfl, rfl, rfl, rfl⟩

/-- Where no scan runs away, the machine of a grammar follows its moves. -/
theorem Machine.Realizes.follows {m : Machine} {g : Grammar} {place : Address → Nat}
    (h : m.Realizes g place) (T : Tariff m) : m.Follows g where
  ends t text d hCourse hCue hEnd := by
    obtain ⟨s, hLeads, hStands⟩ := h.exists_leadsTo hCourse (.start m g place text.toList)
    obtain ⟨tokens, hGives, hRegions⟩ := hStands.ends h hCue hEnd
    exact ⟨tokens,
      Tokenizer.tokenize_of_gives ((hLeads _).2 hGives) t (T.ne_runaway t text), hRegions⟩
  illegal t text d stop hCourse hCue := by
    obtain ⟨s, hLeads, hStands⟩ := h.exists_leadsTo hCourse (.start m g place text.toList)
    exact Tokenizer.tokenize_of_gives ((hLeads _).2 (hStands.illegal h hCue)) t
      (T.ne_runaway t text)
  keeps t text d region tokens hCourse hFirst hClosed hNonempty hTokens := by
    obtain ⟨s, hLeads, hStands⟩ := h.exists_leadsTo hCourse (.start m g place text.toList)
    exact (hStands.settled hFirst hClosed).head?_of_gives hNonempty
      ((hLeads _).1 (Tokenizer.gives_of_tokenize_eq_ok hTokens))

end Highlighter
