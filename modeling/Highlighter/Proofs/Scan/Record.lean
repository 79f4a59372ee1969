import Highlighter.Proofs.Scan.Found
import Highlighter.Proofs.Scan.Partition
import Highlighter.Scan.State

/-! What has been emitted so far as a record of entries. `Output.Records` ties an output to the list
of its entries: its regions are theirs, its stack of places tells which of them are open, they are
properly nested, and its tokens cut the text emitted so far along them. Each operation on an output
has its counterpart on the entries. -/

namespace Highlighter

open Text

/-- The places of the open entries, the outermost first. -/
def openPlaces (es : List Entry) : List Nat := (es.zipIdx.filter (·.1.isOpen)).map (·.2)

section OpenPlaces

variable {es left right : List Entry} {e : Entry}

theorem openPlaces_concat :
    openPlaces (es ++ [e]) = openPlaces es ++ if e.isOpen then [es.length] else [] := by
  cases hOpen : e.isOpen <;> simp [openPlaces, List.zipIdx_append, hOpen]

theorem openPlaces_append_closed (hRight : ∀ e ∈ right, e.isOpen = false) :
    openPlaces (left ++ right) = openPlaces left := by
  induction right using List.reverseRecOn with
  | nil => rw [List.append_nil]
  | append_singleton right e ih =>
    rw [← List.append_assoc, openPlaces_concat, ih fun x hx => hRight x (by simp [hx]),
      hRight e (by simp)]
    simp

theorem openPlaces_middle (hRight : ∀ e ∈ right, e.isOpen = false) :
    openPlaces (left ++ e :: right) = openPlaces left ++ if e.isOpen then [left.length]
      else [] := by
  rw [show left ++ e :: right = (left ++ [e]) ++ right by simp, openPlaces_append_closed hRight,
    openPlaces_concat]

/-- The last open place parts the entries: those after it are closed. -/
theorem exists_last_open {places : List Nat} {place : Nat} (h : openPlaces es = places ++ [place]) :
    ∃ left x right, es = left ++ x :: right ∧ left.length = place ∧ x.isOpen = true ∧
      (∀ e ∈ right, e.isOpen = false) ∧ openPlaces left = places := by
  induction es using List.reverseRecOn with
  | nil => simp [openPlaces] at h
  | append_singleton es e ih =>
    rw [openPlaces_concat] at h
    cases hOpen : e.isOpen with
    | true =>
      rw [if_pos hOpen] at h
      obtain ⟨hPlaces, hPlace⟩ := List.append_inj' h rfl
      exact ⟨es, e, [], rfl, List.singleton_inj.1 hPlace, hOpen, nofun, hPlaces⟩
    | false =>
      rw [if_neg (by simp [hOpen]), List.append_nil] at h
      obtain ⟨left, x, right, rfl, hLength, hx, hRight, hLeft⟩ := ih h
      refine ⟨left, x, right ++ [e], by simp, hLength, hx, fun y hy => ?_, hLeft⟩
      rcases List.mem_append.1 hy with hy | hy
      · exact hRight y hy
      · rw [List.mem_singleton.1 hy, hOpen]

theorem filterMap_openPlaces {α : Type} (f : Entry → α) :
    (openPlaces es).filterMap (fun place => (es[place]?).map f) =
      (es.filter (·.isOpen)).map f := by
  have hLookUp : ∀ a ∈ es.zipIdx.filter (·.1.isOpen), (es[a.2]?).map f = some (f a.1) := by
    rintro ⟨e, i⟩ ha
    rw [List.mem_zipIdx_iff_getElem?.1 (List.mem_filter.1 ha).1]
    rfl
  calc (openPlaces es).filterMap (fun place => (es[place]?).map f)
    _ = (es.zipIdx.filter (·.1.isOpen)).filterMap (fun a => (es[a.2]?).map f) := by
      rw [openPlaces, List.filterMap_map]
      rfl
    _ = (es.zipIdx.filter (·.1.isOpen)).map (fun a => f a.1) := by
      rw [List.filterMap_congr hLookUp, ← List.filterMap_eq_map]
      rfl
    _ = ((es.zipIdx.map (·.1)).filter (·.isOpen)).map f := by
      rw [List.filter_map, List.map_map]
      rfl
    _ = (es.filter (·.isOpen)).map f := by rw [List.zipIdx_map_fst]

end OpenPlaces

theorem modify_middle {α : Type} (f : α → α) (left right : List α) (x : α) :
    (left ++ x :: right).modify left.length f = left ++ f x :: right := by
  induction left with
  | nil => rfl
  | cons a left ih =>
    rw [List.cons_append, List.length_cons, List.modify_succ_cons, ih, List.cons_append]

/-- Behind the emitted text, an entry covers a byte just if it is open. -/
theorem Nested.categoriesAt_behind {text : List Char} {n : Nat} {es : List Entry}
    (h : Nested text n es) {p : Nat} (hp : n ≤ p) :
    categoriesAt es p = (es.filter (·.isOpen)).map (·.region.category) := by
  unfold categoriesAt
  congr 1
  refine List.filter_congr fun e he => ?_
  have hStart := (h.start e he).2
  cases hOpen : e.isOpen with
  | true =>
    have hLe : e.region.start ≤ p := by omega
    simp [Entry.covers, hOpen, hLe]
  | false =>
    have hStop := (h.stop e he hOpen).2.2
    have hLe : e.region.stop ≤ p := by omega
    simp [Entry.covers, hOpen, hLe]

theorem categoriesAt_concat_of_lt {es : List Entry} {x : Entry} {p : Nat}
    (hp : p < x.region.start) : categoriesAt (es ++ [x]) p = categoriesAt es p := by
  have hNot : [x].filter (·.covers p) = [] := by simp [Entry.covers, hp]
  rw [categoriesAt, categoriesAt, List.filter_append, hNot, List.append_nil]

namespace Output

/-- An output records some entries. -/
structure Records (text : List Char) (es : List Entry) (out : Output) : Prop where
  regions : out.regions.toList = es.map (·.region)
  unclosed : out.unclosed = (openPlaces es).reverse
  nested : Nested text out.position es
  cover : Cover text out.position out.tokens
  agree : Agree es out.tokens

variable {text : List Char} {es : List Entry} {out : Output}

theorem categories_eq (hRegions : out.regions.toList = es.map (·.region))
    (hUnclosed : out.unclosed = (openPlaces es).reverse) :
    out.categories = (es.filter (·.isOpen)).map (·.region.category) := by
  rw [← filterMap_openPlaces, categories, hUnclosed, List.reverse_reverse]
  refine List.filterMap_congr fun place _ => ?_
  rw [← Array.getElem?_toList, hRegions, List.getElem?_map, Option.map_map]
  rfl

namespace Records

theorem start (text : List Char) : Records text [] {} :=
  ⟨rfl, rfl, .nil text 0, rfl, nofun⟩

theorem length_unclosed (h : Records text es out) :
    out.unclosed.length = es.countP (·.isOpen) := by
  rw [h.unclosed, List.length_reverse, openPlaces, List.length_map,
    ← List.countP_eq_length_filter]
  conv_rhs => rw [← List.zipIdx_map_fst 0 es, List.countP_map]
  rfl

theorem depth_eq (h : Records text es out) : out.depth = es.countP (·.isOpen) := by
  unfold depth
  split
  · next hNil =>
    rw [← h.length_unclosed, hNil]
    rfl
  · next place rest hCons =>
    have hLast : openPlaces es = rest.reverse ++ [place] := by
      rw [← List.reverse_reverse (openPlaces es), ← h.unclosed, hCons, List.reverse_cons]
    obtain ⟨left, x, right, rfl, rfl, hOpen, hRight, -⟩ := exists_last_open hLast
    have hRegion : out.regions.getD left.length default = x.region := by
      rw [Array.getD_eq_getD_getElem?, ← Array.getElem?_toList, h.regions]
      simp
    have hHolds : left.countP (·.holds x) = left.countP (·.isOpen) := by
      refine List.countP_congr fun o ho => ?_
      have hStart := ((List.pairwise_append.1 h.nested.inOrder).2.2 o ho x (by simp)).start_le
      rw [Entry.holds_iff]
      simp [hOpen, hStart]
    have hNone : right.countP (·.isOpen) = 0 := by
      rw [List.countP_eq_zero]
      intro e he
      simp [hRight e he]
    rw [hRegion, h.nested.depth left x right rfl (.inl hOpen), hHolds, List.countP_append,
      List.countP_cons_of_pos hOpen, hNone]

theorem addToken (h : Records text es out) {stop : Nat} {categories : List Category}
    (hStop : out.position < stop) (hBoundary : Boundary text stop)
    (hSame : ∀ p, out.position ≤ p → p < stop → categoriesAt es p = categories) :
    Records text es
      { out with
        tokens := Output.addToken ⟨out.position, stop, categories⟩ out.tokens
        position := stop } :=
  ⟨h.regions, h.unclosed, h.nested.mono (Nat.le_of_lt hStop), h.cover.addToken hStop hBoundary,
    h.agree.addToken hSame⟩

theorem emit (h : Records text es out) {stop : Nat} (hBoundary : Boundary text stop) :
    Records text es (out.emit stop none) := by
  unfold Output.emit
  split
  · exact h
  · next hStop =>
    refine h.addToken (Nat.lt_of_not_le hStop) hBoundary fun p hp _ => ?_
    rw [h.nested.categoriesAt_behind hp, categories_eq h.regions h.unclosed, Option.toList_none,
      List.append_nil]

theorem openRegion (h : Records text es out) (category : Category) :
    Records text (es ++ [⟨⟨category, out.position, out.position, out.depth⟩, true⟩])
      (out.openRegion category) := by
  refine ⟨?_, ?_, ?_, h.cover, ?_⟩
  · simp [Output.openRegion, h.regions]
  · have hSize : out.regions.size = es.length := by
      rw [← Array.length_toList, h.regions, List.length_map]
    simp [Output.openRegion, openPlaces_concat, h.unclosed, hSize]
  · exact h.nested.push h.cover.boundary rfl h.depth_eq (Nat.le_refl _) nofun
  · exact h.agree.of_categoriesAt_eq h.cover fun p hp => categoriesAt_concat_of_lt hp

theorem closeRegion (h : Records text es out) {place : Nat} {rest : List Nat}
    (hUnclosed : out.unclosed = place :: rest) :
    ∃ es', Records text es' (out.closeRegion place) ∧
      (out.closeRegion place).unclosed = rest := by
  have hLast : openPlaces es = rest.reverse ++ [place] := by
    rw [← List.reverse_reverse (openPlaces es), ← h.unclosed, hUnclosed, List.reverse_cons]
  obtain ⟨left, x, right, rfl, rfl, hOpen, hRight, hLeft⟩ := exists_last_open hLast
  have hRest : (out.closeRegion left.length).unclosed = rest := by
    rw [Output.closeRegion, hUnclosed, List.erase_cons_head]
  refine ⟨left ++ x.closedAt out.position :: right, ⟨?_, ?_, ?_, h.cover, ?_⟩, hRest⟩
  · have hLength : left.length = (left.map (·.region)).length := (List.length_map _).symm
    rw [Output.closeRegion, Array.toList_modify, h.regions, List.map_append, List.map_cons, hLength,
      modify_middle, List.map_append, List.map_cons]
    rfl
  · rw [hRest, openPlaces_middle hRight, hLeft]
    simp [Entry.closedAt]
  · exact h.nested.close h.cover.boundary hOpen hRight
  · refine h.agree.of_categoriesAt_eq h.cover fun p hp => ?_
    have hSame : (x.closedAt out.position).covers p = x.covers p := by
      rw [Bool.eq_iff_iff, Entry.covers_iff, Entry.covers_iff]
      simp [Entry.closedAt, hOpen, hp]
    simp only [categoriesAt, List.filter_append, List.filter_cons, hSame]
    split <;> simp [Entry.closedAt]

theorem addRelevance (h : Records text es out) (n : UInt32) :
    Records text es (out.addRelevance n) :=
  ⟨h.regions, h.unclosed, h.nested, h.cover, h.agree⟩

theorem countHit (h : Records text es out) (word : String) (n : UInt32) :
    Records text es (out.countHit word n) := by
  simp only [Output.countHit]
  split
  · exact ⟨h.regions, h.unclosed, h.nested, h.cover, h.agree⟩
  · exact ⟨h.regions, h.unclosed, h.nested, h.cover, h.agree⟩

end Records

@[simp] theorem position_emit (out : Output) (stop : Nat) (innermost : Option Category) :
    (out.emit stop innermost).position = max out.position stop := by
  simp only [emit]
  split
  · next hStop => exact (Nat.max_eq_left hStop).symm
  · next hStop => exact (Nat.max_eq_right (Nat.le_of_not_le hStop)).symm

@[simp] theorem unclosed_emit (out : Output) (stop : Nat) (innermost : Option Category) :
    (out.emit stop innermost).unclosed = out.unclosed := by
  unfold emit
  split <;> rfl

@[simp] theorem regions_emit (out : Output) (stop : Nat) (innermost : Option Category) :
    (out.emit stop innermost).regions = out.regions := by
  unfold emit
  split <;> rfl

@[simp] theorem position_countHit (out : Output) (word : String) (n : UInt32) :
    (out.countHit word n).position = out.position := by
  simp only [countHit]
  split <;> rfl

@[simp] theorem unclosed_countHit (out : Output) (word : String) (n : UInt32) :
    (out.countHit word n).unclosed = out.unclosed := by
  simp only [countHit]
  split <;> rfl

@[simp] theorem regions_countHit (out : Output) (word : String) (n : UInt32) :
    (out.countHit word n).regions = out.regions := by
  simp only [countHit]
  split <;> rfl

@[simp] theorem position_emitKeyword (out : Output) (start stop : Nat) (category : Category) :
    (out.emitKeyword start stop category).position = max (max out.position start) stop := by
  simp [emitKeyword]

@[simp] theorem unclosed_emitKeyword (out : Output) (start stop : Nat) (category : Category) :
    (out.emitKeyword start stop category).unclosed = out.unclosed := by
  simp [emitKeyword]

namespace Records

/-- A keyword is emitted as a closed entry of its own within the open ones. -/
theorem emitKeyword (h : Records text es out) {start stop : Nat} (category : Category)
    (hStart : out.position ≤ start) (hLt : start < stop) (hStartB : Boundary text start)
    (hStopB : Boundary text stop) :
    ∃ es', Records text es' (out.emitKeyword start stop category) := by
  have h1 := h.emit hStartB
  have hPosition : (out.emit start none).position = start := by
    rw [position_emit]
    omega
  unfold Output.emitKeyword
  generalize out.emit start none = out1 at h1 hPosition
  subst hPosition
  let x : Entry := ⟨⟨category, out1.position, stop, out1.depth⟩, false⟩
  have hRegions : (out1.regions.push x.region).toList = (es ++ [x]).map (·.region) := by
    rw [Array.toList_push, h1.regions, List.map_append]
    rfl
  have hUnclosed : out1.unclosed = (openPlaces (es ++ [x])).reverse := by
    rw [openPlaces_concat, if_neg (by simp [x]), List.append_nil]
    exact h1.unclosed
  have hOpen : (es ++ [x]).filter (·.isOpen) = es.filter (·.isOpen) := by simp [x]
  have hCategories : Output.categories { out1 with regions := out1.regions.push x.region } =
      ((es ++ [x]).filter (·.isOpen)).map (·.region.category) := categories_eq hRegions hUnclosed
  have hNested := h1.nested.push (x := x) hStartB rfl h1.depth_eq (Nat.le_of_lt hLt)
    fun _ => ⟨hStopB, hLt, Nat.le_refl stop⟩
  -- No token covers the keyword yet, so what holds of the earlier tokens is not touched.
  have hBefore : ∀ p < out1.position, categoriesAt (es ++ [x]) p = categoriesAt es p :=
    fun p hp => categoriesAt_concat_of_lt hp
  have hAgree := h1.agree.of_categoriesAt_eq h1.cover hBefore
  refine ⟨es ++ [x], ?_⟩
  simp only [Output.emit, if_neg (Nat.not_le.2 hLt)]
  refine ⟨hRegions, hUnclosed, hNested, h1.cover.addToken hLt hStopB, hAgree.addToken ?_⟩
  intro p hp hpStop
  have hSelf : [x].filter (·.covers p) = [x] := by
    have hCovers : x.covers p = true := Entry.covers_iff.2 ⟨hp, .inr hpStop⟩
    simp [hCovers]
  have hBehind := h1.nested.categoriesAt_behind hp
  rw [categoriesAt, List.filter_append, hSelf, List.map_append, ← categoriesAt, hBehind]
  show _ = Output.categories { out1 with regions := out1.regions.push x.region } ++ _
  rw [hCategories, hOpen]
  rfl

theorem emitHits {left middle right : List Char} {hits : List Hit} {n : Nat}
    (h : Records (left ++ (middle ++ right)) es out) (hHits : Hit.Ordered middle n hits)
    (hStart : out.position ≤ byteLength left + n) (hn : n ≤ byteLength middle) :
    (∃ es', Records (left ++ (middle ++ right)) es' (out.emitHits (byteLength left) hits)) ∧
      (out.emitHits (byteLength left) hits).unclosed = out.unclosed ∧
      (out.emitHits (byteLength left) hits).position ≤ byteLength left + byteLength middle := by
  induction hits generalizing es out n with
  | nil => exact ⟨⟨es, h⟩, rfl, by show out.position ≤ _; omega⟩
  | cons hit hits ih =>
    obtain ⟨hLe, hLt, hStartB, hStopB, hRest⟩ := hHits
    have hStop := hStopB.le
    have hStopB' : Boundary (left ++ (middle ++ right)) (byteLength left + hit.stop) := hStopB.shift
    obtain ⟨es1, h1⟩ :=
      h.emitKeyword hit.data.category (by omega) (by omega) hStartB.shift hStopB'
    have hPosition : ((out.emitKeyword (byteLength left + hit.start) (byteLength left + hit.stop)
        hit.data.category).countHit hit.key hit.data.relevance).position ≤
          byteLength left + hit.stop := by
      rw [position_countHit, position_emitKeyword]
      omega
    obtain ⟨hRecords, hUnclosed, hEnd⟩ :=
      ih (h1.countHit hit.key hit.data.relevance) hRest hPosition hStop
    exact ⟨hRecords, hUnclosed.trans (by rw [unclosed_countHit, unclosed_emitKeyword]), hEnd⟩

/-- Frames are closed, the innermost first, whose regions are the innermost open ones. -/
theorem closeEach (h : Records text es out) {step : Output → Frame → Output}
    (hStep : ∀ out frame, ∃ n, step out frame = (out.closeFrame frame).addRelevance n)
    {closed : List Frame} {rest : List Nat}
    (hUnclosed : out.unclosed = closed.filterMap (·.region) ++ rest) :
    (∃ es', Records text es' (closed.foldl step out)) ∧
      (closed.foldl step out).unclosed = rest ∧
      (closed.foldl step out).position = out.position := by
  induction closed generalizing es out with
  | nil => exact ⟨⟨es, h⟩, hUnclosed, rfl⟩
  | cons frame closed ih =>
    obtain ⟨n, hn⟩ := hStep out frame
    rw [List.foldl_cons, hn]
    cases hRegion : frame.region with
    | none =>
      rw [List.filterMap_cons_none hRegion] at hUnclosed
      rw [Output.closeFrame, hRegion]
      exact ih (h.addRelevance n) hUnclosed
    | some place =>
      rw [List.filterMap_cons_some hRegion, List.cons_append] at hUnclosed
      obtain ⟨es1, h1, hRest⟩ := h.closeRegion hUnclosed
      rw [Output.closeFrame, hRegion]
      exact ih (h1.addRelevance n) hRest

end Records

end Output

/-- What has been found describes the text: its tokens partition it, its regions are a forest, and
both say the same of each byte. -/
structure Tokens.Describes (found : Tokens) (text : String) : Prop where
  partition : Partition text found.tokens
  forest : Forest text found.regions
  covered : ∀ p < text.utf8ByteSize, ∃ t ∈ found.tokens, t.covers p = true
  agree : ∀ t ∈ found.tokens, ∀ p, t.covers p = true →
    t.categories = (found.regions.filter (·.covers p)).map (·.category)

/-- The regions that are left once all entries are closed are those of the entries that cover a
byte. -/
theorem categoriesAt_eq_of_closed {es : List Entry}
    (hClosed : ∀ e ∈ es, e.isOpen = false) (p : Nat) :
    categoriesAt es p =
      (((es.map (·.region)).filter fun r => r.start < r.stop).filter (·.covers p)).map
        (·.category) := by
  rw [categoriesAt, List.filter_filter, List.filter_map, List.map_map]
  congr 1
  refine List.filter_congr fun e he => ?_
  rw [Bool.eq_iff_iff, Entry.covers_iff]
  simp only [hClosed e he, Region.covers, Function.comp, Bool.and_eq_true, decide_eq_true_eq,
    Bool.false_eq_true, false_or]
  omega

theorem Output.Records.describes {text : String} {es : List Entry} {out : Output}
    (h : out.Records text.toList es) (hUnclosed : out.unclosed = [])
    (hEnd : out.position = text.utf8ByteSize) : out.finish.Describes text := by
  have hClosed : ∀ e ∈ es, e.isOpen = false := by
    have hNone : (es.filter (·.isOpen)).map id = [] := by
      rw [← filterMap_openPlaces, List.reverse_eq_nil_iff.1 (h.unclosed.symm.trans hUnclosed)]
      rfl
    rw [List.map_id, List.filter_eq_nil_iff] at hNone
    exact fun e he => Bool.not_eq_true _ ▸ hNone e he
  have hRegions : out.finish.regions = (es.map (·.region)).filter fun r => r.start < r.stop := by
    rw [← h.regions]
    rfl
  have hCover := h.cover
  rw [hEnd] at hCover
  refine ⟨hCover.partition, ?_, fun p hp => ?_, fun t ht p hp => ?_⟩
  · rw [hRegions, List.filter_map]
    have hDrop := h.nested.dropEmpty
    have hKeep : (es.filter fun e => e.isOpen || e.region.start < e.region.stop) =
        es.filter ((fun r : Region => decide (r.start < r.stop)) ∘ (·.region)) :=
      List.filter_congr fun e he => by simp [hClosed e he]
    rw [hKeep] at hDrop
    refine hDrop.forest fun e he => ?_
    obtain ⟨he, hSome⟩ := List.mem_filter.1 he
    exact ⟨hClosed e he, by simpa using hSome⟩
  · obtain ⟨t, ht, hCovers⟩ := hCover.exists_covers hp
    exact ⟨t, List.mem_reverse.2 ht, hCovers⟩
  · rw [h.agree t (List.mem_reverse.1 ht) p hp, hRegions, categoriesAt_eq_of_closed hClosed]

end Highlighter
