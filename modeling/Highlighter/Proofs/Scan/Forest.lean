import Highlighter.Proofs.Text.Place
import Highlighter.Scan.Tokens
import Mathlib.Data.List.Induction

/-! Regions as a forest. While a text is scanned some regions are open, and their ends are not known
yet; `Nested` says of such regions what `Forest` says of the regions in the end. Opening a region,
entering a closed one, closing the innermost open one and moving on keep `Nested`. -/

namespace Highlighter

open Text

def Region.Within (inner outer : Region) : Prop :=
  outer.start ≤ inner.start ∧ inner.stop ≤ outer.stop

instance (inner outer : Region) : Decidable (inner.Within outer) :=
  inferInstanceAs (Decidable (_ ∧ _))

def Region.covers (r : Region) (p : Nat) : Bool := r.start ≤ p && p < r.stop

/-- The regions form a forest in the order in which they open: they lie between characters of the
text, none is empty, a later one lies behind an earlier one or within it, and the depth of each is
the number of earlier ones that it lies within. -/
structure Forest (text : String) (regions : List Region) : Prop where
  nonempty : ∀ r ∈ regions, r.start < r.stop
  boundary : ∀ r ∈ regions,
    (⟨r.start⟩ : String.Pos.Raw).IsValid text ∧ (⟨r.stop⟩ : String.Pos.Raw).IsValid text
  preorder : regions.Pairwise fun a b => a.start ≤ b.start
  nested : regions.Pairwise fun a b => a.stop ≤ b.start ∨ b.Within a
  depth : ∀ i (h : i < regions.length),
    regions[i].depth = (regions.take i).countP fun r => regions[i].Within r

/-- A region while a text is scanned. The end of an open one is not known yet. -/
structure Entry where
  region : Region
  isOpen : Bool

namespace Entry

/-- One entry lies around another, as far as their ends are known. -/
def holds (outer inner : Entry) : Bool :=
  outer.region.start ≤ inner.region.start &&
    (outer.isOpen || (!inner.isOpen && inner.region.stop ≤ outer.region.stop))

theorem holds_iff {outer inner : Entry} :
    outer.holds inner = true ↔ outer.region.start ≤ inner.region.start ∧
      (outer.isOpen = true ∨
        (inner.isOpen = false ∧ inner.region.stop ≤ outer.region.stop)) := by
  simp [holds]

/-- An entry covers the byte at an offset; an open one covers all from its start on. -/
def covers (e : Entry) (p : Nat) : Bool := e.region.start ≤ p && (e.isOpen || p < e.region.stop)

theorem covers_iff {e : Entry} {p : Nat} :
    e.covers p = true ↔ e.region.start ≤ p ∧ (e.isOpen = true ∨ p < e.region.stop) := by
  simp [covers]

/-- An entry that ends at `stop`. -/
def closedAt (e : Entry) (stop : Nat) : Entry := ⟨{ e.region with stop }, false⟩

/-- The depth of an entry counts the earlier ones around it. An empty region has none to speak of,
since regions may end where it lies. -/
def DepthIn (earlier : List Entry) (e : Entry) : Prop :=
  e.isOpen = true ∨ e.region.start < e.region.stop →
    e.region.depth = earlier.countP (·.holds e)

end Entry

/-- What two entries are to each other in the order in which they open. -/
structure InOrder (a b : Entry) : Prop where
  start_le : a.region.start ≤ b.region.start
  nested : a.isOpen = true ∨ a.region.stop ≤ b.region.start ∨
    (b.isOpen = false ∧ b.region.stop ≤ a.region.stop)

section ClosedAt

variable {x e : Entry} {n : Nat}

/-- What has opened within an entry has been closed before it. -/
theorem InOrder.closedAt_left (h : InOrder x e) (hClosed : e.isOpen = false)
    (hStop : e.region.stop ≤ n) : InOrder (x.closedAt n) e :=
  ⟨h.start_le, .inr (.inr ⟨hClosed, hStop⟩)⟩

theorem InOrder.isOpen_or_stop_le (h : InOrder e x) (hOpen : x.isOpen = true) :
    e.isOpen = true ∨ e.region.stop ≤ x.region.start := by
  rcases h.nested with hE | hE | ⟨hE, -⟩
  · exact .inl hE
  · exact .inr hE
  · rw [hOpen] at hE
    cases hE

theorem InOrder.closedAt_right (h : InOrder e x) (hOpen : x.isOpen = true) :
    InOrder e (x.closedAt n) := by
  refine ⟨h.start_le, ?_⟩
  rcases h.isOpen_or_stop_le hOpen with hE | hE
  · exact .inl hE
  · exact .inr (.inl hE)

theorem Entry.closedAt_holds (hOpen : x.isOpen = true) (hClosed : e.isOpen = false)
    (hStop : e.region.stop ≤ n) : (x.closedAt n).holds e = x.holds e := by
  rw [Bool.eq_iff_iff, holds_iff, holds_iff]
  simp [closedAt, hOpen, hClosed, hStop]

/-- Closing an entry that is not empty does not change which entries lie around it. -/
theorem Entry.holds_closedAt (h : InOrder e x) (hOpen : x.isOpen = true)
    (hLt : x.region.start < n) : e.holds (x.closedAt n) = e.holds x := by
  rw [Bool.eq_iff_iff, holds_iff, holds_iff]
  rcases h.isOpen_or_stop_le hOpen with hE | hE
  · simp [closedAt, hE]
  · have hShort : ¬n ≤ e.region.stop := by omega
    simp [closedAt, hOpen, hShort]

end ClosedAt

/-- Entries that are properly nested when the text before the offset `n` has been scanned. -/
structure Nested (text : List Char) (n : Nat) (es : List Entry) : Prop where
  start : ∀ e ∈ es, Boundary text e.region.start ∧ e.region.start ≤ n
  stop : ∀ e ∈ es, e.isOpen = false →
    Boundary text e.region.stop ∧ e.region.start ≤ e.region.stop ∧ e.region.stop ≤ n
  inOrder : es.Pairwise InOrder
  depth : ∀ left e right, es = left ++ e :: right → e.DepthIn left

theorem append_cons_eq_append_cons {α : Type} {left right l r : List α} {x e : α}
    (h : left ++ x :: right = l ++ e :: r) :
    (∃ m, left = l ++ e :: m ∧ r = m ++ x :: right) ∨ (left = l ∧ x = e ∧ right = r) ∨
      ∃ m, l = left ++ x :: m ∧ right = m ++ e :: r := by
  rcases List.append_eq_append_iff.1 h with ⟨m, hl, hx⟩ | ⟨m, hl, hx⟩
  · rcases List.cons_eq_append_iff.1 hx with ⟨rfl, hr⟩ | ⟨m', rfl, hr⟩
    · cases hr
      exact .inr (.inl ⟨by simpa using hl.symm, rfl, rfl⟩)
    · exact .inr (.inr ⟨m', hl, hr⟩)
  · rcases List.cons_eq_append_iff.1 hx with ⟨rfl, hr⟩ | ⟨m', rfl, hr⟩
    · cases hr
      exact .inr (.inl ⟨by simpa using hl, rfl, rfl⟩)
    · exact .inl ⟨m', hl, hr⟩

theorem exists_of_filter_eq_append_cons {α : Type} {keep : α → Bool} {all left right : List α}
    {e : α} (h : all.filter keep = left ++ e :: right) :
    ∃ earlier later, all = earlier ++ e :: later ∧ earlier.filter keep = left := by
  obtain ⟨l, r, rfl, hl, hr⟩ := List.filter_eq_append_iff.1 h
  obtain ⟨gap, later, rfl, hGap, -, -⟩ := List.filter_eq_cons_iff.1 hr
  refine ⟨l ++ gap, later, by simp, ?_⟩
  rw [List.filter_append, hl, List.filter_eq_nil_iff.2 hGap, List.append_nil]

namespace Nested

variable {text : List Char} {n : Nat} {es : List Entry}

theorem nil (text : List Char) (n : Nat) : Nested text n [] :=
  ⟨nofun, nofun, .nil, fun left e right h => by simp at h⟩

theorem mono (h : Nested text n es) {n' : Nat} (hn : n ≤ n') : Nested text n' es := by
  refine ⟨fun e he => ?_, fun e he hOpen => ?_, h.inOrder, h.depth⟩
  · obtain ⟨hBoundary, hLe⟩ := h.start e he
    exact ⟨hBoundary, by omega⟩
  · obtain ⟨hBoundary, hLe, hStop⟩ := h.stop e he hOpen
    exact ⟨hBoundary, hLe, by omega⟩

/-- An entry lies within all open ones and behind all closed ones when it starts
where the emitted text ends. -/
theorem holds_last (h : Nested text n es) {x : Entry} (hStart : x.region.start = n)
    (hStop : x.isOpen = true ∨ x.region.start < x.region.stop) :
    es.countP (·.holds x) = es.countP (·.isOpen) := by
  refine List.countP_congr fun e he => ?_
  have hLe := (h.start e he).2
  rw [Entry.holds_iff]
  cases hOpen : e.isOpen with
  | true => simp [hStart, hLe]
  | false =>
    have hEnd := (h.stop e he hOpen).2.2
    rcases hStop with hx | hx
    · simp [hx]
    · have hShort : ¬x.region.stop ≤ e.region.stop := by omega
      simp [hShort]

/-- An entry is added that starts where the emitted text ends: an open one, or one that the
text emitted next makes up. -/
theorem push (h : Nested text n es) {x : Entry} {n' : Nat} (hBoundary : Boundary text n)
    (hStart : x.region.start = n) (hDepth : x.region.depth = es.countP (·.isOpen))
    (hn : n ≤ n') (hStop : x.isOpen = false → Boundary text x.region.stop ∧
      n < x.region.stop ∧ x.region.stop ≤ n') : Nested text n' (es ++ [x]) := by
  have hLater := h.mono hn
  refine ⟨fun e he => ?_, fun e he hOpen => ?_, ?_, fun left e right hEq => ?_⟩
  · rcases List.mem_append.1 he with he | he
    · exact hLater.start e he
    · rw [List.mem_singleton.1 he, hStart]
      exact ⟨hBoundary, hn⟩
  · rcases List.mem_append.1 he with he | he
    · exact hLater.stop e he hOpen
    · obtain rfl := List.mem_singleton.1 he
      obtain ⟨hB, hLt, hLe⟩ := hStop hOpen
      exact ⟨hB, by omega, hLe⟩
  · refine List.pairwise_append.2 ⟨h.inOrder, List.pairwise_singleton _ _, fun e he y hy => ?_⟩
    obtain rfl := List.mem_singleton.1 hy
    refine ⟨by rw [hStart]; exact (h.start e he).2, ?_⟩
    cases hOpen : e.isOpen with
    | true => exact .inl rfl
    | false => exact .inr (.inl (by rw [hStart]; exact (h.stop e he hOpen).2.2))
  · rcases append_cons_eq_append_cons hEq with
      ⟨m, hLeft, -⟩ | ⟨rfl, rfl, -⟩ | ⟨m, -, hRight⟩
    · exact h.depth left e m hLeft
    -- Only the open entries lie around the new one, as all others have ended before it starts.
    · intro hSome
      rw [hDepth, h.holds_last hStart hSome]
    · simp at hRight

/-- The innermost open entry is closed where the emitted text ends. -/
theorem close {left right : List Entry} {x : Entry} (h : Nested text n (left ++ x :: right))
    (hBoundary : Boundary text n) (hOpen : x.isOpen = true)
    (hRight : ∀ e ∈ right, e.isOpen = false) :
    Nested text n (left ++ x.closedAt n :: right) := by
  obtain ⟨hLeftOrder, hRightOrder, hAcross⟩ := List.pairwise_append.1 h.inOrder
  obtain ⟨hxOrder, hRightOrder⟩ := List.pairwise_cons.1 hRightOrder
  have hx : x ∈ left ++ x :: right := by simp
  have hOld : ∀ {e}, e ∈ left ++ x.closedAt n :: right →
      e = x.closedAt n ∨ e ∈ left ++ x :: right := by
    intro e he
    rcases List.mem_append.1 he with he | he
    · exact .inr (List.mem_append_left _ he)
    · rcases List.mem_cons.1 he with he | he
      · exact .inl he
      · exact .inr (List.mem_append_right _ (List.mem_cons_of_mem x he))
  refine ⟨fun e he => ?_, fun e he hClosed => ?_, ?_, fun l e r hEq => ?_⟩
  · rcases hOld he with rfl | he
    · exact h.start x hx
    · exact h.start e he
  · rcases hOld he with rfl | he
    · exact ⟨hBoundary, (h.start x hx).2, Nat.le_refl n⟩
    · exact h.stop e he hClosed
  · refine List.pairwise_append.2 ⟨hLeftOrder,
      List.pairwise_cons.2 ⟨fun e he => ?_, hRightOrder⟩, fun e he y hy => ?_⟩
    · have hStop := (h.stop e (by simp [he]) (hRight e he)).2.2
      exact (hxOrder e he).closedAt_left (hRight e he) hStop
    · rcases List.mem_cons.1 hy with rfl | hy
      · exact (hAcross e he x (by simp)).closedAt_right hOpen
      · exact hAcross e he y (List.mem_cons_of_mem x hy)
  -- The depth counts earlier entries, so it matters where `e` stands beside the one that is closed.
  · rcases append_cons_eq_append_cons hEq with
      ⟨m, hLeft, -⟩ | ⟨rfl, rfl, -⟩ | ⟨m, rfl, hR⟩
    · exact h.depth l e (m ++ x :: right) (by rw [hLeft]; simp)
    · intro hSome
      have hLt : x.region.start < n := by simpa [Entry.closedAt] using hSome
      show x.region.depth = _
      rw [h.depth left x right rfl (.inl hOpen)]
      refine List.countP_congr fun e he => ?_
      rw [Entry.holds_closedAt (hAcross e he x (by simp)) hOpen hLt]
    · intro hSome
      have he : e ∈ right := by simp [hR]
      have hStop := (h.stop e (by simp [he]) (hRight e he)).2.2
      rw [h.depth (left ++ x :: m) e r (by rw [hR]; simp) hSome, List.countP_append,
        List.countP_append, List.countP_cons, List.countP_cons,
        Entry.closedAt_holds hOpen (hRight e he) hStop]

/-- Empty entries may be dropped once they are closed, since nothing but empty ones lies within
them. -/
theorem dropEmpty (h : Nested text n es) :
    Nested text n (es.filter fun e => e.isOpen || e.region.start < e.region.stop) := by
  refine ⟨fun e he => h.start e (List.mem_filter.1 he).1,
    fun e he => h.stop e (List.mem_filter.1 he).1, h.inOrder.filter _,
    fun left e right hEq hSome => ?_⟩
  obtain ⟨earlier, later, rfl, rfl⟩ := exists_of_filter_eq_append_cons hEq
  rw [h.depth earlier e later rfl hSome, List.countP_filter]
  refine List.countP_congr fun o _ => ?_
  rw [Bool.and_eq_true, Entry.holds_iff]
  refine ⟨fun hHolds => ⟨hHolds, ?_⟩, And.left⟩
  obtain ⟨hStart, hOpen | ⟨hClosed, hStop⟩⟩ := hHolds
  · simp [hOpen]
  · have hLt : e.region.start < e.region.stop := by simpa [hClosed] using hSome
    have hLt' : o.region.start < o.region.stop := by omega
    simp [hLt']

/-- Entries of which none is open and none is empty are a forest. -/
theorem forest {text : String} (h : Nested text.toList n es)
    (hEnded : ∀ e ∈ es, e.isOpen = false ∧ e.region.start < e.region.stop) :
    Forest text (es.map (·.region)) := by
  refine ⟨fun r hr => ?_, fun r hr => ?_, ?_, ?_, fun i hi => ?_⟩
  · obtain ⟨e, he, rfl⟩ := List.mem_map.1 hr
    exact (hEnded e he).2
  · obtain ⟨e, he, rfl⟩ := List.mem_map.1 hr
    exact ⟨boundary_toList_iff.1 (h.start e he).1,
      boundary_toList_iff.1 (h.stop e he (hEnded e he).1).1⟩
  · exact List.pairwise_map.2 (h.inOrder.imp fun hOrder => hOrder.start_le)
  · refine List.pairwise_map.2 (h.inOrder.imp_of_mem fun {a b} ha _ hOrder => ?_)
    rcases hOrder.nested with hA | hA | ⟨-, hA⟩
    · rw [(hEnded a ha).1] at hA
      cases hA
    · exact .inl hA
    · exact .inr ⟨hOrder.start_le, hA⟩
  · rw [List.length_map] at hi
    have hSplit : es = es.take i ++ es[i] :: es.drop (i + 1) := by
      rw [List.getElem_cons_drop, List.take_append_drop]
    obtain ⟨hClosed, hLt⟩ := hEnded es[i] (List.getElem_mem hi)
    rw [List.getElem_map, h.depth _ _ _ hSplit (.inr hLt), ← List.map_take, List.countP_map]
    refine List.countP_congr fun o ho => ?_
    have hOpen := (hEnded o (List.mem_of_mem_take ho)).1
    rw [Entry.holds_iff, Function.comp_apply, decide_eq_true_iff]
    simp [hClosed, hOpen, Region.Within]

end Nested

namespace Forest

variable {text : String} {regions : List Region}

/-- A region that covers a byte lies within exactly those earlier regions that cover it too. -/
theorem depth_eq_countP_covers (h : Forest text regions) {left right : List Region} {r : Region}
    (hSplit : regions = left ++ r :: right) {p : Nat} (hp : r.covers p = true) :
    r.depth = left.countP (·.covers p) := by
  subst hSplit
  have hDepth := h.depth left.length (by simp)
  have hNested := h.nested
  have hPreorder := h.preorder
  rw [List.getElem_append_right (Nat.le_refl _)] at hDepth
  simp only [Nat.sub_self, List.getElem_cons_zero, List.take_left] at hDepth
  rw [hDepth]
  refine List.countP_congr fun o ho => ?_
  have hStart := (List.pairwise_append.1 hPreorder).2.2 o ho r (by simp)
  have hApart := (List.pairwise_append.1 hNested).2.2 o ho r (by simp)
  simp only [Region.covers, Bool.and_eq_true, decide_eq_true_eq] at hp ⊢
  simp only [Region.Within] at hApart ⊢
  omega

/-- The regions that cover a byte have the depths zero, one and so on. -/
theorem depths_covering (h : Forest text regions) (p : Nat) :
    (regions.filter (·.covers p)).map (·.depth) =
      List.range (regions.filter (·.covers p)).length := by
  suffices hPrefix : ∀ left right, regions = left ++ right → (left.filter (·.covers p)).map
      (·.depth) = List.range (left.filter (·.covers p)).length from
    hPrefix regions [] (List.append_nil _).symm
  intro left
  induction left using List.reverseRecOn with
  | nil => intro right _; rfl
  | append_singleton left r ih =>
    intro right hSplit
    rw [List.append_assoc] at hSplit
    have hLeft := ih ([r] ++ right) hSplit
    rw [List.filter_append]
    by_cases hp : r.covers p = true
    · have hSelf : [r].filter (·.covers p) = [r] := by simp [hp]
      rw [hSelf, List.map_append, hLeft, List.length_append, List.length_singleton, List.range_succ,
        List.map_singleton, h.depth_eq_countP_covers hSplit hp, List.countP_eq_length_filter]
    · have hNone : [r].filter (·.covers p) = [] := by simp [hp]
      rw [hNone, List.append_nil]
      exact hLeft

end Forest

end Highlighter
