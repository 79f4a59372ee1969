import Highlighter.Proofs.Scan.Progress
import Mathlib.Algebra.Ring.Nat

/-! Scans that hand lexemes back and still never run away. Each terminator that is found costs two
units, and each byte that the scan moves on pays five. When a mode opens, some units are set aside
for its end. A mode may be opened on credit, as long as what is found next in it pays the debt: a
tariff tells how much may be owed where, and that no terminator leads to more. -/

namespace Highlighter

open Text Pattern

namespace Machine

variable (m : Machine)

def ownStart (id : Nat) : Option String := (m.mode id).opening.map m.pattern

def ownEnd (id : Nat) : Option String := (m.mode id).closing.map m.pattern

/-- A pattern, as it is searched for among terminators, matches a lexeme. -/
def Matches (pattern : String) (lexeme : Span) : Prop :=
  ∃ program, Pattern.compile ⟨m.caseInsensitive, true⟩ (asciiClasses pattern).toList =
    .ok program ∧ program.matchFrom lexeme.start = some lexeme.stop

/-- A mode that ends on its own pattern alone comes upon a terminator. -/
def Finds (id : Nat) (c : Cursor) (found : Match) : Prop :=
  ∃ set, m.setOf (id, m.ownEnd id) = .ok set ∧ set.find? c = some found

/-- Where a scan goes on within a mode that a lexeme has opened. -/
def within (id : Nat) (lexeme : Span) : Cursor :=
  if (m.mode id).returnOpening && !(m.mode id).excludeOpening then lexeme.start else lexeme.stop

/-- Modes end on their own patterns, which are not scanned again. -/
structure EndsAlone : Prop where
  root : (m.mode root).closing = none
  mode : ∀ id, (m.mode id).closesWithParent = false ∧ (m.mode id).returnClosing = false

/-- Open modes occur within one another, and end on their own patterns. -/
def Nested : List Frame → Prop
  | [] => True
  | frame :: rest =>
    frame.mode ∈ (m.mode (rest.head?.getD .root).mode).contains ∧
      frame.closing = m.ownEnd frame.mode ∧ Nested rest

variable {m}

theorem Finds.reaches {id : Nat} {c : Cursor} {found : Match} (h : m.Finds id c found) :
    c.Reaches found.span.start ∧ found.span.start.Reaches found.span.stop := by
  obtain ⟨set, -, hFound⟩ := h
  exact TerminatorSet.reaches_find? hFound

theorem Finds.opening {id child : Nat} {c : Cursor} {found : Match} (h : m.Finds id c found)
    (hKind : found.terminator = .opening child) : child ∈ (m.mode id).contains ∧
      ∃ pattern, m.ownStart child = some pattern ∧ m.Matches pattern found.span := by
  obtain ⟨set, hSet, hFound⟩ := h
  obtain ⟨hWithin, regex, hRegex, hMatches⟩ := exists_of_find?_opening hSet hFound hKind
  exact ⟨hWithin, m.pattern regex, Option.map_eq_some_iff.2 ⟨regex, hRegex, rfl⟩, hMatches⟩

theorem Finds.closing {id : Nat} {c : Cursor} {found : Match} (h : m.Finds id c found)
    (hKind : found.terminator = .closing) :
    ∃ pattern, m.ownEnd id = some pattern ∧ m.Matches pattern found.span := by
  obtain ⟨set, hSet, hFound⟩ := h
  exact exists_of_find?_closing hSet hFound hKind

/-- What opens the first mode of a list is found wherever it matches. -/
theorem Finds.eq_of_first {id child : Nat} {others : List Nat} {c stop : Cursor} {found : Match}
    (h : m.Finds id c found) (hFirst : (m.mode id).contains = child :: others) {pattern : String}
    (hStart : m.ownStart child = some pattern) (hMatch : m.Matches pattern ⟨c, stop⟩) :
    found = ⟨.opening child, ⟨c, stop⟩⟩ := by
  obtain ⟨set, hSet, hFound⟩ := h
  obtain ⟨program, hProgram, hStop⟩ := hMatch
  obtain ⟨more, hTerminators⟩ : ∃ more,
      m.terminators id (m.ownEnd id) = (.opening child, pattern) :: more := by
    unfold ownStart at hStart
    simp only [terminators, hFirst, List.filterMap_cons]
    cases hOpening : (m.mode child).opening with
    | none => simp [hOpening] at hStart
    | some regex =>
      rw [hOpening] at hStart
      cases hStart
      exact ⟨_, rfl⟩
  have hSet : m.terminatorSet id (m.ownEnd id) = .ok set := hSet
  unfold terminatorSet at hSet
  dsimp only at hSet
  rw [hTerminators, List.mapM_cons, hProgram] at hSet
  -- The set lists the terminators in the order of the mode, so that the first one is
  -- tried before all others.
  have hHead : ∃ rest, set = (.opening child, program) :: rest := by
    generalize List.mapM (m := Except PatternError) _ more = programs at hSet
    cases programs with
    | error fault => cases hSet
    | ok rest =>
      cases hSet
      exact ⟨rest, rfl⟩
  obtain ⟨rest, rfl⟩ := hHead
  have hHere : TerminatorSet.matchAt? c ((.opening child, program) :: rest) =
      some ⟨.opening child, ⟨c, stop⟩⟩ := by
    rw [TerminatorSet.matchAt?, hStop]
  unfold TerminatorSet.find? TerminatorSet.search at hFound
  rw [hHere] at hFound
  exact (Option.some.inj hFound).symm

theorem Nested.of_append {closed kept : List Frame} (h : m.Nested (closed ++ kept)) :
    m.Nested kept := by
  induction closed with
  | nil => exact h
  | cons frame closed ih => exact ih h.2.2

namespace EndsAlone

variable (h : m.EndsAlone)
include h

theorem frameOn_closing (parent : Frame) (id : Nat) (region : Option Nat) :
    (m.frameOn parent id region).closing = m.ownEnd id := by
  have hOwn : m.terminatorEnd id parent.closing = m.ownEnd id := by
    simp [terminatorEnd, ownEnd, (h.mode id).1]
  exact hOwn

theorem top_closing {s : Scan} (hNested : m.Nested s.frames) :
    s.top.closing = m.ownEnd s.top.mode := by
  unfold Scan.top
  cases hFrames : s.frames with
  | nil =>
    have hRoot : m.ownEnd Machine.root = none := by simp [ownEnd, h.root]
    exact hRoot.symm
  | cons frame rest =>
    rw [hFrames] at hNested
    exact hNested.2.1

theorem partAt?_cases {c : Cursor} {frames closed kept : List Frame}
    (hParts : m.partAt? c frames = some (closed, kept)) :
    ∃ frame rest, frames = frame :: rest ∧
      (kept = rest ∨
        ((m.mode frame.mode).closesParent = true ∧ ∃ passed, rest = passed ++ kept)) := by
  cases frames with
  | nil => cases hParts
  | cons frame rest =>
    refine ⟨frame, rest, rfl, ?_⟩
    have hAppend := append_of_partAt? hParts
    unfold partAt? at hParts
    rw [(h.mode frame.mode).1] at hParts
    split at hParts
    · cases rest with
      | nil =>
        cases hParts
        exact .inl rfl
      | cons parent rest =>
        have hParts := Option.some.inj hParts
        unfold partClosing at hParts
        split at hParts
        · next hCloses =>
          cases hParts
          exact .inr ⟨hCloses, _, (List.cons.inj hAppend).2.symm⟩
        · cases hParts
          exact .inl rfl
    · cases hParts

end EndsAlone

end Machine

/-- What modes cost. -/
structure Tariff (m : Machine) where
  /-- What is set aside for the end of a mode when it opens. -/
  reserve : Nat → Nat
  /-- A scan in a mode may owe so much at a place. It is fresh if the last terminator has opened the
  mode. -/
  Owes : (id : Nat) → (fresh : Bool) → (place : Cursor) → (debt : Nat) → Prop
  endsAlone : m.EndsAlone
  limited : ∀ {id fresh c d}, Owes id fresh c d → d ≤ patience / 4
  settled : ∀ id c, Owes id false c 0
  opens : ∀ {id fresh c d found child}, Owes id fresh c d → m.Finds id c found →
    found.terminator = .opening child →
    ∃ d', Owes child true (m.within child found.span) d' ∧
      d + 2 + reserve child + 5 * c.offset ≤ 5 * (m.within child found.span).offset + d'
  closes : ∀ {id fresh c d found parent}, Owes id fresh c d → m.Finds id c found →
    found.terminator = .closing → id ∈ (m.mode parent).contains →
    ∃ d', Owes parent false found.span.stop d' ∧
      d + 2 + 5 * c.offset ≤ reserve id + 5 * found.span.stop.offset + d'
  /-- An end that is that of the mode around as well leaves no debt. -/
  closesParent : ∀ {id fresh c d found}, Owes id fresh c d → m.Finds id c found →
    found.terminator = .closing → (m.mode id).closesParent = true →
    d + 2 + 5 * c.offset ≤ reserve id + 5 * found.span.stop.offset
  /-- An end that belongs to no mode is paid for by a byte at least. -/
  passes : ∀ {id fresh c d found}, Owes id fresh c d → m.Finds id c found →
    found.terminator = .closing → ∀ place : Cursor, found.span.start.offset < place.offset →
    d + 2 + 5 * c.offset ≤ 5 * place.offset

namespace Tariff

variable {m : Machine} (T : Tariff m)

/-- What is set aside for the ends of open modes. -/
def reserved (frames : List Frame) : Nat := (frames.map fun frame => T.reserve frame.mode).sum

@[simp] theorem reserved_cons (frame : Frame) (rest : List Frame) :
    T.reserved (frame :: rest) = T.reserve frame.mode + T.reserved rest := rfl

theorem reserved_append (closed kept : List Frame) :
    T.reserved (closed ++ kept) = T.reserved closed + T.reserved kept := by
  simp [reserved]

/-- The terminators found so far and the ends of the open modes are paid for, but for the debt.
`count` is the number of the next terminator. -/
structure Covers (count : Nat) (s : Scan) : Prop where
  nested : m.Nested s.frames
  balance : ∃ d, T.Owes s.top.mode s.lastOpening.isSome s.place d ∧
    2 * count + T.reserved s.frames ≤ 5 * s.place.offset + 2 + d

namespace Covers

variable {T} {count : Nat} {s : Scan} {found : Match}

theorem start (text : List Char) : T.Covers 1 (.start text) where
  nested := trivial
  balance := ⟨0, T.settled _ _, Nat.le_refl _⟩

theorem finds (h : T.Covers count s) {set : TerminatorSet}
    (hSet : m.setOf (s.top.mode, s.top.closing) = .ok set)
    (hFound : set.find? s.place = some found) : m.Finds s.top.mode s.place found := by
  rw [T.endsAlone.top_closing h.nested] at hSet
  exact ⟨set, hSet, hFound⟩

theorem openMode (h : T.Covers count s) (hFinds : m.Finds s.top.mode s.place found) {id : Nat}
    (hKind : found.terminator = .opening id) :
    T.Covers (count + 1) { Scan.openMode m id found.span { s with lastOpening := none } with
      lastOpening := some found.span.start.offset } := by
  obtain ⟨d, hOwes, hBalance⟩ := h.balance
  obtain ⟨d', hOwes', hPaid⟩ := T.opens hOwes hFinds hKind
  have hFrames :
      (Scan.openMode m id found.span { s with lastOpening := none }).frames = m.frameOn s.top id
        (Scan.openMode m id found.span { s with lastOpening := none }).top.region :: s.frames := by
    simp [Scan.openMode, Scan.enter, Scan.top, Machine.frameOn]
  refine ⟨?_, d', hOwes', ?_⟩
  · show m.Nested (Scan.openMode m id found.span { s with lastOpening := none }).frames
    rw [hFrames]
    exact ⟨(hFinds.opening hKind).1, T.endsAlone.frameOn_closing _ _ _, h.nested⟩
  · show 2 * (count + 1) +
      T.reserved (Scan.openMode m id found.span { s with lastOpening := none }).frames ≤
      5 * (m.within id found.span).offset + 2 + d'
    rw [hFrames, reserved_cons]
    show 2 * (count + 1) + (T.reserve id + T.reserved s.frames) ≤ _
    omega

theorem closeModes (h : T.Covers count s) (hFinds : m.Finds s.top.mode s.place found)
    (hKind : found.terminator = .closing) {closed kept : List Frame}
    (hParts : m.partAt? found.span.start s.frames = some (closed, kept)) :
    T.Covers (count + 1)
      (Scan.closeModes m closed kept found.span { s with lastOpening := none }) := by
  obtain ⟨d, hOwes, hBalance⟩ := h.balance
  have hAppend := Machine.append_of_partAt? hParts
  have hNested : m.Nested (closed ++ kept) := by
    rw [hAppend]
    exact h.nested
  have hPlace : (Scan.closeModes m closed kept found.span { s with lastOpening := none }).place =
      found.span.stop := by
    simp [Scan.closeModes, Scan.leave, (T.endsAlone.mode _).2]
  have hClosed :
      (Scan.closeModes m closed kept found.span { s with lastOpening := none }).lastOpening =
        none := by
    simp [Scan.closeModes, Scan.leave]
  obtain ⟨frame, rest, hFrames, hKept⟩ := T.endsAlone.partAt?_cases hParts
  have hTop : s.top = frame := by rw [Scan.top, hFrames]; rfl
  rw [hTop] at hOwes hFinds
  rw [hFrames, reserved_cons] at hBalance
  refine ⟨hNested.of_append, ?_⟩
  rw [hPlace, hClosed]
  show ∃ d', T.Owes (kept.head?.getD .root).mode false found.span.stop d' ∧
    2 * (count + 1) + T.reserved kept ≤ 5 * found.span.stop.offset + 2 + d'
  -- Either the mode closes alone, or its end is that of the mode around it too and pays for both.
  rcases hKept with rfl | ⟨hCloses, passed, rfl⟩
  · have hWithin : frame.mode ∈ (m.mode (kept.head?.getD .root).mode).contains := by
      have hAll := h.nested
      rw [hFrames] at hAll
      exact hAll.1
    obtain ⟨d', hOwes', hPaid⟩ := T.closes hOwes hFinds hKind hWithin
    exact ⟨d', hOwes', by omega⟩
  · have hPaid := T.closesParent hOwes hFinds hKind hCloses
    rw [reserved_append] at hBalance
    exact ⟨0, T.settled _ _, by omega⟩

theorem moveTo (h : T.Covers count s) (hFinds : m.Finds s.top.mode s.place found)
    (hKind : found.terminator = .closing) {place : Cursor}
    (hLt : found.span.start.offset < place.offset) :
    T.Covers (count + 1) { s with lastOpening := none, place } := by
  obtain ⟨d, hOwes, hBalance⟩ := h.balance
  have hPaid := T.passes hOwes hFinds hKind place hLt
  refine ⟨h.nested, 0, T.settled _ _, ?_⟩
  show 2 * (count + 1) + T.reserved s.frames ≤ 5 * place.offset + 2 + 0
  omega

theorem step (h : T.Covers count s) {s' : Scan} (hStep : s.step m count = .goesOn s') :
    T.Covers (count + 1) s' := by
  obtain ⟨set, found, hSet, hFound, -, hTakes⟩ := Scan.exists_of_step_eq_goesOn hStep
  have hFinds := h.finds hSet hFound
  cases hTakes with
  | opens hKind => exact h.openMode hFinds hKind
  | closes hKind hMoved hParts => exact h.closeModes hFinds hKind hParts
  | passes hKind hLt => exact h.moveTo hFinds hKind hLt
  | passesNext hKind hEmpty hEnd => exact h.moveTo hFinds hKind (Cursor.offset_lt_advance hEnd)

theorem count_le (h : T.Covers count s) {found : Cursor} (hReach : s.place.Reaches found)
    (hMany : patience < count) : count ≤ found.offset * 3 := by
  obtain ⟨d, hOwes, hBalance⟩ := h.balance
  have hDebt := T.limited hOwes
  have hLe := hReach.offset_le
  simp only [patience] at hDebt hMany
  omega

end Covers

theorem covers_of_reachable {text : List Char} {count : Nat} {s : Scan}
    (h : Scan.Reachable m text count s) : T.Covers count s := by
  induction h with
  | start => exact .start text
  | next _ hStep ih => exact ih.step hStep

/-- Where modes are paid for, no scan runs away. -/
theorem ne_runaway (T : Tariff m) (t : Tokenizer m) (text : String) (p : Nat) :
    (t.tokenize text).1 ≠ .error (.runaway p) := by
  refine Tokenizer.ne_runaway_of_count_le (fun hReach _ hFound hMany => ?_) t p
  exact (T.covers_of_reachable hReach).count_le (TerminatorSet.reaches_find? hFound).1 hMany

end Tariff

end Highlighter
