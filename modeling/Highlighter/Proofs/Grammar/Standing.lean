import Highlighter.Proofs.Grammar.Cues
import Highlighter.Proofs.Text.Between
import Mathlib.Logic.Relation

/-! How a scan stands, told from the grammar alone: the modes that are open, the regions so far, and
the places in the text. `Grammar.Moves` lists what may come next. -/

namespace Highlighter

open Text Pattern

/-- How a scan stands. -/
structure Standing where
  /-- The open modes above the root, the innermost first, each with the place of its region if it
  has one. -/
  modes : List (Address × Option Nat)
  /-- All regions in the order in which they open. -/
  regions : List Region
  /-- Where the text starts that has not been emitted yet. -/
  pending : Cursor
  /-- Where the next terminator is searched from. -/
  place : Cursor
  /-- Where the last terminator started, if it opened a mode. -/
  lastOpening : Option Nat

/-- The regions after the one of a mode, if it has one, has been stopped. -/
def stopRegion (stop : Nat) (regions : List Region) (mode : Address × Option Nat) : List Region :=
  match mode.2 with
  | some region => regions.modify region fun r => { r with stop }
  | none => regions

/-- How many modes an end of the innermost one closes: those that close their parents, and one
more. -/
def Grammar.closingCount (g : Grammar) : List (Address × Option Nat) → Nat
  | [] => 0
  | [_] => 1
  | mode :: parent :: rest =>
    if (g.settingsAt mode.1).closesParent.getD false then g.closingCount (parent :: rest) + 1 else 1

namespace Standing

def start (text : List Char) : Standing := ⟨[], [], .start text, .start text, none⟩

def top (d : Standing) : Address := (d.modes.head?.map (·.1)).getD .root

def depth (d : Standing) : Nat := (d.modes.filterMap (·.2)).length

/-- The text up to `stop` is emitted, with the words in it. -/
def flush (g : Grammar) (stop : Cursor) (d : Standing) : Standing :=
  let words := g.wordsAt d.top (Span.mk d.pending stop).chars
  { d with regions := d.regions ++ words.map (·.regionIn d.pending.offset d.depth),
           pending := stop }

/-- A mode opens by a lexeme from the place at hand to `stop`. -/
def enter (g : Grammar) (a : Address) (stop : Cursor) (d : Standing) : Standing :=
  let s := g.settingsAt a
  let flushed := d.flush g (if s.excludeOpening.getD false then stop else d.place)
  { modes := (a, s.category.map fun _ => flushed.regions.length) :: d.modes
    regions := flushed.regions ++
      (s.category.map (⟨·, flushed.pending.offset, flushed.pending.offset, d.depth⟩)).toList
    pending := flushed.pending
    place := if s.returnOpening.getD false && !s.excludeOpening.getD false then d.place else stop
    lastOpening := some d.place.offset }

/-- The innermost mode closes by a lexeme from the place at hand to `stop`. -/
def leave (g : Grammar) (stop : Cursor) (d : Standing) : Standing :=
  let s := g.settingsAt d.top
  let flushed :=
    d.flush g (if s.returnClosing.getD false || s.excludeClosing.getD false then d.place else stop)
  { modes := d.modes.drop (g.closingCount d.modes)
    regions := (d.modes.take (g.closingCount d.modes)).foldl
      (stopRegion flushed.pending.offset) flushed.regions
    pending := flushed.pending
    place := if s.returnClosing.getD false then d.place else stop
    lastOpening := none }

/-- The regions that are found if the text ends here. -/
def found (g : Grammar) (d : Standing) : List Region :=
  let flushed := d.flush g d.pending.toEnd
  (d.modes.foldl (stopRegion flushed.pending.offset) flushed.regions).filter fun r =>
    r.start < r.stop

end Standing

/-- What may come next where a scan stands, unless it is illegal. -/
inductive Grammar.Moves (g : Grammar) (d : Standing) : Standing → Prop
  | opens {a : Address} {stop : Cursor} (hCue : g.cueAt? d.top d.place = some (.opens a, stop)) :
    Moves g d (d.enter g a stop)
  /-- A mode does not end right where it has opened. -/
  | closes {stop : Cursor} (hCue : g.cueAt? d.top d.place = some (.closes, stop))
    (hMoved : d.lastOpening ≠ some d.place.offset ∨ d.place.offset < stop.offset) :
    Moves g d (d.leave g stop)
  | skips (hCue : g.cueAt? d.top d.place = none) (hEnd : d.place.atEnd = false) :
    Moves g d { d with place := d.place.advance }

/-- A scan goes on from one standing to another. -/
def Grammar.Course (g : Grammar) : Standing → Standing → Prop := Relation.ReflTransGen g.Moves

namespace Grammar

variable {g : Grammar} {a : Address} {c stop : Cursor}

theorem exists_of_cueAt? {cue : Cue} (h : g.cueAt? a c = some (cue, stop)) : ∃ pattern,
    (cue, pattern) ∈ g.cues a ∧ stop? g.caseInsensitive pattern c = some stop := by
  obtain ⟨⟨cue', pattern⟩, hMem, hStop⟩ := List.exists_of_findSome?_eq_some h
  obtain ⟨stop', hStop, hEq⟩ := Option.map_eq_some_iff.1 hStop
  cases hEq
  exact ⟨pattern, hMem, hStop⟩

/-- A mode that opens is one of the modes within the mode at hand. -/
theorem mem_childrenAt_of_cueAt? {child : Address} (h : g.cueAt? a c = some (.opens child, stop)) :
    child ∈ g.childrenAt a := by
  obtain ⟨pattern, hMem, -⟩ := exists_of_cueAt? h
  simp only [cues, List.mem_append, List.mem_filterMap, Option.mem_toList,
    Option.map_eq_some_iff] at hMem
  rcases hMem with (⟨child', hChild, _, -, hEq⟩ | ⟨_, -, hEq⟩) | ⟨_, -, hEq⟩
  · cases hEq
    exact hChild
  · cases hEq
  · cases hEq

theorem closingAt_of_cueAt? (h : g.cueAt? a c = some (.closes, stop)) :
    ∃ pattern, g.closingAt a = some pattern ∧
      stop? g.caseInsensitive pattern c = some stop := by
  obtain ⟨pattern, hMem, hStop⟩ := exists_of_cueAt? h
  simp only [cues, List.mem_append, List.mem_filterMap, Option.mem_toList,
    Option.map_eq_some_iff] at hMem
  rcases hMem with (⟨_, _, _, -, hEq⟩ | ⟨_, hClosing, hEq⟩) | ⟨_, -, hEq⟩
  · cases hEq
  · cases hEq
    exact ⟨pattern, hClosing, hStop⟩
  · cases hEq

variable {mode parent : Address × Option Nat}

theorem closingCount_of_stays (h : (g.settingsAt mode.1).closesParent.getD false = false)
    (rest : List (Address × Option Nat)) : g.closingCount (mode :: rest) = 1 := by
  cases rest with
  | nil => rfl
  | cons parent rest => rw [closingCount, if_neg (Bool.not_eq_true _ ▸ h)]

theorem closingCount_of_closes (h : (g.settingsAt mode.1).closesParent.getD false = true)
    (hParent : (g.settingsAt parent.1).closesParent.getD false = false)
    (rest : List (Address × Option Nat)) : g.closingCount (mode :: parent :: rest) = 2 := by
  rw [closingCount, if_pos h, closingCount_of_stays hParent]

end Grammar

namespace Standing

variable {g : Grammar}

/-- In a mode without words, text is just passed over. -/
theorem flush_of_wordless (d : Standing) {s : ModeSettings} (hSettings : g.settingsAt d.top = s)
    (hWordless : s.keywordTable = none) (stop : Cursor) :
    d.flush g stop = { d with pending := stop } := by
  subst hSettings
  simp [flush, g.wordsAt_eq_nil hWordless]

theorem flush_between (d : Standing) {left text right : List Char} {words : List Hit}
    (hPending : d.pending = .between left (text ++ right)) (hWords : g.wordsAt d.top text = words) :
    d.flush g (.between (left ++ text) right) =
      { d with
        regions := d.regions ++ words.map (·.regionIn (byteLength left) d.depth)
        pending := .between (left ++ text) right } := by
  rw [flush, hPending, Cursor.chars_between, hWords]
  rfl

theorem flush_pending (g : Grammar) (d : Standing) : d.flush g d.pending = d := by
  have hNil : (Span.mk d.pending d.pending).chars = [] := Span.chars_eq_nil (Nat.le_refl _)
  simp [flush, hNil, g.wordsAt_nil]

/-- What opening a mode leads to, by its settings and what is emitted before it. -/
theorem enter_eq (d : Standing) (stop : Cursor) {a : Address} {s : ModeSettings}
    {flushed : Standing} (hSettings : g.settingsAt a = s)
    (hFlush : d.flush g (if s.excludeOpening.getD false then stop else d.place) = flushed) :
    d.enter g a stop =
      { modes := (a, s.category.map fun _ => flushed.regions.length) :: d.modes
        regions := flushed.regions ++
          (s.category.map
            (⟨·, flushed.pending.offset, flushed.pending.offset, d.depth⟩)).toList
        pending := flushed.pending
        place := if s.returnOpening.getD false && !s.excludeOpening.getD false then
          d.place else stop
        lastOpening := some d.place.offset } := by
  subst hSettings hFlush
  rfl

/-- What closing modes leads to, by the settings of the innermost one and what is emitted before. -/
theorem leave_eq (d : Standing) (stop : Cursor) {s : ModeSettings} {flushed : Standing} {n : Nat}
    (hSettings : g.settingsAt d.top = s) (hCount : g.closingCount d.modes = n)
    (hFlush : d.flush g (if s.returnClosing.getD false || s.excludeClosing.getD false then d.place
      else stop) = flushed) :
    d.leave g stop =
      { modes := d.modes.drop n
        regions := (d.modes.take n).foldl (stopRegion flushed.pending.offset) flushed.regions
        pending := flushed.pending
        place := if s.returnClosing.getD false then d.place else stop
        lastOpening := none } := by
  subst hSettings hCount hFlush
  rfl

theorem leave_alone (d : Standing) (stop : Cursor) {s : ModeSettings} {flushed : Standing}
    {mode : Address × Option Nat} {rest : List (Address × Option Nat)}
    (hModes : d.modes = mode :: rest) (hSettings : g.settingsAt mode.1 = s)
    (hStays : s.closesParent.getD false = false)
    (hFlush : d.flush g (if s.returnClosing.getD false || s.excludeClosing.getD false then d.place
      else stop) = flushed) :
    d.leave g stop =
      { modes := rest
        regions := stopRegion flushed.pending.offset flushed.regions mode
        pending := flushed.pending
        place := if s.returnClosing.getD false then d.place else stop
        lastOpening := none } := by
  have hTop : g.settingsAt d.top = s := by rw [top, hModes, ← hSettings]; rfl
  have hCount : g.closingCount d.modes = 1 := by
    rw [hModes]
    exact Grammar.closingCount_of_stays (hSettings ▸ hStays) rest
  rw [leave_eq d stop hTop hCount hFlush, hModes]
  rfl

/-- What is found at the end of a text, by what is emitted last. -/
theorem found_eq (d : Standing) {flushed : Standing}
    (hFlush : d.flush g d.pending.toEnd = flushed) :
    d.found g = (d.modes.foldl (stopRegion flushed.pending.offset) flushed.regions).filter
      fun r => r.start < r.stop := by
  subst hFlush
  rfl

theorem found_of_closed (g : Grammar) (text : List Char) (regions : List Region) (place : Cursor)
    (lastOpening : Option Nat) :
    found g ⟨[], regions, .between text [], place, lastOpening⟩ =
      regions.filter fun r => r.start < r.stop := by
  have hEnd : (Cursor.between text []).toEnd = .between text [] := by
    rw [Cursor.toEnd_between, List.append_nil]
  let d : Standing := ⟨[], regions, .between text [], place, lastOpening⟩
  have hFlush : d.flush g d.pending.toEnd = d := by
    rw [hEnd]
    exact flush_pending g d
  rw [found_eq d hFlush]
  rfl

/-- The region of a mode stands behind those that were there when it opened. -/
theorem stopRegion_append (stop : Nat) (regions later : List Region) (r : Region) (a : Address) :
    stopRegion stop (regions ++ r :: later) (a, some regions.length) =
      regions ++ { r with stop } :: later :=
  modify_middle _ regions later r

end Standing

namespace Grammar

variable {g : Grammar}

theorem course_opens {d d' : Standing} {a : Address} {stop : Cursor}
    (hCue : g.cueAt? d.top d.place = some (.opens a, stop)) (hEnter : d.enter g a stop = d') :
    g.Course d d' :=
  hEnter ▸ .single (.opens hCue)

theorem course_closes {d d' : Standing} {stop : Cursor}
    (hCue : g.cueAt? d.top d.place = some (.closes, stop))
    (hMoved : d.lastOpening ≠ some d.place.offset ∨ d.place.offset < stop.offset)
    (hLeave : d.leave g stop = d') : g.Course d d' :=
  hLeave ▸ .single (.closes hCue hMoved)

theorem course_start {a : Address} {text : List Char} {stop : Cursor} {s : ModeSettings}
    {category : Category} (hCue : g.cueAt? .root (.between [] text) = some (.opens a, stop))
    (hSettings : g.settingsAt a = s) (hCategory : s.category = some category)
    (hExclude : s.excludeOpening.getD false = false) :
    g.Course (.start text) ⟨[(a, some 0)], [⟨category, 0, 0, 0⟩], .between [] text,
      if s.returnOpening.getD false then .between [] text else stop, some 0⟩ := by
  let d : Standing := .start text
  have hFlush : d.flush g (if s.excludeOpening.getD false then stop else d.place) = d := by
    rw [hExclude]
    exact Standing.flush_pending g d
  have hEnter : d.enter g a stop = ⟨[(a, some 0)], [⟨category, 0, 0, 0⟩], .between [] text,
      if s.returnOpening.getD false then .between [] text else stop, some 0⟩ := by
    rw [Standing.enter_eq d stop hSettings hFlush, hCategory, hExclude, Bool.not_false,
      Bool.and_true]
    rfl
  exact course_opens hCue hEnter

section

variable (d : Standing) {left right : List Char}

/-- Where nothing comes, the next character is passed over. -/
theorem course_skip {x : Char} (hPlace : d.place = .between left (x :: right))
    (hCue : g.cueAt? d.top (.between left (x :: right)) = none) :
    g.Course d { d with place := .between (left ++ [x]) right } := by
  rw [← Cursor.advance_between, ← hPlace]
  rw [← hPlace] at hCue
  exact .single (.skips hCue (hPlace ▸ rfl))

/-- So are all characters that no pattern begins with. -/
theorem course_pass {passed : List Char} (hPlace : d.place = .between left (passed ++ right))
    (hPassed : ∀ x ∈ passed,
      ((g.cues d.top).all fun entry => !begins g.caseInsensitive entry.2 x) = true) :
    g.Course d { d with place := .between (left ++ passed) right } := by
  induction passed generalizing d left with
  | nil =>
    rw [List.append_nil, ← List.nil_append right, ← hPlace]
    exact .refl
  | cons x passed ih =>
    obtain ⟨hHead, hRest⟩ := List.forall_mem_cons.1 hPassed
    have hSkip := course_skip d hPlace (cueAt?_eq_none (stop?_eq_none_of_all rfl hHead))
    have hCourse := ih { d with place := .between (left ++ [x]) (passed ++ right) } rfl hRest
    rw [List.append_assoc, List.singleton_append] at hCourse
    exact hSkip.trans hCourse

end

end Grammar

end Highlighter
