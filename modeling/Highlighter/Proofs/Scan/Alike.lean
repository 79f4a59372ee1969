import Highlighter.Proofs.Scan.Loops
import Mathlib.Data.List.Forall2

/-! Machines that differ only in the places of their modes. A relation between the places of two
machines makes them alike if related modes say the same and the modes within them are related
one by one. Then each step of a scan by one machine is that of a scan by the other, and both
find the same in any text. -/

namespace Highlighter

open Text Pattern

/-- Two modes of two machines say the same. Patterns and keywords are compared as they stand in the
tables, and the modes within them are related. -/
structure Mode.Alike (m m' : Machine) (r : Nat → Nat → Prop) (mode mode' : Mode) : Prop where
  category : mode.category = mode'.category
  opening : mode.opening.map (m.regexes[·]?) = mode'.opening.map (m'.regexes[·]?)
  closing : mode.closing.map (m.regexes[·]?) = mode'.closing.map (m'.regexes[·]?)
  illegal : mode.illegal.map (m.regexes[·]?) = mode'.illegal.map (m'.regexes[·]?)
  keywords : mode.keywords.map (m.keywordSets[·]?) = mode'.keywords.map (m'.keywordSets[·]?)
  relevance : mode.relevance = mode'.relevance
  returnOpening : mode.returnOpening = mode'.returnOpening
  excludeOpening : mode.excludeOpening = mode'.excludeOpening
  returnClosing : mode.returnClosing = mode'.returnClosing
  excludeClosing : mode.excludeClosing = mode'.excludeClosing
  closesParent : mode.closesParent = mode'.closesParent
  closesWithParent : mode.closesWithParent = mode'.closesWithParent
  contains : List.Forall₂ r mode.contains mode'.contains

/-- Two machines are alike but for the places of their modes. -/
structure Machine.Alike (m m' : Machine) (r : Nat → Nat → Prop) : Prop where
  caseInsensitive : m.caseInsensitive = m'.caseInsensitive
  root : r root root
  modes : ∀ id id', r id id' → (m.mode id).Alike m m' r (m'.mode id')

/-- Two terminators open related modes, or are of the same kind. -/
inductive Terminator.Alike (r : Nat → Nat → Prop) : Terminator → Terminator → Prop
  | opening {id id' : Nat} (h : r id id') : Alike r (.opening id) (.opening id')
  | closing : Alike r .closing .closing
  | illegal : Alike r .illegal .illegal

/-- Two open modes are related and have the same end and region. -/
structure Frame.Alike (r : Nat → Nat → Prop) (frame frame' : Frame) : Prop where
  mode : r frame.mode frame'.mode
  closing : frame.closing = frame'.closing
  region : frame.region = frame'.region

/-- Two scans have found the same and have related modes open. -/
structure Scan.Alike (r : Nat → Nat → Prop) (s s' : Scan) : Prop where
  frames : List.Forall₂ (Frame.Alike r) s.frames s'.frames
  output : s.output = s'.output
  pending : s.pending = s'.pending
  place : s.place = s'.place
  lastOpening : s.lastOpening = s'.lastOpening

/-- Two steps end alike. -/
inductive Outcome.Alike (r : Nat → Nat → Prop) : Outcome → Outcome → Prop
  | goesOn {s s' : Scan} (h : s.Alike r s') : Alike r (.goesOn s) (.goesOn s')
  | ends {s s' : Scan} (h : s.Alike r s') : Alike r (.ends s) (.ends s')
  | fails (e : TokenizeError) : Alike r (.fails e) (.fails e)

/-- Two computations give related results, or fail in the same way. -/
inductive SameResult {ε α β : Type} (rel : α → β → Prop) :
    Except ε α → Except ε β → Prop
  | error (e : ε) : SameResult rel (.error e) (.error e)
  | ok {a : α} {b : β} (h : rel a b) : SameResult rel (.ok a) (.ok b)

theorem SameResult.mapError {ε ε' α β : Type} {rel : α → β → Prop} {x : Except ε α}
    {y : Except ε β} (h : SameResult rel x y) (f : ε → ε') :
    SameResult rel (x.mapError f) (y.mapError f) := by
  cases h with
  | error e => exact .error (f e)
  | ok h => exact .ok h

theorem SameResult.mapM {ε α α' β β' : Type} {rel : α → α' → Prop}
    {rel' : β → β' → Prop} {f : α → Except ε β} {f' : α' → Except ε β'}
    (h : ∀ a a', rel a a' → SameResult rel' (f a) (f' a')) {l : List α} {l' : List α'}
    (hl : List.Forall₂ rel l l') : SameResult (List.Forall₂ rel') (l.mapM f) (l'.mapM f') := by
  induction hl with
  | nil => exact .ok .nil
  | @cons a a' l l' hFirst _ ih =>
    have hHead := h a a' hFirst
    rw [List.mapM_cons, List.mapM_cons]
    generalize f a = x, f' a' = x' at hHead
    generalize l.mapM f = y, l'.mapM f' = y' at ih
    cases hHead with
    | error e => exact .error e
    | ok hb =>
      cases ih with
      | error e => exact .error e
      | ok hbs => exact .ok (.cons hb hbs)

variable {m m' : Machine} {r : Nat → Nat → Prop} {id id' : Nat}

namespace Machine

theorem map_pattern_eq {place place' : Option Nat}
    (h : place.map (m.regexes[·]?) = place'.map (m'.regexes[·]?)) :
    place.map m.pattern = place'.map m'.pattern := by
  have hPattern := congrArg (Option.map fun o : Option Regex => (o.map (·.pattern)).getD "") h
  rwa [Option.map_map, Option.map_map] at hPattern

theorem bind_eq_of_map_eq {α : Type} {table table' : Array α} {place place' : Option Nat}
    (h : place.map (table[·]?) = place'.map (table'[·]?)) :
    place.bind (table[·]?) = place'.bind (table'[·]?) := by
  cases place with
  | none =>
    cases place' with
    | none => rfl
    | some i' => cases h
  | some i =>
    cases place' with
    | none => cases h
    | some i' => exact Option.some.inj h

namespace Alike

theorem terminatorEnd (h : m.Alike m' r) (hr : r id id') (parent : Option String) :
    m.terminatorEnd id parent = m'.terminatorEnd id' parent := by
  have hMode := h.modes id id' hr
  unfold Machine.terminatorEnd
  dsimp only
  rw [hMode.closesWithParent, map_pattern_eq hMode.closing]

theorem hits (h : m.Alike m' r) (hr : r id id') (text : List Char) :
    m.hits id text = m'.hits id' text := by
  unfold Machine.hits
  rw [bind_eq_of_map_eq (h.modes id id' hr).keywords]

theorem closesAt (h : m.Alike m' r) (hr : r id id') (c : Cursor) :
    m.closesAt id c = m'.closesAt id' c := by
  unfold Machine.closesAt
  rw [bind_eq_of_map_eq (h.modes id id' hr).closing]

/-! ### Terminators -/

/-- Two terminators are alike and have the same pattern or program. -/
def EntryAlike {α : Type} (r : Nat → Nat → Prop) (t t' : Terminator × α) : Prop :=
  t.1.Alike r t'.1 ∧ t.2 = t'.2

theorem rel_map_of_map_eq {o o' : Option Nat} {f f' : Nat → String} {t t' : Terminator}
    (ht : t.Alike r t') (h : o.map f = o'.map f') :
    Option.Rel (EntryAlike r) (o.map fun i => (t, f i)) (o'.map fun i => (t', f' i)) := by
  cases o with
  | none =>
    cases o' with
    | none => exact .none
    | some i' => cases h
  | some i =>
    cases o' with
    | none => cases h
    | some i' => exact .some ⟨ht, Option.some.inj h⟩

theorem forall₂_toList {α β : Type} {rel : α → β → Prop} {o : Option α} {o' : Option β}
    (h : Option.Rel rel o o') : List.Forall₂ rel o.toList o'.toList := by
  cases h with
  | none => exact .nil
  | some h => exact .cons h .nil

theorem terminators (h : m.Alike m' r) (hr : r id id') (closing : Option String) :
    List.Forall₂ (EntryAlike r) (m.terminators id closing) (m'.terminators id' closing) := by
  have hMode := h.modes id id' hr
  have hClosing : Option.Rel (EntryAlike r) (closing.map (Terminator.closing, ·))
      (closing.map (Terminator.closing, ·)) := by
    cases closing with
    | none => exact .none
    | some pattern => exact .some ⟨.closing, rfl⟩
  refine List.rel_append (List.rel_append (List.rel_filterMap ?_ hMode.contains) ?_) ?_
  · intro child child' hChild
    exact rel_map_of_map_eq (.opening hChild) (map_pattern_eq (h.modes child child' hChild).opening)
  · exact forall₂_toList hClosing
  · exact forall₂_toList (rel_map_of_map_eq .illegal (map_pattern_eq hMode.illegal))

theorem setOf (h : m.Alike m' r) (hr : r id id') (closing : Option String) :
    SameResult (List.Forall₂ (EntryAlike r)) (m.setOf (id, closing))
      (m'.setOf (id', closing)) := by
  have hTerminators := h.terminators hr closing
  unfold Machine.setOf Machine.terminatorSet
  dsimp only
  rw [← h.caseInsensitive, ← hTerminators.length_eq]
  refine SameResult.mapError (SameResult.mapM (fun t t' hEntry => ?_) hTerminators) _
  rw [← hEntry.2]
  cases Pattern.compile ⟨m.caseInsensitive, true⟩ (asciiClasses t.2).toList with
  | error e => exact .error e
  | ok program => exact .ok ⟨hEntry.1, rfl⟩

end Alike

end Machine

namespace TerminatorSet

open Machine.Alike

/-- Two matches are of like terminators and lie at the same place. -/
def MatchAlike (r : Nat → Nat → Prop) (found found' : Match) : Prop :=
  found.terminator.Alike r found'.terminator ∧ found.span = found'.span

variable {set set' : TerminatorSet}

theorem rel_matchAt? (h : List.Forall₂ (EntryAlike r) set set') (c : Cursor) :
    Option.Rel (MatchAlike r) (matchAt? c set) (matchAt? c set') := by
  induction h with
  | nil => exact .none
  | @cons entry entry' set set' hEntry _ ih =>
    simp only [matchAt?, ← hEntry.2]
    cases entry.2.matchFrom c with
    | none => exact ih
    | some stop => exact .some ⟨hEntry.1, rfl⟩

theorem rel_search (h : List.Forall₂ (EntryAlike r) set set') (rest : List Char) (c : Cursor) :
    Option.Rel (MatchAlike r) (set.search rest c) (set'.search rest c) := by
  induction rest generalizing c with
  | nil =>
    have hHere := rel_matchAt? h c
    unfold search
    generalize matchAt? c set = found, matchAt? c set' = found' at hHere ⊢
    cases hHere with
    | none => exact .none
    | some hFound => exact .some hFound
  | cons x rest ih =>
    have hHere := rel_matchAt? h c
    unfold search
    generalize matchAt? c set = found, matchAt? c set' = found' at hHere ⊢
    cases hHere with
    | none => exact ih _
    | some hFound => exact .some hFound

end TerminatorSet

/-! ### Frames -/

namespace Machine.Alike

variable {frame frame' : Frame} {frames frames' : List Frame}

/-- Two lists of frames are parted alike. -/
def PartsAlike (r : Nat → Nat → Prop) (parts parts' : List Frame × List Frame) : Prop :=
  List.Forall₂ (Frame.Alike r) parts.1 parts'.1 ∧
    List.Forall₂ (Frame.Alike r) parts.2 parts'.2

theorem frameOn (h : m.Alike m' r) (hFrame : frame.Alike r frame') (hr : r id id')
    (region : Option Nat) : (m.frameOn frame id region).Alike r (m'.frameOn frame' id' region) := by
  refine ⟨hr, ?_, rfl⟩
  show m.terminatorEnd id frame.closing = m'.terminatorEnd id' frame'.closing
  rw [h.terminatorEnd hr, hFrame.closing]

theorem partClosing (h : m.Alike m' r) (hFrames : List.Forall₂ (Frame.Alike r) frames frames') :
    PartsAlike r (m.partClosing frames) (m'.partClosing frames') := by
  induction hFrames with
  | nil => exact ⟨.nil, .nil⟩
  | @cons frame frame' rest rest' hFrame hRest ih =>
    cases hRest with
    | nil => exact ⟨.cons hFrame .nil, .nil⟩
    | cons hParent hRest =>
      unfold Machine.partClosing
      rw [(h.modes _ _ hFrame.mode).closesParent]
      split
      · exact ⟨.cons hFrame ih.1, ih.2⟩
      · exact ⟨.cons hFrame .nil, .cons hParent hRest⟩

theorem partAt? (h : m.Alike m' r) (c : Cursor)
    (hFrames : List.Forall₂ (Frame.Alike r) frames frames') :
    Option.Rel (PartsAlike r) (m.partAt? c frames) (m'.partAt? c frames') := by
  induction hFrames with
  | nil => exact .none
  | @cons frame frame' rest rest' hFrame hRest ih =>
    unfold Machine.partAt?
    rw [h.closesAt hFrame.mode, (h.modes _ _ hFrame.mode).closesWithParent]
    split
    · exact .some (h.partClosing (.cons hFrame hRest))
    · split
      · generalize m.partAt? c rest = parts, m'.partAt? c rest' = parts' at ih ⊢
        cases ih with
        | none => exact .none
        | some hParts => exact .some ⟨.cons hFrame hParts.1, hParts.2⟩
      · exact .none

theorem closeFrame (hFrame : frame.Alike r frame') (out : Output) :
    out.closeFrame frame = out.closeFrame frame' := by
  unfold Output.closeFrame
  rw [hFrame.region]

theorem closeFrames (h : m.Alike m' r) (hFrames : List.Forall₂ (Frame.Alike r) frames frames')
    (out : Output) : Output.closeFrames m frames out = .closeFrames m' frames' out := by
  induction hFrames generalizing out with
  | nil => rfl
  | cons hFrame _ ih =>
    unfold Output.closeFrames at ih ⊢
    rw [List.foldl_cons, List.foldl_cons, closeFrame hFrame,
      (h.modes _ _ hFrame.mode).relevance, ih]

theorem closeEach (hFrames : List.Forall₂ (Frame.Alike r) frames frames') (out : Output) :
    frames.foldl Output.closeFrame out = frames'.foldl Output.closeFrame out := by
  induction hFrames generalizing out with
  | nil => rfl
  | cons hFrame _ ih => rw [List.foldl_cons, List.foldl_cons, closeFrame hFrame, ih]

end Machine.Alike

/-! ### Scans -/

namespace Scan.Alike

variable {s s' : Scan} {found : Span}

theorem start (text : List Char) : Scan.Alike r (.start text) (.start text) :=
  ⟨.nil, rfl, rfl, rfl, rfl⟩

theorem top (hs : s.Alike r s') (h : m.Alike m' r) : s.top.Alike r s'.top := by
  have hFrames := hs.frames
  unfold Scan.top
  generalize s.frames = frames, s'.frames = frames' at hFrames ⊢
  cases hFrames with
  | nil => exact ⟨h.root, rfl, rfl⟩
  | cons hFrame _ => exact hFrame

theorem flush (hs : s.Alike r s') (h : m.Alike m' r) (hr : r id id') (stop : Cursor) :
    (s.flush m id stop).Alike r (s'.flush m' id' stop) := by
  unfold Scan.flush
  rw [← hs.pending, ← hs.output, h.hits hr]
  split
  · exact hs
  · exact ⟨hs.frames, rfl, rfl, hs.place, hs.lastOpening⟩

theorem openMode (hs : s.Alike r s') (h : m.Alike m' r) (hr : r id id') (found : Span) :
    (s.openMode m id found).Alike r (s'.openMode m' id' found) := by
  have hMode := h.modes id id' hr
  have hTop := hs.top h
  unfold Scan.openMode Scan.enter
  dsimp only
  rw [← hMode.category, ← hMode.excludeOpening, ← hMode.returnOpening]
  have hFlush := hs.flush h hTop.mode
    (if (m.mode id).excludeOpening = true then found.stop else found.start)
  rw [← hFlush.output]
  exact ⟨.cons (h.frameOn hTop hr _) hFlush.frames, rfl, hFlush.pending, rfl,
    hFlush.lastOpening⟩

theorem closeModes (hs : s.Alike r s') (h : m.Alike m' r) {closed closed' kept kept' : List Frame}
    (hClosed : List.Forall₂ (Frame.Alike r) closed closed')
    (hKept : List.Forall₂ (Frame.Alike r) kept kept') (found : Span) :
    (s.closeModes m closed kept found).Alike r (s'.closeModes m' closed' kept' found) := by
  have hTop := (hs.top h).mode
  have hMode := h.modes _ _ hTop
  unfold Scan.closeModes Scan.leave
  dsimp only
  rw [← hMode.returnClosing, ← hMode.excludeClosing]
  have hFlush := hs.flush h hTop
    (if ((m.mode s.top.mode).returnClosing || (m.mode s.top.mode).excludeClosing) = true
      then found.start else found.stop)
  rw [← hFlush.output, h.closeFrames hClosed]
  exact ⟨hKept, rfl, hFlush.pending, rfl, hFlush.lastOpening⟩

theorem pass (hs : s.Alike r s') (found : Span) : (s.pass found).Alike r (s'.pass found) := by
  unfold Scan.pass
  split
  · exact .goesOn ⟨hs.frames, hs.output, hs.pending, rfl, hs.lastOpening⟩
  · split
    · exact .ends hs
    · exact .goesOn ⟨hs.frames, hs.output, hs.pending, rfl, hs.lastOpening⟩

theorem close (hs : s.Alike r s') (h : m.Alike m' r) (found : Span) (lastOpening : Option Nat) :
    (s.close m found lastOpening).Alike r (s'.close m' found lastOpening) := by
  have hParts := h.partAt? found.start hs.frames
  unfold Scan.close
  split
  · exact hs.pass found
  · generalize m.partAt? found.start s.frames = parts, m'.partAt? found.start s'.frames = parts'
      at hParts ⊢
    cases hParts with
    | none => exact hs.pass found
    | some hParts => exact .goesOn (hs.closeModes h hParts.1 hParts.2 found)

theorem take (hs : s.Alike r s') (h : m.Alike m' r) (count : Nat) {found found' : Match}
    (hFound : TerminatorSet.MatchAlike r found found') :
    (s.take m count found).Alike r (s'.take m' count found') := by
  obtain ⟨hKind, hSpan⟩ := hFound
  have hForgot : Scan.Alike r { s with lastOpening := none } { s' with lastOpening := none } :=
    ⟨hs.frames, hs.output, hs.pending, hs.place, rfl⟩
  unfold Scan.take
  dsimp only
  rw [← hSpan, ← hs.lastOpening]
  split
  · exact .fails _
  · generalize found.terminator = kind, found'.terminator = kind' at hKind ⊢
    cases hKind with
    | opening hr =>
      have hOpened := hForgot.openMode h hr found.span
      exact .goesOn ⟨hOpened.frames, hOpened.output, hOpened.pending, hOpened.place, rfl⟩
    | closing => exact hForgot.close h found.span s.lastOpening
    | illegal => exact .fails _

theorem step (hs : s.Alike r s') (h : m.Alike m' r) (count : Nat) :
    (s.step m count).Alike r (s'.step m' count) := by
  have hTop := hs.top h
  have hSet := h.setOf hTop.mode s.top.closing
  unfold Scan.step
  rw [← hTop.closing]
  generalize m.setOf (s.top.mode, s.top.closing) = set, m'.setOf (s'.top.mode, s.top.closing) = set'
    at hSet ⊢
  cases hSet with
  | error e => exact .fails e
  | ok hSet =>
    rename_i set set'
    have hFound := TerminatorSet.rel_search hSet s.place.after s.place
    dsimp only [TerminatorSet.find?]
    rw [← hs.place]
    generalize set.search s.place.after s.place = found, set'.search s.place.after s.place = found'
      at hFound ⊢
    cases hFound with
    | none => exact .ends hs
    | some hFound => exact hs.take h count hFound

theorem finish (hs : s.Alike r s') (h : m.Alike m' r) : s.finish m = s'.finish m' := by
  have hFlush := hs.flush h (hs.top h).mode s.pending.toEnd
  unfold Scan.finish
  dsimp only
  rw [← hs.pending, Machine.Alike.closeEach hFlush.frames, hFlush.output]

end Scan.Alike

namespace Tokenizer

theorem run_alike (h : m.Alike m' r) (fuel count : Nat) {s s' : Scan} (hs : s.Alike r s')
    (t : Tokenizer m) (t' : Tokenizer m') : (run fuel count s t).1 = (run fuel count s' t').1 := by
  have hStart : (count, s).1 = (count, s').1 ∧ (count, s).2.Alike r (count, s').2 := ⟨rfl, hs⟩
  refine run_eq_of_related (R := fun st st' => st.1 = st'.1 ∧ st.2.Alike r st'.2)
    (fun h => h.2.place) (fun {st st'} hBoth => ?_) fuel hStart t t'
  obtain ⟨count, s⟩ := st
  obtain ⟨_, s'⟩ := st'
  obtain ⟨rfl, hs⟩ := hBoth
  have hStep := hs.step h count
  dsimp only [Scan.turn]
  generalize s.step m count = outcome, s'.step m' count = outcome' at hStep ⊢
  cases hStep with
  | goesOn hs => exact .inl ⟨rfl, hs⟩
  | ends hs => exact .inr (congrArg Except.ok (hs.finish h))
  | fails e => exact .inr rfl

/-- Like machines find the same in any text. -/
theorem tokenize_alike (h : m.Alike m' r) (t : Tokenizer m) (t' : Tokenizer m') (text : String) :
    (t.tokenize text).1 = (t'.tokenize text).1 :=
  run_alike h _ 1 (.start text.toList) t t'

end Tokenizer

end Highlighter
