import Highlighter.Proofs.Language.Co.Parameters
import Highlighter.Proofs.Pattern.OpeningWords

/-! Functions that take functions, to any depth. How a nested type is scanned is told by induction
on its depth, from the moves that lead from one level of parameters to the next. -/

namespace Highlighter.Co

open Idiom Pattern Text

/-- The type of functions that take a function, which takes a function, and so on. -/
def nestedType : Nat → List Char
  | 0 => ['i', 'n', 't']
  | n + 1 => ['f', 'u', 'n', '('] ++ (nestedType n ++ [')', ' ', 'i', 'n', 't'])

/-- A function with a parameter of such a type. -/
def nestedFunction (n : Nat) : List Char :=
  ['f', 'u', 'n', ' ', 'f', '(', 'c', 'b', ' '] ++ (nestedType n ++ [')'])

/-! ### Nested types -/

/-- The regions of a nested type that starts at a place, within so many others. -/
def nestedRegions : (n start depth : Nat) → List Region
  | 0, start, depth => [⟨.type, start, start + 3, depth⟩]
  | n + 1, start, depth =>
    let stop := start + byteLength (nestedType n) + 5
    ⟨.funtype, start, stop, depth⟩ :: ⟨.type, start, start + 3, depth + 1⟩ ::
      ⟨.params, start + 3, stop, depth + 1⟩ ::
        (nestedRegions n (start + 4) (depth + 2) ++ [⟨.type, stop + 1, stop + 4, depth⟩])

/-- The word `int` is a type, whatever of these stands before it. -/
theorem wordsAt_parameters : ∀ text ∈ [['(', 'c', 'b', ' '], ['('], [' ']],
    (grammar .current).wordsAt parametersAddress text = [] ∧
      (grammar .current).wordsAt parametersAddress (text ++ ['i', 'n', 't'] ++ [')']) =
        [⟨byteLength text, byteLength text + 3, "int", ⟨.type, 1⟩⟩] := by
  decide +kernel

theorem course_int (l : Level) (found : List Region) {text : List Char}
    (hText : text ∈ [['(', 'c', 'b', ' '], ['('], [' ']]) (left right : List Char)
    (lastOpening : Option Nat) :
    (grammar .current).Course
      (l.within found (.between left (text ++ (['i', 'n', 't'] ++ ')' :: right)))
        (.between (left ++ text) (['i', 'n', 't'] ++ ')' :: right)) lastOpening)
      (l.behind
        (found ++ [⟨.type, byteLength (left ++ text), byteLength (left ++ text) + 3, l.depth⟩])
        (.between (left ++ text ++ ['i', 'n', 't'] ++ [')']) right)) := by
  have hPassed := course_level_pass l found (left ++ text) (')' :: right) lastOpening
    (show ∀ x ∈ ['i', 'n', 't'], x ∈ ['c', 'b', ' ', 'i', 'n', 't'] by simp)
    (.between left (text ++ (['i', 'n', 't'] ++ ')' :: right)))
  have hClosed :=
    course_closingParenthesis l found left right lastOpening (wordsAt_parameters text hText).2
  simp only [List.append_assoc, byteLength_append, Nat.add_assoc, List.map_cons, List.map_nil,
    Hit.regionIn] at hPassed hClosed ⊢
  exact hPassed.trans hClosed

/-- Nested types end with the parameters that they are in. -/
theorem course_nestedType (n : Nat) (l : Level) {text : List Char}
    (hText : text ∈ [['(', 'c', 'b', ' '], ['(']]) (left right : List Char)
    (lastOpening : Option Nat) : (grammar .current).Course
      (l.within [] (.between left (text ++ (nestedType n ++ ')' :: right)))
        (.between (left ++ text) (nestedType n ++ ')' :: right)) lastOpening)
      (l.behind (nestedRegions n (byteLength (left ++ text)) l.depth)
        (.between (left ++ text ++ nestedType n ++ [')']) right)) := by
  have hWords : ∀ {text}, text ∈ [['(', 'c', 'b', ' '], ['(']] →
      text ∈ [['(', 'c', 'b', ' '], ['('], [' ']] :=
    List.mem_append_left [[' ']]
  -- The parameters of the inner function are a level like any other, so the
  -- statement is about all levels.
  induction n generalizing l text left right lastOpening with
  | zero => exact course_int l [] (hWords hText) left right lastOpening
  | succ n ih =>
    let start := left ++ text
    let opened := start ++ ['f', 'u', 'n']
    let closed := opened ++ ['('] ++ nestedType n ++ [')']
    let rest := [' '] ++ (['i', 'n', 't'] ++ ')' :: right)
    let found : List Region := ⟨.funtype, byteLength start, byteLength closed, l.depth⟩ ::
      ⟨.type, byteLength start, byteLength start + 3, l.depth + 1⟩ ::
        ⟨.params, byteLength start + 3, byteLength closed, l.depth + 1⟩ ::
          nestedRegions n (byteLength (opened ++ ['('])) (l.depth + 2)
    have hEnter := course_inner l [] left (nestedType n ++ ')' :: rest) lastOpening
      (wordsAt_parameters text (hWords hText)).1
    have hInner :=
      ih (l.inner [] (byteLength start)) (show ['('] ∈ [['(', 'c', 'b', ' '], ['(']] by decide)
        opened rest (some (byteLength start + 3))
    rw [l.behind_inner, l.depth_inner] at hInner
    have hBlank := course_level_pass l found closed (['i', 'n', 't'] ++ ')' :: right) none
      (show ∀ x ∈ [' '], x ∈ ['c', 'b', ' ', 'i', 'n', 't'] by simp) (.between closed rest)
    have hLast := course_int l found
      (show [' '] ∈ [['(', 'c', 'b', ' '], ['('], [' ']] by decide) closed right none
    have hType : nestedType (n + 1) ++ ')' :: right =
        ['f', 'u', 'n'] ++ '(' :: (nestedType n ++ ')' :: rest) := by
      simp [nestedType, rest]
    have hBehind :
        start ++ nestedType (n + 1) ++ [')'] = closed ++ [' '] ++ ['i', 'n', 't'] ++ [')'] := by
      simp [nestedType, closed, opened]
    have hRegions : found ++
        [⟨.type, byteLength (closed ++ [' ']), byteLength (closed ++ [' ']) + 3, l.depth⟩] =
        nestedRegions (n + 1) (byteLength start) l.depth := by
      have hParts : byteLength ['f', 'u', 'n'] = 3 ∧ byteLength ['('] = 1 ∧
          byteLength [')'] = 1 ∧ byteLength [' '] = 1 := by decide
      have hClosed : byteLength closed = byteLength start + byteLength (nestedType n) + 5 := by
        simp only [closed, opened, byteLength_append, hParts]
        omega
      simp only [found, opened, byteLength_append, hParts, hClosed, nestedRegions, List.cons_append,
        Nat.add_assoc, Nat.reduceAdd]
    rw [hType, hBehind, ← hRegions]
    exact ((hEnter.trans hInner).trans hBlank).trans hLast

/-! ### The signature -/

def signatureAddress : Address := .inner .root 5 0

def nameAddress : Address := .inner signatureAddress 0 0

def titleAddress : Address := .inner nameAddress 0 0

theorem settingsAt_signature : (grammar .current).settingsAt signatureAddress =
    { category := some .function, openingWords := some "fun", closing := some "[(]|$",
      returnOpening := some true, excludeClosing := some true,
      keywords := some Version.current.keywords, relevance := some 5 } := by
  rfl

theorem settingsAt_name : (grammar .current).settingsAt nameAddress =
    { opening := some nameOpening, returnOpening := some true, relevance := some 0 } := by
  rfl

theorem settingsAt_title : (grammar .current).settingsAt titleAddress =
    { category := some .title, opening := some underscoreIdentifier, relevance := some 0 } := by
  rfl

theorem compile_signatureOpening :
    compile ⟨false, true⟩ (spellOut 0 false signatureOpening.toList) =
      .ok (.opening [['f', 'u', 'n']]) := by
  decide +kernel

def inSignature (modes : List (Address × Option Nat)) (regions : List Region)
    (pending place : Cursor) (lastOpening : Option Nat) : Standing :=
  ⟨modes ++ [(signatureAddress, some 0)], ⟨.function, 0, 0, 0⟩ :: regions, pending, place,
    lastOpening⟩

/-- The parameters of the function. -/
def outermost : Level where
  owner := signatureAddress
  outside := []
  before := []
  ownerRegion := ⟨.function, 0, 0, 0⟩
  middle := [⟨.keyword, 0, 3, 1⟩, ⟨.title, 4, 5, 1⟩]
  region := ⟨.params, 5, 5, 1⟩
  stays := by
    rw [settingsAt_signature]
    rfl

/-- Nothing comes in a signature where no name does, unless it begins with the character at hand. -/
theorem cueAt?_signature_eq_none {left right : List Char} {x : Char}
    (hName : stop? false nameOpening (.between left (x :: right)) = none)
    (hOthers : (((grammar .current).cues signatureAddress).tail.all fun entry =>
      !begins false entry.2 x) = true) :
    (grammar .current).cueAt? signatureAddress (.between left (x :: right)) = none := by
  have hFirst : (grammar .current).cues signatureAddress =
      (.opens nameAddress, nameOpening) :: ((grammar .current).cues signatureAddress).tail := by rfl
  refine Grammar.cueAt?_eq_none ?_
  rw [hFirst]
  exact List.forall_mem_cons.2 ⟨hName, Grammar.stop?_eq_none_of_all rfl hOthers⟩

section

variable (rest : List Char)

theorem cueAt?_root_signature :
    (grammar .current).cueAt? .root (.between [] (['f', 'u', 'n', ' '] ++ rest)) =
      some (.opens signatureAddress, .between ['f', 'u', 'n'] (' ' :: rest)) := by
  have hCue :
      ((grammar .current).cues .root)[7]? = some (.opens signatureAddress, signatureOpening) := by
    rfl
  have hBefore : ((((grammar .current).cues .root).take 7).all fun entry =>
      !begins false entry.2 'f') = true := by
    decide +kernel
  refine Grammar.cueAt?_eq_some hCue (Grammar.stop?_eq_none_of_all rfl hBefore) ?_
  rw [show (grammar .current).caseInsensitive = false from rfl, stop?_eq compile_signatureOpening]
  rfl

/-- The word before the name is passed over, as no parenthesis follows it. -/
theorem course_word : (grammar .current).Course (.start (['f', 'u', 'n', ' ', 'f', '('] ++ rest))
    (inSignature [] [] (.between [] (['f', 'u', 'n', ' ', 'f', '('] ++ rest))
      (.between ['f', 'u', 'n', ' '] (['f', '('] ++ rest)) (some 0)) := by
  have hOthers : ∀ x ∈ ['f', 'u', 'n', ' '],
      (((grammar .current).cues signatureAddress).tail.all fun entry => !begins false entry.2 x) =
        true :=
    List.all_eq_true.1 (by rfl)
  let pending := Cursor.between [] (['f', 'u', 'n', ' ', 'f', '('] ++ rest)
  have hSkip : ∀ (left right : List Char) (x : Char), x ∈ ['f', 'u', 'n', ' '] →
      stop? false nameOpening (.between left (x :: right)) = none → (grammar .current).Course
        (inSignature [] [] pending (.between left (x :: right)) (some 0))
        (inSignature [] [] pending (.between (left ++ [x]) right) (some 0)) :=
    fun left right x hx hName =>
      Grammar.course_skip _ rfl (cueAt?_signature_eq_none hName (hOthers x hx))
  have hName := stop?_eq compile_nameOpening
  have hOpens :=
    Grammar.course_start (cueAt?_root_signature (['f', '('] ++ rest)) settingsAt_signature rfl rfl
  have hF := hSkip [] (['u', 'n', ' ', 'f', '('] ++ rest) 'f' (by decide) ((hName _).trans rfl)
  have hU := hSkip ['f'] (['n', ' ', 'f', '('] ++ rest) 'u' (by decide) ((hName _).trans rfl)
  have hN := hSkip ['f', 'u'] ([' ', 'f', '('] ++ rest) 'n' (by decide) ((hName _).trans rfl)
  have hBlank := hSkip ['f', 'u', 'n'] (['f', '('] ++ rest) ' ' (by decide) ((hName _).trans rfl)
  exact (((hOpens.trans hF).trans hU).trans hN).trans hBlank

/-- The name is read twice: the parenthesis behind it makes it the name of a
function, but is no part of it. -/
theorem course_name : (grammar .current).Course
    (inSignature [] [] (.between [] (['f', 'u', 'n', ' ', 'f', '('] ++ rest))
      (.between ['f', 'u', 'n', ' '] (['f', '('] ++ rest)) (some 0))
    (inSignature [] outermost.middle (.between ['f', 'u', 'n', ' ', 'f'] ('(' :: rest))
      (.between ['f', 'u', 'n', ' ', 'f'] ('(' :: rest)) none) := by
  -- Two modes open on the name and close behind it, of which only the inner one has a region.
  let start := Cursor.between ['f', 'u', 'n', ' '] (['f', '('] ++ rest)
  let stop := Cursor.between ['f', 'u', 'n', ' ', 'f'] ('(' :: rest)
  let d := inSignature [] [] (.between [] (['f', 'u', 'n', ' ', 'f', '('] ++ rest)) start (some 0)
  let named := inSignature [(nameAddress, none)] [⟨.keyword, 0, 3, 1⟩] start start (some 4)
  let titled := inSignature [(titleAddress, some 2), (nameAddress, none)]
    [⟨.keyword, 0, 3, 1⟩, ⟨.title, 4, 4, 1⟩] start stop (some 4)
  let untitled := inSignature [(nameAddress, none)] outermost.middle stop stop none
  have hNamed : (grammar .current).Course d named := by
    have hWords : (grammar .current).wordsAt signatureAddress ['f', 'u', 'n', ' '] =
        [⟨0, 3, "fun", ⟨.keyword, 1⟩⟩] := by decide +kernel
    have hCue : (grammar .current).cueAt? signatureAddress start =
        some (.opens nameAddress, .between ['f', 'u', 'n', ' ', 'f', '('] rest) :=
      Grammar.cueAt?_first (by rfl) ((stop?_eq compile_nameOpening _).trans rfl)
    have hPending : d.pending = .between [] (['f', 'u', 'n', ' '] ++ (['f', '('] ++ rest)) := rfl
    have hFlush := Standing.flush_between d hPending hWords
    have hFound : d.flush (grammar .current) d.place =
        inSignature [] [⟨.keyword, 0, 3, 1⟩] start start (some 0) :=
      hFlush.trans rfl
    exact Grammar.course_opens hCue (Standing.enter_eq d _ settingsAt_name hFound)
  have hTitled : (grammar .current).Course named titled := by
    have hCue : (grammar .current).cueAt? nameAddress start = some (.opens titleAddress, stop) :=
      Grammar.cueAt?_first (by rfl) ((stop?_eq compile_identifier _).trans rfl)
    refine Grammar.course_opens hCue ?_
    rw [Standing.enter_eq named _ settingsAt_title (Standing.flush_pending _ named)]
    rfl
  have hUntitled : (grammar .current).Course titled untitled := by
    have hCue : (grammar .current).cueAt? titleAddress stop = some (.closes, stop) :=
      Grammar.cueAt?_first (by rfl) (stop?_immediateEnd false stop)
    have hMoved : some 4 ≠ some stop.offset := by
      show some 4 ≠ some 5
      decide
    refine Grammar.course_closes hCue (.inl hMoved) ?_
    rw [Standing.leave_alone titled stop rfl settingsAt_title rfl
      (Standing.flush_of_wordless titled settingsAt_title rfl stop)]
    rfl
  have hUnnamed :
      (grammar .current).Course untitled (inSignature [] outermost.middle stop stop none) := by
    have hCues : (grammar .current).cues nameAddress =
        [(.opens titleAddress, underscoreIdentifier), (.closes, immediateEnd)] := by rfl
    have hOther : begins false underscoreIdentifier '(' = false := by decide +kernel
    have hCue : (grammar .current).cueAt? nameAddress stop = some (.closes, stop) := by
      rw [Grammar.cueAt?_of_cues hCues, List.foldr_cons, List.foldr_cons,
        show (grammar .current).caseInsensitive = false from rfl,
        stop?_eq_none_of_begins rfl hOther, stop?_immediateEnd]
      rfl
    refine Grammar.course_closes hCue (.inl nofun) ?_
    rw [Standing.leave_alone untitled stop rfl settingsAt_name rfl
      (Standing.flush_pending _ untitled)]
    rfl
  exact ((hNamed.trans hTitled).trans hUntitled).trans hUnnamed

/-- A parenthesis opens the parameters. -/
theorem course_signature :
    (grammar .current).Course (.start (['f', 'u', 'n', ' ', 'f', '(', 'c', 'b', ' '] ++ rest))
      (outermost.within [] (.between ['f', 'u', 'n', ' ', 'f'] (['(', 'c', 'b', ' '] ++ rest))
        (.between ['f', 'u', 'n', ' ', 'f', '(', 'c', 'b', ' '] rest) (some 5)) := by
  let start := Cursor.between ['f', 'u', 'n', ' ', 'f'] (['(', 'c', 'b', ' '] ++ rest)
  let stop := Cursor.between ['f', 'u', 'n', ' ', 'f', '('] (['c', 'b', ' '] ++ rest)
  let d := inSignature [] outermost.middle start start none
  have hOpened : (grammar .current).Course d (outermost.within [] start stop (some 5)) := by
    have hCue : ((grammar .current).cues signatureAddress)[2]? =
        some (.opens parametersAddress, "\\(") := by
      rfl
    have hBefore : ((((grammar .current).cues signatureAddress).take 2).all fun entry =>
        !begins false entry.2 '(') = true := by decide +kernel
    have hOpens : (grammar .current).cueAt? signatureAddress start =
        some (.opens parametersAddress, stop) :=
      Grammar.cueAt?_eq_some hCue (Grammar.stop?_eq_none_of_all rfl hBefore)
        (stop?_char compile_parenthesis ['f', 'u', 'n', ' ', 'f'] (['c', 'b', ' '] ++ rest))
    refine Grammar.course_opens hOpens ?_
    rw [Standing.enter_eq d stop settingsAt_parameters (Standing.flush_pending _ d)]
    rfl
  have hPassed := course_level_pass outermost [] ['f', 'u', 'n', ' ', 'f', '('] rest (some 5)
    (show ∀ x ∈ ['c', 'b', ' '], x ∈ ['c', 'b', ' ', 'i', 'n', 't'] by simp) start
  have hSignature :=
    (course_word (['c', 'b', ' '] ++ rest)).trans (course_name (['c', 'b', ' '] ++ rest))
  exact (hSignature.trans hOpened).trans hPassed

end

/-! ### The regions of groups and of function types -/

/-- All parentheses of a text are closed within it. -/
inductive Balanced : List Char → Prop
  | nil : Balanced []
  | plain {x : Char} {text : List Char} (hOpening : x ≠ '(') (hClosing : x ≠ ')')
      (h : Balanced text) :
    Balanced (x :: text)
  | group {inner text : List Char} (hInner : Balanced inner) (h : Balanced text) :
    Balanced ('(' :: (inner ++ ')' :: text))

/-- A region covers a part of a text, behind `before`. -/
def Covers (text before part : List Char) (r : Region) : Prop :=
  before ++ part <+: text ∧ r.start = byteLength before ∧ r.stop = byteLength (before ++ part)

/-- A region goes from the opening parenthesis with so many before it to the one that closes it. -/
def CoversGroup (text : List Char) (count : Nat) (r : Region) : Prop :=
  ∃ before inner, before.count '(' = count ∧ Balanced inner ∧
    Covers text before ('(' :: (inner ++ [')'])) r

/-- A region goes from the word before such a parenthesis to the one that closes it. -/
def CoversFunctionType (text : List Char) (count : Nat) (r : Region) : Prop :=
  ∃ before inner, before.count '(' = count ∧ Balanced inner ∧
    Covers text before (['f', 'u', 'n'] ++ '(' :: (inner ++ [')'])) r

theorem Balanced.append {passed text : List Char}
    (hPassed : ∀ x ∈ passed, x ≠ '(' ∧ x ≠ ')') (h : Balanced text) :
    Balanced (passed ++ text) := by
  induction passed with
  | nil => exact h
  | cons x passed ih =>
    obtain ⟨⟨hOpening, hClosing⟩, hRest⟩ := List.forall_mem_cons.1 hPassed
    exact .plain hOpening hClosing (ih hRest)

theorem balanced_nestedType (n : Nat) : Balanced (nestedType n) := by
  induction n with
  | zero =>
    have hWord : ∀ x ∈ ['i', 'n', 't'], x ≠ '(' ∧ x ≠ ')' := by simp
    exact .append hWord .nil
  | succ n ih =>
    have hWord : ∀ x ∈ ['f', 'u', 'n'], x ≠ '(' ∧ x ≠ ')' := by simp
    have hInt : ∀ x ∈ [' ', 'i', 'n', 't'], x ≠ '(' ∧ x ≠ ')' := by simp
    have hGroup : Balanced ('(' :: (nestedType n ++ ')' :: ([' ', 'i', 'n', 't'] ++ []))) :=
      .group ih (.append hInt .nil)
    have hNested := Balanced.append hWord hGroup
    rwa [List.append_nil] at hNested

theorem byteLength_nestedType (n : Nat) : byteLength (nestedType n) = 3 + 9 * n := by
  induction n with
  | zero => rfl
  | succ n ih =>
    have hAround :
        byteLength ['f', 'u', 'n', '('] = 4 ∧ byteLength [')', ' ', 'i', 'n', 't'] = 5 := by
      decide
    rw [nestedType, byteLength_append, byteLength_append, hAround.1, hAround.2, ih]
    omega

/-- What nested types begin with, so many levels deep. -/
def openings : Nat → List Char
  | 0 => []
  | k + 1 => ['f', 'u', 'n', '('] ++ openings k

theorem byteLength_openings (k : Nat) : byteLength (openings k) = 4 * k := by
  induction k with
  | zero => rfl
  | succ k ih =>
    have hFour : byteLength ['f', 'u', 'n', '('] = 4 := by decide
    rw [openings, byteLength_append, ih, hFour]
    omega

theorem count_openings (k : Nat) : (openings k).count '(' = k := by
  induction k with
  | zero => rfl
  | succ k ih =>
    rw [openings, List.count_append, ih]
    exact Nat.add_comm 1 k

theorem openings_prefix (k m : Nat) : openings k ++ nestedType m <+: nestedType (m + k) := by
  induction k with
  | zero => exact List.prefix_refl _
  | succ k ih =>
    obtain ⟨after, hAfter⟩ := ih
    refine ⟨after ++ [')', ' ', 'i', 'n', 't'], ?_⟩
    rw [openings, ← Nat.add_assoc, nestedType, ← hAfter]
    simp only [List.append_assoc]

/-- The region of a group of parentheses in a nested type of depth `n`, so many levels deep. -/
def groupRegion (n start depth k : Nat) : Region :=
  ⟨.params, start + 4 * k + 3, start + 4 * k + byteLength (nestedType (n - 1 - k)) + 5,
    depth + 2 * k + 1⟩

/-- The region of the type of a function that the group belongs to. -/
def functionTypeRegion (n start depth k : Nat) : Region :=
  ⟨.funtype, start + 4 * k, start + 4 * k + byteLength (nestedType (n - 1 - k)) + 5,
    depth + 2 * k⟩

/-- The regions of one kind in a nested type, the outermost first. -/
theorem filter_nestedRegions (n start depth : Nat) :
    (nestedRegions n start depth).filter (·.category = .params) =
      (List.range n).map (groupRegion n start depth) ∧
    (nestedRegions n start depth).filter (·.category = .funtype) =
      (List.range n).map (functionTypeRegion n start depth) := by
  induction n generalizing start depth with
  | zero => exact ⟨rfl, rfl⟩
  | succ n ih =>
    obtain ⟨hGroups, hTypes⟩ := ih (start + 4) (depth + 2)
    have hLevel : ∀ k, n + 1 - 1 - (k + 1) = n - 1 - k := fun k => by omega
    have hOffset : ∀ k, start + 4 * (k + 1) = start + 4 + 4 * k := fun k => by omega
    have hDepth : ∀ k, depth + 2 * (k + 1) = depth + 2 + 2 * k := fun k => by omega
    rw [List.range_succ_eq_map, List.map_cons, List.map_map, List.map_cons, List.map_map]
    constructor
    · have hOutermost : (nestedRegions (n + 1) start depth).filter (·.category = .params) =
          groupRegion (n + 1) start depth 0 ::
            (nestedRegions n (start + 4) (depth + 2)).filter (·.category = .params) := by
        simp [nestedRegions, groupRegion]
      rw [hOutermost, hGroups]
      simp only [Function.comp_def, groupRegion, Nat.succ_eq_add_one, hLevel, hOffset, hDepth]
      rfl
    · have hOutermost : (nestedRegions (n + 1) start depth).filter (·.category = .funtype) =
          functionTypeRegion (n + 1) start depth 0 ::
            (nestedRegions n (start + 4) (depth + 2)).filter (·.category = .funtype) := by
        simp [nestedRegions, functionTypeRegion]
      rw [hOutermost, hTypes]
      simp only [Function.comp_def, functionTypeRegion, Nat.succ_eq_add_one, hLevel,
        hOffset, hDepth]
      rfl

theorem start_lt_stop_nestedRegions (n start depth : Nat) :
    ∀ r ∈ nestedRegions n start depth, r.start < r.stop := by
  induction n generalizing start depth with
  | zero => exact List.forall_mem_singleton.2 (Nat.lt_add_of_pos_right (by decide))
  | succ n ih =>
    simp only [nestedRegions, List.forall_mem_cons, List.forall_mem_append, List.not_mem_nil,
      false_implies, implies_true, and_true]
    exact ⟨by omega, by omega, by omega, ih _ _, by omega⟩

def beforeTypes : List Char := ['f', 'u', 'n', ' ', 'f', '(', 'c', 'b', ' ']

/-- The types of functions are where the nesting leads to. -/
theorem functionType_prefix {n k : Nat} (hk : k < n) :
    beforeTypes ++ openings k ++ (['f', 'u', 'n'] ++ '(' :: (nestedType (n - 1 - k) ++ [')'])) <+:
      nestedFunction n := by
  obtain ⟨after, hAfter⟩ := openings_prefix k (n - 1 - k + 1)
  have hLevel : n - 1 - k + 1 + k = n := by omega
  rw [hLevel, nestedType] at hAfter
  refine ⟨[' ', 'i', 'n', 't'] ++ after ++ [')'], ?_⟩
  rw [nestedFunction, ← hAfter]
  simp only [beforeTypes, List.append_assoc, List.cons_append, List.nil_append]

theorem byteLength_functionType (k : Nat) (inner : List Char) :
    byteLength (beforeTypes ++ openings k ++ (['f', 'u', 'n'] ++ '(' :: (inner ++ [')']))) =
      9 + 4 * k + byteLength inner + 5 := by
  have hAround : byteLength beforeTypes = 9 ∧ byteLength ['f', 'u', 'n', '('] = 4 ∧
      byteLength [')'] = 1 := by
    decide
  rw [show ['f', 'u', 'n'] ++ '(' :: (inner ++ [')']) =
    ['f', 'u', 'n', '('] ++ (inner ++ [')']) from rfl]
  simp only [byteLength_append, byteLength_openings, hAround]
  omega

section

variable {n k : Nat} (hk : k < n)
include hk

theorem coversFunctionType_functionTypeRegion :
    CoversFunctionType (nestedFunction n) (k + 1) (functionTypeRegion n 9 2 k) := by
  refine ⟨beforeTypes ++ openings k, nestedType (n - 1 - k), ?_, balanced_nestedType _,
    functionType_prefix hk, ?_, ?_⟩
  · rw [List.count_append, count_openings, Nat.add_comm k]
    rfl
  · rw [byteLength_append, byteLength_openings]
    rfl
  · exact (byteLength_functionType k _).symm

theorem coversGroup_groupRegion : CoversGroup (nestedFunction n) (k + 1) (groupRegion n 9 2 k) := by
  refine ⟨beforeTypes ++ openings k ++ ['f', 'u', 'n'], nestedType (n - 1 - k), ?_,
    balanced_nestedType _, ?_, ?_, ?_⟩
  · rw [List.count_append, List.count_append, count_openings, Nat.add_comm k]
    rfl
  · rw [List.append_assoc _ ['f', 'u', 'n']]
    exact functionType_prefix hk
  · rw [byteLength_append, byteLength_append, byteLength_openings]
    rfl
  · rw [List.append_assoc _ ['f', 'u', 'n']]
    exact (byteLength_functionType k _).symm

end

def groupRegions (n : Nat) : List Region :=
  ⟨.params, 5, byteLength (nestedFunction n), 1⟩ :: (List.range n).map (groupRegion n 9 2)

theorem eq_groupRegion_of_getElem? {n k : Nat} {r : Region}
    (h : (groupRegions n)[k + 1]? = some r) : k < n ∧ r = groupRegion n 9 2 k := by
  obtain ⟨hk, rfl⟩ := List.getElem?_eq_some_iff.1 h
  rw [groupRegions, List.length_cons, List.length_map, List.length_range] at hk
  exact ⟨Nat.lt_of_succ_lt_succ hk, by simp [groupRegions]⟩

theorem byteLength_nestedFunction (n : Nat) : byteLength (nestedFunction n) = 13 + 9 * n := by
  have hAround :
      byteLength ['f', 'u', 'n', ' ', 'f', '(', 'c', 'b', ' '] = 9 ∧ byteLength [')'] = 1 := by
    decide
  rw [nestedFunction, byteLength_append, byteLength_append, hAround.1, hAround.2,
    byteLength_nestedType]
  omega

theorem coversGroup_groupRegions {n k : Nat} {r : Region} (h : (groupRegions n)[k]? = some r) :
    CoversGroup (nestedFunction n) k r := by
  cases k with
  | zero =>
    cases h
    have hBalanced : Balanced (['c', 'b', ' '] ++ nestedType n) :=
      .append (by simp) (balanced_nestedType n)
    have hWhole : ['f', 'u', 'n', ' ', 'f'] ++ '(' :: (['c', 'b', ' '] ++ nestedType n ++ [')']) =
        nestedFunction n := by
      rw [nestedFunction, List.append_assoc]
      rfl
    exact ⟨_, _, by decide, hBalanced, hWhole ▸ List.prefix_refl _, rfl,
      congrArg byteLength hWhole.symm⟩
  | succ k =>
    obtain ⟨hk, rfl⟩ := eq_groupRegion_of_getElem? h
    exact coversGroup_groupRegion hk

theorem within_groupRegions {n k : Nat} {outer inner : Region}
    (hOuter : (groupRegions n)[k]? = some outer)
    (hInner : (groupRegions n)[k + 1]? = some inner) :
    outer.start < inner.start ∧ inner.stop < outer.stop := by
  obtain ⟨hk, rfl⟩ := eq_groupRegion_of_getElem? hInner
  cases k with
  | zero =>
    cases hOuter
    simp only [groupRegion, byteLength_nestedType, byteLength_nestedFunction]
    omega
  | succ k =>
    obtain ⟨-, rfl⟩ := eq_groupRegion_of_getElem? hOuter
    simp only [groupRegion, byteLength_nestedType]
    omega

/-- Functions may take functions that take functions, to any depth. The whole declaration is one
region; each group of parentheses has a region of its own, within that of the group before it, and
so does each type of a function, up to the end of its group. -/
theorem tokenize_nestedFunction :
    ∃ m, (grammar .current).compile = .ok m ∧ ∀ (t : Tokenizer m) (n : Nat),
      ∃ tokens groups types, (t.tokenize (.ofList (nestedFunction n))).1 = .ok tokens ∧
        tokens.regions.head? = some ⟨.function, 0, byteLength (nestedFunction n), 0⟩ ∧
        tokens.regions.filter (·.category = .params) = groups ∧ groups.length = n + 1 ∧
        (∀ k r, groups[k]? = some r → CoversGroup (nestedFunction n) k r) ∧
        (∀ k outer inner, groups[k]? = some outer → groups[k + 1]? = some inner →
          outer.start < inner.start ∧ inner.stop < outer.stop) ∧
        tokens.regions.filter (·.category = .funtype) = types ∧ types.length = n ∧
        (∀ k r, types[k]? = some r → CoversFunctionType (nestedFunction n) (k + 1) r) := by
  obtain ⟨m, hCompile, hFollows⟩ := exists_follows .current
  refine ⟨m, hCompile, fun t n => ?_⟩
  let regions : List Region :=
    ⟨.function, 0, byteLength (nestedFunction n), 0⟩ :: ⟨.keyword, 0, 3, 1⟩ :: ⟨.title, 4,
      5, 1⟩ :: ⟨.params, 5, byteLength (nestedFunction n), 1⟩ :: nestedRegions n 9 2
  have hCourse : (grammar .current).Course (.start (nestedFunction n))
      ⟨[], regions, .between (nestedFunction n) [], .between (nestedFunction n) [], none⟩ :=
    (course_signature (nestedType n ++ [')'])).trans
      (course_nestedType n outermost (by simp) ['f', 'u', 'n', ' ', 'f'] [] (some 5))
  have hFilled : ∀ r ∈ regions, r.start < r.stop := by
    simp only [regions, List.forall_mem_cons, byteLength_nestedFunction]
    exact ⟨by omega, by omega, by omega, by omega, start_lt_stop_nestedRegions n 9 2⟩
  obtain ⟨tokens, hTokens, hRegions⟩ := exists_tokens_of_closed hFollows t hCourse hFilled
  obtain ⟨hGroups, hTypes⟩ := filter_nestedRegions n 9 2
  refine ⟨tokens, groupRegions n, (List.range n).map (functionTypeRegion n 9 2),
    hTokens, by rw [hRegions]; rfl, ?_, ?_, fun k r => coversGroup_groupRegions,
    fun k outer inner => within_groupRegions, ?_, ?_, fun k r h => ?_⟩
  · rw [hRegions, groupRegions, ← hGroups]
    simp [regions]
  · simp [groupRegions]
  · rw [hRegions, ← hTypes]
    simp [regions]
  · simp
  · obtain ⟨hk, rfl⟩ := List.getElem?_eq_some_iff.1 h
    rw [List.length_map, List.length_range] at hk
    rw [List.getElem_map, List.getElem_range]
    exact coversFunctionType_functionTypeRegion hk

end Highlighter.Co
