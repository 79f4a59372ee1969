import Highlighter.Proofs.Pattern.Folding
import Highlighter.Proofs.Pattern.Immediate
import Highlighter.Proofs.Pattern.Stretch

/-! The pattern that opens a mode by words. It is read part by part, the words between what stands
before them and what stands behind them, and the program that it comes to matches a word where
neither a word character nor a dot is next to it. -/

namespace Highlighter.Pattern

open Highlighter.Text

/-! ### Trees -/

namespace Tree

theorem joinLiterals_chars {cs : List Char} (hNe : cs ≠ []) :
    joinLiterals (cs.map fun c => .literal [c] false) = [.literal cs false] := by
  induction cs with
  | nil => exact absurd rfl hNe
  | cons c cs ih =>
    cases cs with
    | nil => rfl
    | cons d cs =>
      rw [List.map_cons, joinLiterals, ih nofun]
      rfl

theorem ofParts_chars (cs : List Char) :
    ofParts (cs.map fun c => .literal [c] false) = .literal cs false := by
  rcases cs with _ | ⟨c, _ | ⟨d, cs⟩⟩
  · rfl
  · rfl
  · have hParts : ((d :: cs).map fun c => literal [c] false).flatMap parts =
        (d :: cs).map fun c => literal [c] false := by
      rw [List.flatMap_map]
      exact (List.map_eq_flatMap).symm
    have hJoin := joinLiterals_chars (List.cons_ne_nil c (d :: cs))
    rw [List.map_cons, ← hParts] at hJoin
    simp only [List.map_cons, ofParts] at hJoin ⊢
    rw [hJoin]

theorem inert_literal (cs : List Char) : Inert (.literal cs false) := ⟨rfl, rfl, fun _ _ => rfl⟩

theorem arrangeAll_eq_self {group : Nat → Width} {used : List Nat} {ts : List Tree}
    (h : ∀ t ∈ ts, t.arrange group used = .ok t) : arrangeAll group used ts = .ok ts := by
  induction ts with
  | nil => rfl
  | cons t ts ih =>
    obtain ⟨hHere, hRest⟩ := List.forall_mem_cons.1 h
    rw [arrangeAll, hHere, ih hRest]
    rfl

theorem inert_ofBranches {ts : List Tree} (h : ∀ t ∈ ts, t.Inert) : (ofBranches ts).Inert := by
  have hAll : unfoldAll false ts = ts ∧ referencesOfAll ts = [] := by
    induction ts with
    | nil => exact ⟨rfl, rfl⟩
    | cons t ts ih =>
      obtain ⟨hHere, hRest⟩ := List.forall_mem_cons.1 h
      obtain ⟨hUnfold, hReferences⟩ := ih hRest
      rw [unfoldAll, referencesOfAll, hHere.unfold_eq, hUnfold, hHere.references_eq, hReferences]
      exact ⟨rfl, rfl⟩
  rcases ts with _ | ⟨t, _ | ⟨u, ts⟩⟩
  · exact ⟨rfl, rfl, fun _ _ => rfl⟩
  · exact h t List.mem_cons_self
  · refine ⟨congrArg alternatives hAll.1, hAll.2, fun group used => ?_⟩
    show (arrangeAll group used (t :: u :: ts)).map _ = _
    rw [arrangeAll_eq_self fun t ht => (h t ht).arrange_eq group used]
    rfl

/-- The alternatives of some words. -/
def anyOf (words : List (List Char)) : Tree := ofBranches (words.map (.literal · false))

theorem inert_anyOf (words : List (List Char)) : (anyOf words).Inert := by
  refine inert_ofBranches fun t ht => ?_
  obtain ⟨word, -, rfl⟩ := List.mem_map.1 ht
  exact inert_literal word

end Tree

namespace Program

def boundary : Program := choice (between wordChar true false) (between wordChar false true)

theorem ofTree_ofBranches (group : Nat → Width) (ts : List Tree) :
    ofTree group (Tree.ofBranches ts) = choiceOf (ts.map (ofTree group)) := by
  have hTrees : ∀ ts, ofTrees group ts = ts.map (ofTree group) := by
    intro ts
    induction ts with
    | nil => rfl
    | cons t ts ih => rw [ofTrees, ih, List.map_cons]
  match ts with
  | [] => rfl
  | [t] => rfl
  | t :: u :: ts => exact congrArg choiceOf (hTrees _)

def literal (cs : List Char) : Program := ofTree (fun _ => .unknown) (.literal cs false)

theorem ofTree_literal (group : Nat → Width) (cs : List Char) :
    ofTree group (.literal cs false) = literal cs := by
  match cs with
  | [] => rfl
  | [c] => rfl
  | c :: d :: cs => rfl

theorem run_literal (cs : List Char) (p : Progress) (next : Progress → Option Progress) :
    (literal cs).run p next = (p.place.past? cs).bind fun place => next { p with place } := by
  match cs with
  | [] => rfl
  | [c] =>
    obtain ⟨place, captures⟩ := p
    show (test (.char c)).run _ next = _
    rw [run, Cursor.past?]
    dsimp only
    cases hNext : place.next? with
    | none => rfl
    | some x =>
      by_cases hEq : x = c
      · subst hEq
        simp [CharTest.has, Cursor.past?]
      · simp [CharTest.has, hEq]
  | c :: d :: cs =>
    show (text (c :: d :: cs)).run p next = _
    rw [run]
    cases p.place.past? (c :: d :: cs) <;> rfl

theorem run_choiceOf (programs : List Program) (p : Progress)
    (next : Progress → Option Progress) :
    (choiceOf programs).run p next = programs.findSome? fun program => program.run p next := by
  induction programs with
  | nil => rfl
  | cons program programs ih =>
    cases programs with
    | nil =>
      show program.run p next = _
      rw [List.findSome?_cons]
      cases program.run p next <;> rfl
    | cons other programs =>
      have hChoice : choiceOf (program :: other :: programs) =
          choice program (choiceOf (other :: programs)) := rfl
      rw [hChoice, run, ih]
      cases hRun : program.run p next <;> simp [hRun]

end Program

namespace Program

/-- Words that no word characters and no dots surround. -/
def opening (words : List (List Char)) : Program :=
  sequence (behind true 1 (test (.char '.'))) (sequence boundary (sequence
    (capture 1 (choiceOf (words.map literal)))
    (sequence (ahead true (test (.char '.')))
      (ahead false (choice boundary (test (.ofClass ⟨.property .space, false⟩)))))))

end Program

/-! ### Reading -/

namespace Tree

def boundary : Tree :=
  .alternatives [.sequence [.look true false (.test wordChar), .look false true (.test wordChar)],
    .sequence [.look true true (.test wordChar), .look false false (.test wordChar)]]

def opening (words : List (List Char)) : Tree :=
  .sequence [.look true true (.literal ['.'] false), boundary,
    .capture 1 false (anyOf words), .look false true (.literal ['.'] false),
    .look false false (.alternatives [boundary, .test (.ofClass ⟨.property .space, false⟩)])]

theorem references_opening (words : List (List Char)) : (opening words).references = [] := by
  show (anyOf words).references ++ [] = []
  rw [(inert_anyOf words).references_eq, List.append_nil]

end Tree

/-- What stands before the words, once it is spelled out. -/
def beforeWords : List Char := "(?<!\\.)".toList ++ boundary

/-- What stands behind the words, once it is spelled out. -/
def behindWords : List Char := "(?!\\.)(?=".toList ++ (boundary ++ "|\\s)".toList)

theorem intercalate_cons (word : List Char) (words : List (List Char)) :
    ['|'].intercalate (word :: words) = word ++ words.flatMap ('|' :: ·) := by
  induction words generalizing word with
  | nil => simp
  | cons next words ih =>
    rw [List.intercalate_cons_cons, ih, List.flatMap_cons]
    simp

theorem mem_intercalate {words : List (List Char)} {c : Char} (h : c ∈ ['|'].intercalate words) :
    c = '|' ∨ ∃ word ∈ words, c ∈ word := by
  cases words with
  | nil => cases h
  | cons word words =>
    rw [intercalate_cons, List.mem_append, List.mem_flatMap] at h
    rcases h with hFirst | ⟨other, hOther, hMem⟩
    · exact .inr ⟨word, List.mem_cons_self, hFirst⟩
    · exact (List.mem_cons.1 hMem).imp id fun hc => ⟨other, List.mem_cons_of_mem _ hOther, hc⟩

namespace Reader

theorem readsParts_boundary : ReadsParts 3 boundary [Tree.boundary] := by
  have hWord : ReadsBody 1 (bracket wordRanges) [.test wordChar] := readsParts_wordRanges.body
  have hInner := ((hWord.look true false).append (hWord.look false true)).body.bar
    ((hWord.look true true).append (hWord.look false false))
  have hText : boundary = '(' :: '?' :: ':' ::
    ((('(' :: (lookOpening true false ++ (bracket wordRanges ++ [')']))) ++
      ('(' :: (lookOpening false true ++ (bracket wordRanges ++ [')'])))) ++
      '|' :: (('(' :: (lookOpening true true ++ (bracket wordRanges ++ [')']))) ++
      ('(' :: (lookOpening false false ++ (bracket wordRanges ++ [')'])))) ++ [')']) := by
    rw [boundary_eq, wordRanges_eq]
    rfl
  rw [hText]
  exact hInner.plain

theorem readsParts_chars {word : List Char} (h : ∀ c ∈ word, isWordChar c = true) :
    ReadsParts 0 word (word.map fun c => .literal [c] false) := by
  have hChars :
      ReadsParts 0 (word.flatMap fun c => [c]) (word.map fun c => .literal [c] false) := by
    refine readsParts_flatMap fun c hc => readsParts_char fun hMem => ?_
    have hNone : ['\\', '.', '^', '$', '|', '(', ')', '*', '+', '?', '\x7b', '['].all
        (!isWordChar ·) := by decide
    have hOther := List.all_eq_true.1 hNone c hMem
    rw [h c hc] at hOther
    cases hOther
  rwa [List.flatMap_singleton'] at hChars

theorem ReadsBody.bars {cs : List Char} {ts : List Tree} (h : ReadsBody 0 cs ts)
    {words : List (List Char)}
    (hWords : ∀ word ∈ words, ∀ c ∈ word, isWordChar c = true) :
    ReadsBody 0 (cs ++ words.flatMap ('|' :: ·)) (ts ++ words.map (.literal · false)) := by
  induction words generalizing cs ts with
  | nil => simpa using h
  | cons word words ih =>
    obtain ⟨hHere, hRest⟩ := List.forall_mem_cons.1 hWords
    have hBar := h.bar (readsParts_chars hHere)
    rw [Tree.ofParts_chars] at hBar
    have hAll := ih hBar hRest
    rw [List.flatMap_cons, List.map_cons]
    simpa using hAll

theorem readsBody_words {words : List (List Char)} (hNe : words ≠ [])
    (hWords : ∀ word ∈ words, ∀ c ∈ word, isWordChar c = true) :
    ReadsBody 0 (['|'].intercalate words) (words.map (.literal · false)) := by
  cases words with
  | nil => exact absurd rfl hNe
  | cons word words =>
    obtain ⟨hHere, hRest⟩ := List.forall_mem_cons.1 hWords
    have hFirst := (readsParts_chars hHere).body
    rw [Tree.ofParts_chars] at hFirst
    rw [intercalate_cons]
    exact hFirst.bars hRest

theorem readsParts_beforeWords :
    ReadsParts 3 beforeWords [.look true true (.literal ['.'] false), Tree.boundary] := by
  have hText :
      beforeWords = ('(' :: (lookOpening true true ++ (['\\', '.'] ++ [')']))) ++ boundary :=
    congrArg (· ++ boundary) String.toList_ofList
  rw [hText]
  exact ((readsParts_dot.body.look true true).mono (by decide)).append readsParts_boundary

theorem readsParts_behindWords : ReadsParts 4 behindWords [.look false true (.literal ['.'] false),
    .look false false
      (.alternatives [Tree.boundary, .test (.ofClass ⟨.property .space, false⟩)])] := by
  have hText : behindWords = ('(' :: (lookOpening false true ++ (['\\', '.'] ++ [')']))) ++
      ('(' :: (lookOpening false false ++ ((boundary ++ '|' :: ['\\', 's']) ++ [')']))) := by
    have hFirst :
        "(?!\\.)(?=".toList = ('(' :: (lookOpening false true ++ (['\\', '.'] ++ [')']))) ++
          '(' :: lookOpening false false := String.toList_ofList
    have hLast : "|\\s)".toList = '|' :: ['\\', 's'] ++ [')'] := String.toList_ofList
    exact (congrArg₂ (fun before behind => before ++ (boundary ++ behind)) hFirst hLast).trans
      (by simp)
  have hEither :=
    (readsParts_boundary.body.bar (readsParts_space.mono (by decide))).look false false
  rw [hText]
  exact ((readsParts_dot.body.look false true).mono (by decide)).append hEither

end Reader

/-- The pattern of some words, once it is spelled out. -/
def spelledOpening (words : List (List Char)) : List Char :=
  beforeWords ++ ('(' :: (['|'].intercalate words ++ [')']) ++ behindWords)

section

variable {words : List (List Char)} (hNe : words ≠ []) (hFilled : ∀ word ∈ words, word ≠ [])
  (hWords : ∀ word ∈ words, ∀ c ∈ word, isWordChar c = true)

include hNe hFilled hWords

theorem head?_intercalate_ne (rest : List Char) :
    (['|'].intercalate words ++ ')' :: rest).head? ≠ some '?' := by
  cases words with
  | nil => exact absurd rfl hNe
  | cons word words =>
    obtain ⟨c, word, rfl⟩ := List.exists_cons_of_ne_nil (hFilled _ List.mem_cons_self)
    have hChar := hWords _ List.mem_cons_self c List.mem_cons_self
    rw [intercalate_cons]
    rintro hEq
    obtain rfl : c = '?' := by simpa using hEq
    cases hChar

theorem readTree_spelledOpening (captureAll : Bool) :
    readTree ⟨false, captureAll⟩ (spelledOpening words) = .ok (Tree.opening words) := by
  have hBefore := Reader.readsParts_beforeWords (.start .plain) [] [] rfl (by decide)
  have hGroup :=
    (Reader.readsBody_words hNe hWords).capture (head?_intercalate_ne hNe hFilled hWords)
    (r := (Reader.start .plain).holding [] [Tree.boundary, .look true true (.literal ['.'] false)])
      rfl
    (by decide)
  have hBehind := Reader.readsParts_behindWords { Reader.start .plain with captures := 1 } []
    [.capture 1 false (Tree.anyOf words), Tree.boundary,
      .look true true (.literal ['.'] false)] rfl (by decide)
  have hRun := (hBefore.trans (hGroup.trans hBehind)).run_eq
  exact readTree_of_references _ hRun rfl rfl (Tree.references_opening words)

theorem compile_spelledOpening (captureAll : Bool) :
    compile ⟨false, captureAll⟩ (spelledOpening words) = .ok (.opening words) := by
  have hInert := Tree.inert_anyOf words
  have hUnfold : (Tree.opening words).unfold false = Tree.opening words := by
    show Tree.sequence [_, _, .capture 1 false (Tree.unfold false _), _, _] = _
    rw [hInert.unfold_eq]
    rfl
  have hArrange :
      ∀ group used, (Tree.opening words).arrange group used = .ok (Tree.opening words) := by
    intro group used
    show (Tree.arrangeAll group used _).map _ = _
    rw [Tree.arrangeAll_eq_self]
    · rfl
    · intro t ht
      simp only [List.mem_cons, List.not_mem_nil, or_false] at ht
      rcases ht with rfl | rfl | rfl | rfl | rfl
      case inr.inr.inl =>
        show (Tree.arrange group used (Tree.anyOf words)).map _ = _
        rw [hInert.arrange_eq]
        rfl
      all_goals rfl
  have hProgram : ∀ group, Program.ofTree group (Tree.opening words) = .opening words := by
    intro group
    have hWords :
        Program.ofTree group (Tree.anyOf words) = Program.choiceOf (words.map .literal) := by
      rw [Tree.anyOf, Program.ofTree_ofBranches, List.map_map]
      refine congrArg _ (List.map_congr_left fun word _ => Program.ofTree_literal group word)
    show Program.sequence _
      (.sequence _ (.sequence (.capture 1 (Program.ofTree group (Tree.anyOf words))) _)) = _
    rw [hWords]
    rfl
  exact compile_of_inert (readTree_spelledOpening hNe hFilled hWords captureAll)
    ⟨hUnfold, Tree.references_opening words, hArrange⟩ hProgram

end

/-! ### Matching -/

namespace Program

theorem run_boundary (p : Progress) (next : Progress → Option Progress) : boundary.run p next =
    if p.place.previous?.any wordChar.has ≠ p.place.next?.any wordChar.has then next p
      else none := by
  rw [boundary, run, run_between, run_between]
  cases p.place.previous?.any wordChar.has <;> cases p.place.next?.any wordChar.has <;> simp

end Program

end Highlighter.Pattern

namespace Highlighter.Text.Cursor

open Pattern

/-- A word that is to open a mode may start here. -/
def opensWord (c : Cursor) : Bool :=
  !c.previous?.any (· == '.') && (c.previous?.any isWordChar != c.next?.any isWordChar)

/-- A word that is to open a mode may end here. -/
def closesWord (c : Cursor) : Bool :=
  !c.next?.any (· == '.') &&
    ((c.previous?.any isWordChar != c.next?.any isWordChar) || c.next?.any isWhitespace)

/-- A word stands at a place, with no word character and no dot before it or behind it. -/
def StandsAlone (c : Cursor) (word : List Char) : Prop :=
  ∃ rest, c.after = word ++ rest ∧
    (∀ x ∈ c.previous?, isWordChar x = false ∧ x ≠ '.') ∧
    ∀ x ∈ rest.head?, isWordChar x = false ∧ x ≠ '.'

variable {c d : Cursor} {word word' : List Char}

theorem opensWord_iff {y : Char} (hNext : c.next? = some y) (hWord : isWordChar y = true) :
    c.opensWord = true ↔ ∀ x ∈ c.previous?, isWordChar x = false ∧ x ≠ '.' := by
  rw [opensWord, hNext, Option.any_some, hWord]
  cases c.previous? with
  | none => simp
  | some x => simp [and_comm]

theorem isWordChar_of_isWhitespace {x : Char} (h : isWhitespace x = true) :
    isWordChar x = false := by
  rw [← has_wordChar, Bool.eq_false_iff]
  intro hWord
  simp only [wordChar, CharTest.has, CharSet.has, Bool.bne_false, Bool.or_eq_true, Bool.and_eq_true,
    decide_eq_true_eq] at hWord
  simp only [isWhitespace, Bool.or_eq_true, Bool.and_eq_true, decide_eq_true_eq, beq_iff_eq] at h
  omega

theorem closesWord_iff {y : Char} (hPrevious : d.previous? = some y) (hWord : isWordChar y = true) :
    d.closesWord = true ↔ ∀ x ∈ d.next?, isWordChar x = false ∧ x ≠ '.' := by
  rw [closesWord, hPrevious, Option.any_some, hWord]
  cases d.next? with
  | none => simp
  | some x =>
    cases hSpace : isWhitespace x with
    | false => simp [hSpace, and_comm]
    | true => simp [isWordChar_of_isWhitespace hSpace]

theorem standsAlone_iff (hFilled : word ≠ []) (hWord : ∀ x ∈ word, isWordChar x = true)
    (hPast : c.past? word = some d) :
    c.StandsAlone word ↔ c.opensWord = true ∧ d.closesWord = true := by
  obtain ⟨hAfter, -⟩ := after_of_past? hPast
  obtain ⟨passed, hPassed, hBefore⟩ := reaches_past? hPast
  obtain rfl : word = passed := by rwa [hAfter, List.append_cancel_right_eq] at hPassed
  obtain ⟨first, others, hFirst⟩ := List.exists_cons_of_ne_nil hFilled
  obtain ⟨front, last, hLast⟩ := List.eq_nil_or_concat word |>.resolve_left hFilled
  have hNext : c.next? = some first := by
    rw [next?, hAfter, hFirst]
    rfl
  have hPrevious : d.previous? = some last := by
    rw [previous?, hBefore, hLast]
    simp
  rw [opensWord_iff hNext (hWord first (by simp [hFirst])),
    closesWord_iff hPrevious (hWord last (by simp [hLast]))]
  constructor
  · rintro ⟨rest, hRest, hBehind, hAhead⟩
    obtain rfl : d.after = rest := by rwa [hAfter, List.append_cancel_left_eq] at hRest
    exact ⟨hBehind, hAhead⟩
  · rintro ⟨hBehind, hAhead⟩
    exact ⟨d.after, hAfter, hBehind, hAhead⟩

theorem StandsAlone.eq (h : c.StandsAlone word) (h' : c.StandsAlone word')
    (hWord : ∀ x ∈ word, isWordChar x = true)
    (hWord' : ∀ x ∈ word', isWordChar x = true) : word = word' := by
  obtain ⟨rest, hAfter, -, hRest⟩ := h
  obtain ⟨rest', hAfter', -, hRest'⟩ := h'
  rw [← takeWhile_append_of_head? hWord fun x hx => (hRest x hx).1, ← hAfter, hAfter',
    takeWhile_append_of_head? hWord' fun x hx => (hRest' x hx).1]

end Highlighter.Text.Cursor

namespace Highlighter.Pattern

open Highlighter.Text

namespace Program

theorem run_ahead_boundary (t : CharTest) (p : Progress) (next : Progress → Option Progress) :
    (ahead false (choice boundary (test t))).run p next =
      if p.place.previous?.any wordChar.has ≠ p.place.next?.any wordChar.has ∨
        p.place.next?.any t.has = true
      then next p else none := by
  obtain ⟨place, captures⟩ := p
  simp only [run, run_boundary]
  by_cases hBoundary : place.previous?.any wordChar.has ≠ place.next?.any wordChar.has
  · simp [hBoundary]
  · simp only [hBoundary, if_false, Option.none_or, false_or]
    cases place.next? with
    | none => rfl
    | some x => cases hHas : t.has x <;> simp [hHas]

theorem matchFrom_opening (words : List (List Char)) (c : Cursor) : (opening words).matchFrom c =
    if c.opensWord then words.findSome? fun word => (c.past? word).filter Cursor.closesWord
      else none := by
  let tail : Program := sequence (ahead true (test (.char '.')))
    (ahead false (choice boundary (test (.ofClass ⟨.property .space, false⟩))))
  have hDot : ∀ x? : Option Char, x?.any (CharTest.char '.').has = x?.any (· == '.') :=
    fun _ => rfl
  have hSpace : ∀ x? : Option Char,
      x?.any (CharTest.ofClass ⟨.property .space, false⟩).has = x?.any isWhitespace := by
    intro x?
    cases x? <;> simp [CharTest.has, CharSet.has, Property.has]
  have hTail : ∀ p : Progress, tail.run p some = if p.place.closesWord then some p else none := by
    intro p
    rw [run, run_ahead_test, run_ahead_boundary, hDot, hSpace, has_wordChar, Cursor.closesWord]
    cases p.place.next?.any (· == '.') <;> simp
  -- The conditions behind a word do not read what the group around the words has captured.
  let found (word : List Char) : Option Progress :=
    (c.past? word).bind fun d => if d.closesWord then some ⟨d, [(1, ⟨c, d⟩)]⟩ else none
  have hWord : ∀ word, (literal word).run ⟨c, []⟩
      (fun p => tail.run { p with captures := (1, ⟨c, p.place⟩) :: p.captures } some) =
        found word := by
    intro word
    simp only [run_literal, hTail, found]
  have hRun : (opening words).run ⟨c, []⟩ some = if c.opensWord then words.findSome? found
      else none := by
    rw [opening, run, run_behind_test, run, run_boundary, hDot, has_wordChar, run, run,
      run_choiceOf, List.findSome?_map, Cursor.opensWord]
    show (if _ then if _ then words.findSome? (fun word => (literal word).run ⟨c, []⟩ fun p =>
      tail.run { p with captures := (1, ⟨c, p.place⟩) :: p.captures } some) else none
        else none) = _
    simp only [hWord]
    cases c.previous?.any (· == '.') <;> simp
  have hPlace :
      ∀ word, (found word).map (·.place) = (c.past? word).filter Cursor.closesWord := by
    intro word
    simp only [found]
    cases c.past? word with
    | none => rfl
    | some d => cases hCloses : d.closesWord <;> simp [Option.filter_some, hCloses]
  rw [matchFrom, hRun, apply_ite (Option.map _), List.map_findSome?]
  simp only [Function.comp_def, hPlace]
  rfl

/-- The words that stand alone are matched, and nothing else is. -/
theorem exists_matchFrom_opening_iff {words : List (List Char)}
    (hFilled : ∀ word ∈ words, word ≠ [])
    (hWords : ∀ word ∈ words, ∀ x ∈ word, isWordChar x = true) (c : Cursor)
    (length : Nat) :
    (∃ d, (opening words).matchFrom c = some d ∧ d.offset = c.offset + length) ↔
      ∃ word ∈ words, byteLength word = length ∧ c.StandsAlone word := by
  have hFound : ∀ d, (opening words).matchFrom c = some d →
      ∃ word ∈ words, d.offset = c.offset + byteLength word ∧ c.StandsAlone word := by
    intro d hMatch
    rw [matchFrom_opening] at hMatch
    split at hMatch
    · next hOpens =>
      obtain ⟨word, hWord, hSome⟩ := List.exists_of_findSome?_eq_some hMatch
      obtain ⟨hPast, hCloses⟩ := Option.filter_eq_some_iff.1 hSome
      refine ⟨word, hWord, (Cursor.after_of_past? hPast).2, ?_⟩
      exact (Cursor.standsAlone_iff (hFilled word hWord) (hWords word hWord) hPast).2
        ⟨hOpens, hCloses⟩
    · cases hMatch
  constructor
  · rintro ⟨d, hMatch, hOffset⟩
    obtain ⟨word, hWord, hLength, hStands⟩ := hFound d hMatch
    exact ⟨word, hWord, by omega, hStands⟩
  · rintro ⟨word, hWord, rfl, hStands⟩
    obtain ⟨rest, hAfter, -⟩ := id hStands
    obtain ⟨d, hPast⟩ := Cursor.exists_past? hAfter
    obtain ⟨hOpens, hCloses⟩ :=
      (Cursor.standsAlone_iff (hFilled word hWord) (hWords word hWord) hPast).1 hStands
    have hSome : ((opening words).matchFrom c).isSome := by
      rw [matchFrom_opening, if_pos hOpens, List.findSome?_isSome_iff]
      exact ⟨word, hWord, by simp [hPast, Option.filter_some, hCloses]⟩
    obtain ⟨e, hMatch⟩ := Option.isSome_iff_exists.1 hSome
    -- Another word may be listed earlier, but it is the same word.
    obtain ⟨other, hOther, hOffset, hStands'⟩ := hFound e hMatch
    obtain rfl := hStands.eq hStands' (hWords word hWord) (hWords other hOther)
    exact ⟨e, hMatch, hOffset⟩

end Program
end Highlighter.Pattern
