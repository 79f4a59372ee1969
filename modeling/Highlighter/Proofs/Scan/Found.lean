import Highlighter.Proofs.Pattern.Forward
import Highlighter.Scan.Terminators
import Highlighter.Scan.Words
import Mathlib.Data.List.Forall2

/-! What is found in a text lies in the text: the terminator that a search comes upon
lies at or after the place it is searched from, and the words of a table follow one
another without overlapping. -/

namespace Highlighter

open Text Pattern

namespace TerminatorSet

variable {set : TerminatorSet} {c : Cursor} {found : Match}

theorem reaches_matchAt? (h : matchAt? c set = some found) :
    found.span.start = c ∧ c.Reaches found.span.stop := by
  induction set with
  | nil => cases h
  | cons entry set ih =>
    simp only [matchAt?] at h
    split at h
    · next stop hMatch =>
      cases h
      exact ⟨rfl, Program.reaches_matchFrom hMatch⟩
    · exact ih h

theorem reaches_search {rest : List Char} (h : set.search rest c = some found) :
    c.Reaches found.span.start ∧ found.span.start.Reaches found.span.stop := by
  fun_induction search set rest c with
  | case1 rest c found' hMatch =>
    cases h
    obtain ⟨hStart, hStop⟩ := reaches_matchAt? hMatch
    rw [hStart]
    exact ⟨Cursor.Reaches.refl c, hStop⟩
  | case2 c hNone => cases h
  | case3 c hNone x rest ih =>
    obtain ⟨hStart, hStop⟩ := ih h
    exact ⟨(Cursor.reaches_advance c).trans hStart, hStop⟩

theorem reaches_find? (h : set.find? c = some found) :
    c.Reaches found.span.start ∧ found.span.start.Reaches found.span.stop :=
  reaches_search h

theorem exists_of_matchAt? (h : matchAt? c set = some found) : ∃ program,
    (found.terminator, program) ∈ set ∧
      program.matchFrom found.span.start = some found.span.stop := by
  induction set with
  | nil => cases h
  | cons entry set ih =>
    simp only [matchAt?] at h
    split at h
    · next stop hMatch =>
      cases h
      exact ⟨entry.2, List.mem_cons_self, hMatch⟩
    · obtain ⟨program, hMem, hMatch⟩ := ih h
      exact ⟨program, List.mem_cons_of_mem entry hMem, hMatch⟩

theorem exists_of_search {rest : List Char} (h : set.search rest c = some found) : ∃ program,
    (found.terminator, program) ∈ set ∧
      program.matchFrom found.span.start = some found.span.stop := by
  fun_induction search set rest c with
  | case1 rest c found' hMatch =>
    cases h
    exact exists_of_matchAt? hMatch
  | case2 c hNone => cases h
  | case3 c hNone x rest ih => exact ih h

theorem matchAt?_append (c : Cursor) (set set' : TerminatorSet) :
    matchAt? c (set ++ set') = (matchAt? c set).or (matchAt? c set') := by
  induction set with
  | nil => rfl
  | cons entry set ih =>
    rw [List.cons_append, matchAt?, matchAt?, ih]
    cases entry.2.matchFrom c <;> rfl

theorem find?_of_matchAt? (h : matchAt? c set = some found) : set.find? c = some found := by
  unfold find? search
  rw [h]

end TerminatorSet

theorem eq_ok_of_toOption_eq_some {ε α : Type} {x : Except ε α} {a : α}
    (h : x.toOption = some a) : x = .ok a := by
  cases x with
  | error e => cases h
  | ok b =>
    cases h
    rfl

theorem exists_of_mapM_eq_error {ε α β : Type} {f : α → Except ε β} {l : List α} {e : ε}
    (h : l.mapM f = .error e) : ∃ a ∈ l, f a = .error e := by
  induction l with
  | nil => cases h
  | cons a l ih =>
    rw [List.mapM_cons] at h
    cases hHead : f a with
    | error e' =>
      rw [hHead] at h
      cases h
      exact ⟨a, List.mem_cons_self, hHead⟩
    | ok b =>
      rw [hHead] at h
      cases hTail : l.mapM f with
      | error e' =>
        rw [hTail] at h
        cases h
        obtain ⟨x, hx, hError⟩ := ih hTail
        exact ⟨x, List.mem_cons_of_mem a hx, hError⟩
      | ok bs =>
        rw [hTail] at h
        cases h

theorem exists_of_mem_of_forall₂ {α β : Type} {R : α → β → Prop} {l : List α}
    {bs : List β} (h : List.Forall₂ R l bs) {b : β} (hb : b ∈ bs) : ∃ a ∈ l, R a b := by
  induction h with
  | nil => cases hb
  | @cons a b' l bs hHead _ ih =>
    rcases List.mem_cons.1 hb with rfl | hb
    · exact ⟨a, List.mem_cons_self, hHead⟩
    · obtain ⟨x, hx, hRel⟩ := ih hb
      exact ⟨x, List.mem_cons_of_mem a hx, hRel⟩

theorem forall₂_of_mapM_eq_ok {ε α β : Type} {f : α → Except ε β} {l : List α}
    {bs : List β} (h : l.mapM f = .ok bs) : List.Forall₂ (fun a b => f a = .ok b) l bs := by
  induction l generalizing bs with
  | nil =>
    cases h
    exact .nil
  | cons a l ih =>
    rw [List.mapM_cons] at h
    cases hHead : f a with
    | error e =>
      rw [hHead] at h
      cases h
    | ok head =>
      rw [hHead] at h
      cases hTail : l.mapM f with
      | error e =>
        rw [hTail] at h
        cases h
      | ok tail =>
        rw [hTail] at h
        cases h
        exact .cons hHead (ih hTail)

/-- A mode of a machine is in its table, or has nothing set. -/
theorem Machine.mode_mem_or_eq (m : Machine) (id : Nat) :
    m.mode id ∈ m.modes ∨ m.mode id = { id } := by
  unfold mode
  rw [Array.getD_eq_getD_getElem?]
  cases hMode : m.modes[id]? with
  | none => exact .inr rfl
  | some mode => exact .inl (Array.mem_of_getElem? hMode)

/-- A set has a program for each of the terminators of the mode, in their order. -/
theorem Machine.forall₂_of_terminatorSet_eq_ok {m : Machine} {id : Nat} {closing : Option String}
    {set : TerminatorSet} (h : m.terminatorSet id closing = .ok set) :
    List.Forall₂ (fun t e => e.1 = t.1 ∧
        Pattern.compile ⟨m.caseInsensitive, true⟩ (asciiClasses t.2).toList = .ok e.2)
      (m.terminators id closing) set := by
  unfold terminatorSet at h
  dsimp only at h
  generalize hSet : List.mapM (m := Except PatternError) _ (m.terminators id closing) =
    programs at h
  cases programs with
  | error fault => cases h
  | ok programs =>
    cases h
    refine (forall₂_of_mapM_eq_ok hSet).imp fun t e hOk => ?_
    cases hCompiled : Pattern.compile ⟨m.caseInsensitive, true⟩ (asciiClasses t.2).toList with
    | error e =>
      rw [hCompiled] at hOk
      cases hOk
    | ok program =>
      rw [hCompiled] at hOk
      cases hOk
      exact ⟨rfl, rfl⟩

theorem Machine.exists_of_mem_terminatorSet {m : Machine} {id : Nat} {closing : Option String}
    {set : TerminatorSet} (h : m.terminatorSet id closing = .ok set) {entry : Terminator × Program}
    (hEntry : entry ∈ set) : ∃ pattern, (entry.1, pattern) ∈ m.terminators id closing ∧
      Pattern.compile ⟨m.caseInsensitive, true⟩ (asciiClasses pattern).toList =
        .ok entry.2 := by
  obtain ⟨t, ht, hKind, hProgram⟩ :=
    exists_of_mem_of_forall₂ (Machine.forall₂_of_terminatorSet_eq_ok h) hEntry
  exact ⟨t.2, hKind ▸ ht, hProgram⟩

theorem Machine.exists_of_opening_mem_terminators {m : Machine} {id child : Nat}
    {closing : Option String} {pattern : String}
    (h : (.opening child, pattern) ∈ m.terminators id closing) :
    child ∈ (m.mode id).contains ∧
      ∃ regex, (m.mode child).opening = some regex ∧ pattern = m.pattern regex := by
  simp only [terminators, List.mem_append, List.mem_filterMap, Option.mem_toList,
    Option.map_eq_some_iff] at h
  rcases h with
    (⟨inner, hInner, regex, hRegex, hEq⟩ | ⟨pattern, -, hEq⟩) | ⟨regex, -, hEq⟩
  · cases hEq
    exact ⟨hInner, regex, hRegex, rfl⟩
  · cases hEq
  · cases hEq

theorem Machine.closing_of_mem_terminators {m : Machine} {id : Nat} {closing : Option String}
    {pattern : String} (h : (.closing, pattern) ∈ m.terminators id closing) :
    closing = some pattern := by
  simp only [terminators, List.mem_append, List.mem_filterMap, Option.mem_toList,
    Option.map_eq_some_iff] at h
  rcases h with (⟨child, -, regex, -, hEq⟩ | ⟨pattern, rfl, hEq⟩) | ⟨regex, -, hEq⟩
  · cases hEq
  · cases hEq
    rfl
  · cases hEq

section Search

variable {m : Machine} {id : Nat} {closing : Option String} {set : TerminatorSet}
  (hSet : m.terminatorSet id closing = .ok set) {c : Cursor} {found : Match}
    (hFound : set.find? c = some found)
include hSet hFound

theorem Machine.exists_of_find? :
    ∃ pattern, (found.terminator, pattern) ∈ m.terminators id closing ∧
      ∃ program, Pattern.compile ⟨m.caseInsensitive, true⟩ (asciiClasses pattern).toList =
          .ok program ∧
        program.matchFrom found.span.start = some found.span.stop := by
  obtain ⟨program, hMem, hMatch⟩ := TerminatorSet.exists_of_search hFound
  obtain ⟨pattern, hPattern, hProgram⟩ := exists_of_mem_terminatorSet hSet hMem
  exact ⟨pattern, hPattern, program, hProgram, hMatch⟩

theorem Machine.exists_of_find?_opening {child : Nat} (hKind : found.terminator = .opening child) :
    child ∈ (m.mode id).contains ∧ ∃ regex, (m.mode child).opening = some regex ∧
      ∃ program, Pattern.compile ⟨m.caseInsensitive, true⟩
          (asciiClasses (m.pattern regex)).toList = .ok program ∧
        program.matchFrom found.span.start = some found.span.stop := by
  obtain ⟨pattern, hPattern, hMatches⟩ := exists_of_find? hSet hFound
  rw [hKind] at hPattern
  obtain ⟨hWithin, regex, hRegex, rfl⟩ := exists_of_opening_mem_terminators hPattern
  exact ⟨hWithin, regex, hRegex, hMatches⟩

theorem Machine.exists_of_find?_closing (hKind : found.terminator = .closing) :
    ∃ pattern, closing = some pattern ∧
      ∃ program, Pattern.compile ⟨m.caseInsensitive, true⟩ (asciiClasses pattern).toList =
          .ok program ∧
        program.matchFrom found.span.start = some found.span.stop := by
  obtain ⟨pattern, hPattern, hMatches⟩ := exists_of_find? hSet hFound
  rw [hKind] at hPattern
  exact ⟨pattern, closing_of_mem_terminators hPattern, hMatches⟩

end Search

/-- A set that cannot be searched for has a broken pattern, of which the error tells. -/
theorem Machine.exists_of_terminatorSet_eq_error {m : Machine} {id : Nat} {closing : Option String}
    {e : TokenizeError} (h : m.terminatorSet id closing = .error e) :
    ∃ fault, e = .terminators (m.terminators id closing).length fault ∧
      ∃ t ∈ m.terminators id closing,
        Pattern.compile ⟨m.caseInsensitive, true⟩ (asciiClasses t.2).toList = .error fault := by
  unfold terminatorSet at h
  dsimp only at h
  generalize hSet : List.mapM (m := Except PatternError) _ (m.terminators id closing) =
    programs at h
  cases programs with
  | ok set => cases h
  | error fault =>
    cases h
    obtain ⟨t, ht, hFault⟩ := exists_of_mapM_eq_error hSet
    refine ⟨fault, rfl, t, ht, ?_⟩
    cases hCompiled : Pattern.compile ⟨m.caseInsensitive, true⟩ (asciiClasses t.2).toList with
    | error e =>
      rw [hCompiled] at hFault
      cases hFault
      rfl
    | ok program =>
      rw [hCompiled] at hFault
      cases hFault

/-- Each span covers some text and starts at or after the end of the one before it, the
first one at or after `c`. -/
def Span.Succeed : Cursor → List Span → Prop
  | _, [] => True
  | c, s :: spans =>
    c.Reaches s.start ∧ s.start.Reaches s.stop ∧ s.start.offset < s.stop.offset ∧
      Succeed s.stop spans

theorem Span.Succeed.of_reaches {c d : Cursor} (hReach : c.Reaches d) {spans : List Span}
    (h : Span.Succeed d spans) : Span.Succeed c spans := by
  cases spans with
  | nil => trivial
  | cons s spans =>
    obtain ⟨hStart, hRest⟩ := h
    exact ⟨hReach.trans hStart, hRest⟩

theorem Regex.succeed_matchesFrom (r : Regex) (searches : Nat) (c : Cursor) :
    Span.Succeed c (r.matchesFrom searches c) := by
  induction searches generalizing c with
  | zero => trivial
  | succ searches ih =>
    simp only [matchesFrom]
    split
    · trivial
    · next s hFind =>
      obtain ⟨hStart, hStop⟩ := reaches_find? hFind
      split
      · split
        · trivial
        · exact (ih _).of_reaches (hStart.trans (Cursor.reaches_advance _))
      · next hEmpty =>
        have hNe : s.start.offset ≠ s.stop.offset := by simpa [Span.isEmpty] using hEmpty
        have hLe := hStop.offset_le
        exact ⟨hStart, hStop, by omega, ih _⟩

/-- Hits that follow one another between places of a text, from the byte offset `n` on. -/
def Hit.Ordered (text : List Char) : Nat → List Hit → Prop
  | _, [] => True
  | n, h :: hits =>
    n ≤ h.start ∧ h.start < h.stop ∧ Boundary text h.start ∧ Boundary text h.stop ∧
      Ordered text h.stop hits

theorem Hit.Ordered.eq_nil {n : Nat} {hits : List Hit} (h : Hit.Ordered [] n hits) : hits = [] := by
  cases hits with
  | nil => rfl
  | cons hit hits =>
    obtain ⟨-, hLt, -, hStop, -⟩ := h
    have hLe : hit.stop ≤ 0 := hStop.le
    omega

namespace KeywordIndex

variable {text : List Char}

theorem ordered_filterMap (k : KeywordIndex) {spans : List Span} {n : Nat} {c : Cursor}
    (hText : (Cursor.start text).Reaches c) (hn : n ≤ c.offset) (h : Span.Succeed c spans) :
    Hit.Ordered text n (spans.filterMap k.hit?) := by
  induction spans generalizing n c with
  | nil => trivial
  | cons s spans ih =>
    obtain ⟨hStart, hStop, hLt, hRest⟩ := h
    have hStartText := hText.trans hStart
    have hStopText := hStartText.trans hStop
    have hLe := hStart.offset_le
    rw [List.filterMap_cons]
    cases hHit : k.hit? s with
    | none => exact ih hStopText (by omega) hRest
    | some hit =>
      obtain ⟨data, -, rfl⟩ := Option.map_eq_some_iff.1 hHit
      exact ⟨by show n ≤ s.start.offset; omega, hLt, Cursor.boundary_offset hStartText,
        Cursor.boundary_offset hStopText, ih hStopText (Nat.le_refl _) hRest⟩

theorem ordered_hits (k : KeywordIndex) (text : List Char) : Hit.Ordered text 0 (k.hits text) :=
  k.ordered_filterMap (Cursor.Reaches.refl _) (Nat.le_refl _) (k.regex.succeed_matchesFrom _ _)

end KeywordIndex

end Highlighter
