import Highlighter.Proofs.Pattern.Forward
import Highlighter.Proofs.Pattern.OpeningWords
import Highlighter.Proofs.Pattern.Stops

/-! The words that mark remarks in comments. A remark opens with the blanks before such a word,
which are not part of it, and closes behind the colon that follows the word. -/

namespace Highlighter

open Text

theorem Text.Cursor.past?_append (c : Cursor) (chars more : List Char) :
    c.past? (chars ++ more) = (c.past? chars).bind (·.past? more) := by
  induction chars generalizing c with
  | nil => simp [past?]
  | cons x chars ih =>
    rw [List.cons_append, past?, past?]
    split
    · exact ih c.advance
    · rfl

namespace Pattern

theorem exists_of_mem_reach {t : CharTest} {limit : Option Nat} {rest : List Char} {c d : Cursor}
    (hRest : c.after = rest) (h : d ∈ reach t limit rest c) :
    ∃ passed, c.after = passed ++ d.after ∧ ∀ x ∈ passed, t.has x = true := by
  fun_induction reach t limit rest c with
  | case1 | case2 | case4 =>
    rw [List.mem_singleton.1 h]
    exact ⟨[], rfl, List.forall_mem_nil _⟩
  | case3 limit x rest c hLimit hHas ih =>
    rcases List.mem_cons.1 h with rfl | h
    · exact ⟨[], rfl, List.forall_mem_nil _⟩
    · have hAdvance := Cursor.advance_after hRest
      obtain ⟨passed, hPassed, hAll⟩ := ih hAdvance h
      refine ⟨x :: passed, ?_, List.forall_mem_cons.2 ⟨hHas, hAll⟩⟩
      rw [hRest, List.cons_append, ← hPassed, hAdvance]

namespace Program

def wordAnd (words : List (List Char)) (x : Char) : Program :=
  sequence (capture 1 (choiceOf (words.map literal))) (test (.char x))

/-- The characters that pass a test, as far as what follows them matches. -/
def upTo (t : CharTest) (following : Program) : Program :=
  sequence (repeated ⟨0, none, true⟩ (test t)) (ahead false following)

theorem matchFrom_wordAnd (words : List (List Char)) (x : Char) (c : Cursor) :
    (wordAnd words x).matchFrom c = words.findSome? fun word => c.past? (word ++ [x]) := by
  have hLast : ∀ (d : Cursor) (captures : Captures),
      ((test (.char x)).run ⟨d, captures⟩ some).map (·.place) = d.past? [x] := by
    intro d captures
    rw [run, Cursor.past?]
    dsimp only
    cases d.next? with
    | none => rfl
    | some y => by_cases hEq : y = x <;> simp [CharTest.has, hEq, Cursor.past?]
  rw [matchFrom, wordAnd, run, run, run_choiceOf, List.findSome?_map, List.map_findSome?]
  refine congrArg (List.findSome? · words) (funext fun word => ?_)
  simp only [Function.comp_apply, run_literal, Cursor.past?_append]
  cases c.past? word with
  | none => rfl
  | some d => exact hLast d _

theorem exists_of_matchFrom_upTo {t : CharTest} {following : Program} {c d : Cursor}
    (h : (upTo t following).matchFrom c = some d) :
    c.Reaches d ∧ (following.matchFrom d).isSome ∧
      ∃ passed, c.after = passed ++ d.after ∧ ∀ x ∈ passed, t.has x = true := by
  have hReaches := reaches_matchFrom h
  obtain ⟨r, hRun, rfl⟩ := Option.map_eq_some_iff.1 h
  simp only [upTo, run, List.drop_zero, if_true] at hRun
  obtain ⟨place, hMem, hFound⟩ := List.exists_of_findSome?_eq_some hRun
  have hMem := List.mem_reverse.1 hMem
  cases hAhead : following.run ⟨place, []⟩ some with
  | none =>
    rw [hAhead] at hFound
    cases hFound
  | some p =>
    rw [hAhead] at hFound
    cases hFound
    exact ⟨hReaches, by rw [matchFrom, hAhead]; rfl, exists_of_mem_reach rfl hMem⟩

end Program

end Pattern

end Highlighter
