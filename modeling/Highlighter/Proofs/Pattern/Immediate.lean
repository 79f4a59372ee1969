import Highlighter.Grammar.Compile
import Highlighter.Proofs.Pattern.Folding
import Highlighter.Proofs.Pattern.Lexeme
import Highlighter.Proofs.Pattern.Spelling

/-! The pattern on which a mode closes that says nothing of its end. It matches at every place of
every text, and covers nothing: the characters around a place are in words or not, and each of the
four cases is one of its alternatives. -/

namespace Highlighter.Pattern

open Highlighter.Text

/-- The characters of words, as a pattern means them that may disregard case. -/
def wordTest (ignoreCase : Bool) : CharTest :=
  if ignoreCase then
    .folded ⟨.union (.union (.union (.range 48 57) (.range 65 90)) (.range 97 122))
      (.range 95 95), false⟩
  else wordChar

theorem Tree.unfold_wordTest (ignoreCase behind : Bool) :
    (Tree.test (wordTest ignoreCase)).unfold behind = .test (wordTest ignoreCase) := by
  cases ignoreCase with
  | false => rfl
  | true => exact foldClass_eq rfl (by decide +kernel)

namespace Program

/-- A place at which one character passes a test before it or not, and after it or not. -/
def between (t : CharTest) (before after : Bool) : Program :=
  sequence (behind (!before) 1 (test t)) (ahead (!after) (test t))

/-- A place at any characters. -/
def immediate (t : CharTest) : Program :=
  choice (choice (between t true true) (between t false false))
    (choice (between t true false) (between t false true))

theorem run_ahead_test (t : CharTest) (negated : Bool) (p : Progress)
    (next : Progress → Option Progress) :
    (ahead negated (test t)).run p next = if p.place.next?.any t.has = !negated then next p
      else none := by
  simp only [run]
  cases p.place.next? with
  | none => cases negated <;> rfl
  | some c =>
    dsimp only [Option.any_some]
    by_cases hHas : t.has c = true
    · cases negated <;> simp [hHas]
    · cases negated <;> simp [hHas]

theorem run_behind_test (t : CharTest) (negated : Bool) (p : Progress)
    (next : Progress → Option Progress) :
    (behind negated 1 (test t)).run p next =
      if p.place.previous?.any t.has = !negated then next p else none := by
  obtain ⟨⟨before, after, offset, hOffset⟩, captures⟩ := p
  cases before with
  | nil => cases negated <;> rfl
  | cons c before =>
    simp only [run, Cursor.backBy?, Cursor.back?, Cursor.next?, Cursor.previous?, Option.bind_some,
      List.head?_cons, Option.any_some]
    by_cases hHas : t.has c = true
    · cases negated <;> simp [hHas]
    · cases negated <;> simp [hHas]

theorem run_between (t : CharTest) (before after : Bool) (p : Progress)
    (next : Progress → Option Progress) :
    (between t before after).run p next =
      if p.place.previous?.any t.has = before ∧ p.place.next?.any t.has = after then next p
        else none := by
  rw [between, run, run_behind_test, run_ahead_test, Bool.not_not, Bool.not_not]
  split <;> simp_all

theorem matchFrom_immediate (t : CharTest) (c : Cursor) : (immediate t).matchFrom c = some c := by
  simp only [matchFrom, immediate, run, run_between]
  cases c.previous?.any t.has <;> cases c.next?.any t.has <;> rfl

end Program

/-! ### Reading -/

namespace Tree

def between (t : CharTest) (before after : Bool) : Tree :=
  sequence [look true (!before) (test t), look false (!after) (test t)]

def immediate (t : CharTest) : Tree :=
  alternatives [alternatives [between t true true, between t false false],
    alternatives [between t true false, between t false true]]

theorem inert_immediate (ignoreCase : Bool) : (immediate (wordTest ignoreCase)).Inert := by
  refine ⟨?_, rfl, fun _ _ => ?_⟩
  · simp only [immediate, between, unfold, unfoldAll, unfold_wordTest]
  · cases ignoreCase <;> rfl

end Tree

theorem readTree_immediate (ignoreCase captureAll : Bool) :
    readTree ⟨ignoreCase, captureAll⟩ (noBoundary ++ '|' :: boundary) =
      .ok (.immediate (wordTest ignoreCase)) := by
  rw [noBoundary_eq, boundary_eq, wordRanges_eq]
  cases ignoreCase <;> cases captureAll <;> exact readTree_eq_ok (by decide +kernel)

theorem spellOut_immediateEnd :
    spellOut 0 false immediateEnd.toList = noBoundary ++ '|' :: boundary := by
  have hChars : immediateEnd.toList = ['\\', 'B', '|', '\\', 'b'] := String.toList_ofList
  rw [hChars]
  simp [spellOut, spellEscape]

theorem compile_immediateEnd (ignoreCase captureAll : Bool) :
    compile ⟨ignoreCase, captureAll⟩ (asciiClasses immediateEnd).toList =
      .ok (.immediate (wordTest ignoreCase)) := by
  rw [toList_asciiClasses, spellOut_immediateEnd]
  exact compile_of_inert (readTree_immediate ignoreCase captureAll)
    (Tree.inert_immediate ignoreCase) fun _ => by cases ignoreCase <;> rfl

end Highlighter.Pattern

namespace Highlighter.Regex

open Pattern

theorem program_immediateEnd (ignoreCase : Bool) :
    (Regex.ofPattern immediateEnd ignoreCase).program = .ok (.immediate (wordTest ignoreCase)) :=
  (Regex.program_eq _).trans (compile_immediateEnd ignoreCase false)

theorem matchAt?_immediateEnd (ignoreCase : Bool) (c : Text.Cursor) :
    (Regex.ofPattern immediateEnd ignoreCase).matchAt? c = some c := by
  rw [matchAt?, program_immediateEnd]
  exact Program.matchFrom_immediate _ c

/-- Whether a pattern is broken shows when its text, as it is spelled out, is compiled. The pattern
of immediate ends is known to be sound. -/
theorem fault?_eq_none_iff (r : Regex) : r.fault? = none ↔ r.pattern = immediateEnd ∨
    (Pattern.compile ⟨r.ignoreCase, false⟩
      (spellOut 0 false r.pattern.toList)).toOption.isSome := by
  rw [fault?]
  have hProgram := r.program_eq
  constructor
  · intro h
    rw [toList_asciiClasses] at hProgram
    rw [← hProgram]
    cases hFault : r.program with
    | error e =>
      rw [hFault] at h
      cases h
    | ok program => exact .inr rfl
  · rintro (hEnd | hSome)
    · rw [hProgram, hEnd, compile_immediateEnd]
    · rw [toList_asciiClasses] at hProgram
      rw [← hProgram] at hSome
      cases hFault : r.program with
      | error e =>
        rw [hFault] at hSome
        cases hSome
      | ok program => rfl

instance (r : Regex) : Decidable (r.fault? = none) :=
  decidable_of_iff _ r.fault?_eq_none_iff.symm

/-- A regular expression, whose program is found from the pattern as it is spelled out. -/
def spelled (r : Regex) : Regex :=
  if hEnd : r.pattern = immediateEnd then
    ⟨r.pattern, r.ignoreCase, .ok (.immediate (wordTest r.ignoreCase)), by
      rw [hEnd, compile_immediateEnd]⟩
  else
    ⟨r.pattern, r.ignoreCase, Pattern.compile ⟨r.ignoreCase, false⟩
      (spellOut 0 false r.pattern.toList), by rw [toList_asciiClasses]⟩

theorem spelled_eq (r : Regex) : r.spelled = r := by
  unfold spelled
  split
  · exact ext_of_eq rfl rfl
  · exact ext_of_eq rfl rfl

end Highlighter.Regex
