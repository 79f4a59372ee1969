import Highlighter.Proofs.Pattern.Lexeme
import Highlighter.Proofs.Text.Runs

/-! The pattern of a word by default. It matches the longest runs of word characters, so that
searching for it again and again comes upon all of them. -/

namespace Highlighter.Text

def Span.run (s : Span) : Run := ⟨s.start.offset, s.chars⟩

end Highlighter.Text

namespace Highlighter.Pattern

open Highlighter.Text

/-- The characters of words: ASCII letters, digits and the underscore. -/
def isWordChar (x : Char) : Bool :=
  ('0' ≤ x && x ≤ '9') || ('A' ≤ x && x ≤ 'Z') || ('a' ≤ x && x ≤ 'z') || x == '_'

theorem has_wordChar : wordChar.has = isWordChar := by
  funext x
  have hUnderscore : x = '_' ↔ x.toNat = 95 := ⟨fun h => h ▸ rfl, fun h => by
    rw [← Char.ofNat_toNat x, h]⟩
  rw [Bool.eq_iff_iff]
  simp only [wordChar, CharTest.has, CharSet.has, isWordChar, Bool.bne_false, Bool.or_eq_true,
    Bool.and_eq_true, decide_eq_true_eq, beq_iff_eq, hUnderscore, Char.le_def,
    UInt32.le_iff_toNat_le, Char.reduceVal, UInt32.reduceToNat, Char.toNat_val]
  omega

namespace Program

/-- The program of a run of characters that pass a test, one at least. -/
def oneOrMore (t : CharTest) : Program := repeated ⟨1, none, true⟩ (test t)

variable {t : CharTest} {c : Cursor} {x : Char} {rest : List Char}

theorem matchFrom_oneOrMore (hAfter : c.after = x :: rest) (hHas : t.has x = true) :
    ∃ d, (oneOrMore t).matchFrom c = some d ∧ d.after = rest.dropWhile t.has ∧
      d.offset = c.offset + byteLength (x :: rest.takeWhile t.has) := by
  obtain ⟨d, others, hReverse, hDrop, hOffset⟩ := reverse_reach t (Cursor.advance_after hAfter)
  refine ⟨d, ?_, hDrop, ?_⟩
  · have hReach : reach t none c.after c = c :: reach t none rest c.advance := by
      rw [hAfter, reach_cons, if_pos hHas]
    simp only [matchFrom, oneOrMore, run, hReach, List.drop_succ_cons, List.drop_zero, if_true,
      hReverse, List.findSome?_cons, Option.map_some]
  · obtain ⟨before, after, offset, hc⟩ := c
    subst hAfter
    rw [hOffset, byteLength, ← Nat.add_assoc]
    rfl

theorem matchFrom_oneOrMore_eq_none (h : ∀ x ∈ c.next?, t.has x = false) :
    (oneOrMore t).matchFrom c = none := by
  have hReach : reach t none c.after c = [c] := by
    cases hAfter : c.after with
    | nil => rfl
    | cons x rest =>
      rw [reach_cons, h x (Cursor.next?_eq_some_iff.2 ⟨rest, hAfter⟩)]
      rfl
  simp [matchFrom, oneOrMore, run, hReach]

theorem search_oneOrMore (hAfter : c.after = rest) :
    ((oneOrMore t).search rest c = none ∧ runs t.has c.offset rest = []) ∨
      ∃ s, (oneOrMore t).search rest c = some s ∧ s.start.offset < s.stop.offset ∧
        runs t.has c.offset rest = s.run :: runs t.has s.stop.offset s.stop.after := by
  induction rest generalizing c with
  | nil =>
    have hNone : (oneOrMore t).matchFrom c = none :=
      matchFrom_oneOrMore_eq_none (by simp [Cursor.next?, hAfter])
    left
    unfold search
    rw [hNone, runs]
    exact ⟨rfl, rfl⟩
  | cons x rest ih =>
    by_cases hHas : t.has x = true
    · obtain ⟨d, hMatch, hDrop, hOffset⟩ := matchFrom_oneOrMore hAfter hHas
      refine .inr ⟨⟨c, d⟩, ?_, ?_, ?_⟩
      · unfold search
        rw [hMatch]
      · have hPos := x.utf8Size_pos
        dsimp only
        rw [hOffset, byteLength]
        omega
      · have hChars := (Span.after_eq_of_reaches (s := ⟨c, d⟩) (reaches_matchFrom hMatch)).1
        -- The match takes up all that belongs to the run, as a greedy repetition does.
        have hSplit : x :: rest = (x :: rest.takeWhile t.has) ++ d.after := by simp [hDrop]
        rw [hAfter, hSplit, List.append_cancel_right_eq] at hChars
        rw [Span.run, runs, if_pos hHas, ← hChars, hOffset, hDrop]
    · have hNone : (oneOrMore t).matchFrom c = none :=
        matchFrom_oneOrMore_eq_none (by simpa [Cursor.next?, hAfter] using hHas)
      have hOffset : c.advance.offset = c.offset + x.utf8Size := by
        obtain ⟨before, after, offset, hc⟩ := c
        subst hAfter
        rfl
      rw [runs, if_neg hHas, ← hOffset]
      unfold search
      rw [hNone]
      exact ih (Cursor.advance_after hAfter)

end Program

end Highlighter.Pattern
