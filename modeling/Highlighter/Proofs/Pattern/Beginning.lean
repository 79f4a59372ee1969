import Highlighter.Proofs.Pattern.Consuming

/-! With which characters a match may begin. `Program.begins` sees through the parts of a program
that may match nothing to what comes after them. -/

namespace Highlighter.Pattern

open Highlighter.Text

namespace Program

/-- A match of the program and of what comes after it may begin with a character. `after` tells
whether what comes after it may begin so on its own. -/
def begins (x : Char) : Program → (after : Bool) → Bool
  | nothing, after => after
  | fail, _ => false
  | test t, _ => t.has x
  | text [], after => after
  | text (y :: _), _ => x == y
  | anchor .textEnd, _ => false
  | anchor .lineEnd, after => x == '\n' && after
  | anchor _, after => after
  | backreference _ _, _ => true
  | capture _ body, after => begins x body after
  | atomic body, after => begins x body after
  | ahead negated body, after => (negated || begins x body true) && after
  | behind _ _ _, after => after
  | repeated q body, after => begins x body after || (q.lower == 0 && after)
  | sequence first second, after => begins x first (begins x second after)
  | choice first second, after => begins x first after || begins x second after

theorem Leads.begins {program : Program} {p q : Progress} {x : Char} {after : Bool}
    (h : Leads program p q) (hHead : p.place.next? = some x)
    (hAfter : q.place = p.place → after = true) : program.begins x after = true := by
  -- By induction on the way. What comes after it matters only where the way does not move on.
  induction h generalizing after with
  | nothing => exact hAfter rfl
  | test hNext hHas =>
    cases hNext.symm.trans hHead
    exact hHas
  | @text chars p place hPast =>
    cases chars with
    | nil =>
      cases hPast
      exact hAfter rfl
    | cons y chars =>
      rw [Cursor.past?, hHead] at hPast
      split at hPast
      · next hEq =>
        cases hEq
        exact beq_self_eq_true x
      · cases hPast
  | @anchor a p hHolds =>
    have hEnd := Cursor.atEnd_of_next? hHead
    cases a with
    | textEnd =>
      rw [Anchor.holds, hEnd] at hHolds
      cases hHolds
    | lineEnd =>
      rw [Anchor.holds, hEnd, hHead] at hHolds
      simpa [Program.begins, hAfter rfl] using hHolds
    | textStart | lastLineEnd | lineStart | wordBoundary => exact hAfter rfl
  | backreference => rfl
  | capture _ ih | atomic _ ih => exact ih hHead hAfter
  | ahead _ ih => exact Bool.and_eq_true_iff.2 ⟨ih hHead fun _ => rfl, hAfter rfl⟩
  | notAhead | behind | notBehind => exact hAfter rfl
  | never hLower => simp [Program.begins, hLower, hAfter rfl]
  | last _ ih => exact Bool.or_eq_true_iff.2 (.inl (ih hHead hAfter))
  | again _ hMoves _ ih =>
    exact Bool.or_eq_true_iff.2
      (.inl (ih hHead fun hStay => absurd (congrArg Cursor.offset hStay) hMoves))
  | sequence _ _ ih ihRest =>
    exact ih hHead fun hStay => ihRest (hStay ▸ hHead) fun hStay' => hAfter (hStay'.trans hStay)
  | left _ ih => exact Bool.or_eq_true_iff.2 (.inl (ih hHead hAfter))
  | right _ ih => exact Bool.or_eq_true_iff.2 (.inr (ih hHead hAfter))

theorem begins_of_matchFrom {program : Program} {c d : Cursor} (h : program.matchFrom c = some d)
    {x : Char} (hHead : c.next? = some x) :
    program.begins x true = true := by
  obtain ⟨captures, hLeads⟩ := exists_leads_of_matchFrom h
  exact hLeads.begins hHead fun _ => rfl

end Program

end Highlighter.Pattern
