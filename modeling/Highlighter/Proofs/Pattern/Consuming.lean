import Highlighter.Proofs.Pattern.Forward

/-! Patterns that never match the empty text. `Program.consumes` reads off a program that each of
its matches covers some text; it may miss programs of which this holds for other reasons. -/

namespace Highlighter.Pattern

open Highlighter.Text

theorem offset_lt_past? {c d : Cursor} {x : Char} {expected : List Char}
    (h : c.past? (x :: expected) = some d) : c.offset < d.offset := by
  unfold Cursor.past? at h
  split at h
  · next hNext =>
    have hLt := Cursor.offset_lt_advance (Cursor.atEnd_of_next? hNext)
    have hLe := (Cursor.reaches_past? h).offset_le
    omega
  · cases h

namespace Program

def consumes : Program → Bool
  | fail => true
  | test _ => true
  | text chars => !chars.isEmpty
  | capture _ body => consumes body
  | atomic body => consumes body
  | repeated q body => 0 < q.lower && consumes body
  | sequence first second => consumes first || consumes second
  | choice first second => consumes first && consumes second
  | _ => false

theorem Leads.offset_lt {program : Program} {p q : Progress} (h : Leads program p q)
    (hConsumes : program.consumes = true) : p.place.offset < q.place.offset := by
  induction h with
  | nothing | anchor | backreference | ahead | notAhead | behind | notBehind => cases hConsumes
  | test hNext => exact Cursor.offset_lt_advance (Cursor.atEnd_of_next? hNext)
  | @text chars _ _ hPast =>
    cases chars with
    | nil => cases hConsumes
    | cons x chars => exact offset_lt_past? hPast
  | capture _ ih | atomic _ ih => exact ih hConsumes
  | never hLower =>
    simp only [consumes, hLower] at hConsumes
    cases hConsumes
  | last _ ih =>
    simp only [consumes, Bool.and_eq_true] at hConsumes
    exact ih hConsumes.2
  | again _ _ rest ih =>
    simp only [consumes, Bool.and_eq_true] at hConsumes
    exact Nat.lt_of_lt_of_le (ih hConsumes.2) rest.reaches.offset_le
  | sequence h rest ih ihRest =>
    rcases Bool.or_eq_true_iff.1 hConsumes with hFirst | hSecond
    · exact Nat.lt_of_lt_of_le (ih hFirst) rest.reaches.offset_le
    · exact Nat.lt_of_le_of_lt h.reaches.offset_le (ihRest hSecond)
  | left _ ih => exact ih (Bool.and_eq_true_iff.1 hConsumes).1
  | right _ ih => exact ih (Bool.and_eq_true_iff.1 hConsumes).2

theorem matchFrom_ne_self {program : Program} (hConsumes : program.consumes = true) (c : Cursor) :
    program.matchFrom c ≠ some c := by
  intro h
  obtain ⟨captures, hLeads⟩ := exists_leads_of_matchFrom h
  exact Nat.lt_irrefl _ (hLeads.offset_lt hConsumes)

end Program

end Highlighter.Pattern
