import Highlighter.Proofs.Pattern.Ways
import Highlighter.Regex

/-! Matching moves forward. Each way through a program leads to a place at or after the one it
starts from; so a match starts at or after the place that is searched from, ends at or after its
start, and both lie between characters of the text. Look-behinds are no exception, since only what
they capture outlives them. -/

namespace Highlighter.Pattern

open Highlighter.Text

theorem reaches_pastFolded_go {expected : List Char} {c d : Cursor}
    (h : pastFolded?.go expected c = some d) : c.Reaches d := by
  induction expected generalizing c with
  | nil =>
    obtain rfl : c = d := by simpa [pastFolded?.go] using h
    exact Cursor.Reaches.refl c
  | cons x expected ih =>
    unfold pastFolded?.go at h
    split at h
    · split at h
      · exact (Cursor.reaches_advance c).trans (ih h)
      · cases h
    · cases h

theorem reaches_pastFolded? {expected : List Char} {c d : Cursor}
    (h : pastFolded? expected c = some d) : c.Reaches d := by
  unfold pastFolded? at h
  split at h
  · cases h
  · exact reaches_pastFolded_go h

theorem reaches_pastCapture? {captures : Captures} {fold : Bool} {c d : Cursor} {groups : List Nat}
    (h : pastCapture? captures fold c groups = some d) : c.Reaches d := by
  induction groups with
  | nil => cases h
  | cons group groups ih =>
    simp only [pastCapture?, Option.or_eq_some_iff, Option.bind_eq_some_iff] at h
    rcases h with ⟨s, -, hHere⟩ | ⟨-, hLater⟩
    · split at hHere
      · exact reaches_pastFolded? hHere
      · exact Cursor.reaches_past? hHere
    · exact ih hLater

namespace Program

theorem Leads.reaches {program : Program} {p q : Progress} (h : Leads program p q) :
    p.place.Reaches q.place := by
  induction h with
  | nothing | anchor | ahead | notAhead | behind | notBehind | never => exact .refl _
  | test => exact Cursor.reaches_advance _
  | text hPast => exact Cursor.reaches_past? hPast
  | backreference hPast => exact reaches_pastCapture? hPast
  | capture _ ih | atomic _ ih | last _ ih | left _ ih | right _ ih => exact ih
  | again _ _ _ ih ihRest | sequence _ _ ih ihRest => exact ih.trans ihRest

variable {program : Program} {c d : Cursor}

theorem reaches_matchFrom (h : program.matchFrom c = some d) : c.Reaches d := by
  obtain ⟨captures, hLeads⟩ := exists_leads_of_matchFrom h
  exact hLeads.reaches

theorem reaches_search {rest : List Char} {s : Span} (h : program.search rest c = some s) :
    c.Reaches s.start ∧ s.start.Reaches s.stop := by
  fun_induction search program rest c with
  | case1 rest c stop hMatch =>
    cases h
    exact ⟨Cursor.Reaches.refl c, reaches_matchFrom hMatch⟩
  | case2 c hNone => cases h
  | case3 c hNone x rest ih =>
    obtain ⟨hStart, hStop⟩ := ih h
    exact ⟨(Cursor.reaches_advance c).trans hStart, hStop⟩

end Program

end Highlighter.Pattern

namespace Highlighter.Regex

open Highlighter.Text Highlighter.Pattern

variable {r : Regex} {c d : Cursor}

theorem reaches_matchAt? (h : r.matchAt? c = some d) : c.Reaches d := by
  unfold matchAt? at h
  split at h
  · exact Program.reaches_matchFrom h
  · cases h

theorem reaches_find? {s : Span} (h : r.find? c = some s) :
    c.Reaches s.start ∧ s.start.Reaches s.stop := by
  unfold find? at h
  split at h
  · exact Program.reaches_search h
  · cases h

end Highlighter.Regex
