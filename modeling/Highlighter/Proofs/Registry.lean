import Highlighter.Proofs.Scan.Compatible
import Highlighter.Registry

/-! What highlighting a text in a registered language may fail on. Where the patterns of the
language go together, it is never one of these. -/

namespace Highlighter.Registry

open Text Pattern

variable {r : Registry} {m : Machine}

theorem tokenize_of_highlightBy_eq_error {language : String} {text : List Char} {merge : Bool}
    {n : Nat} {fault : PatternError}
    (h : highlightBy m language text merge = .error (.tokenize (.terminators n fault))) :
    m.tokenize (String.ofList text) = .error (.terminators n fault) := by
  unfold highlightBy at h
  split at h
  · cases h
  · cases h
  · next e hTokenize =>
    cases h
    exact hTokenize

/-- Highlighting in a language that is known fails by a broken pattern only if scanning the text
does. -/
theorem exists_of_highlight_eq_error {content : String} {request : Request} {n : Nat}
    {fault : PatternError} (hFind : r.find? (lowercase request.language) = some m)
    (h : r.highlight content request = .error (.tokenize (.terminators n fault))) :
    ∃ text, m.tokenize text = .error (.terminators n fault) := by
  unfold highlight at h
  dsimp only at h
  rw [hFind] at h
  exact ⟨_, tokenize_of_highlightBy_eq_error h⟩

/-- A grammar whose patterns go together never fails by a broken one in the middle of a text,
whether the text is scanned or highlighted in a registry that knows the grammar. -/
theorem ne_terminators_of_compatible {g : Grammar} {m : Machine} (hCompile : g.compile = .ok m)
    (hCompatible : m.Compatible) (n : Nat) (fault : PatternError) :
    (∀ (t : Tokenizer m) (text : String),
      (t.tokenize text).1 ≠ .error (.terminators n fault)) ∧
    ∀ (r : Registry) (content : String) (request : Request),
      r.find? (lowercase request.language) = some m →
        r.highlight content request ≠ .error (.tokenize (.terminators n fault)) := by
  have hTokenize : ∀ (t : Tokenizer m) (text : String),
      (t.tokenize text).1 ≠ .error (.terminators n fault) := fun t text =>
    t.tokenize_ne_terminators (Grammar.checked_of_compile_eq_ok hCompile) hCompatible text n fault
  refine ⟨hTokenize, fun r content request hFind hError => ?_⟩
  obtain ⟨text, hText⟩ := exists_of_highlight_eq_error hFind hError
  exact hTokenize (.fresh m) text hText

/-- Assignments in brackets, where a value ends on a pattern of its own or with the brackets. -/
def assignments (closing : String) : Grammar where
  name := "assignments"
  contains :=
    [.inline (.containing { category := some .metadata, opening := some "<", closing := some ">" }
    [.inline (.ofSettings
      { category := some .title, opening := some "=", closing := some closing,
        closesWithParent := some true })])]

/-- A value ends on a semicolon. -/
def lines : Machine := (assignments "(?x); # semicolon\n").compile.toOption.get (by decide +kernel)

/-- The comment behind the semicolon has no end of its own: it swallows the rest of what the
pattern is put together with. -/
def comments : Machine := (assignments "(?x); # semicolon").compile.toOption.get (by decide +kernel)

theorem compatible_lines : lines.Compatible := by
  refine Machine.compatible_of_closed
    [(0, none), (1, some ">"), (2, some "(?:(?x); # semicolon\n)|(?:>)")] ?_ ?_ ?_ ?_
  · decide +kernel
  · decide +kernel
  · decide +kernel
  · decide +kernel

def known : Registry := empty.addMachine "assignments" lines

theorem find?_known : known.find? (lowercase "Assignments") = some lines := by
  have hPlace : known.place? (lowercase "Assignments") = some 0 := by decide +kernel
  have hAliases : lines.aliases = [] := by decide +kernel
  have hMachines : known.machines = #[lines] := by
    unfold known addMachine
    rw [hAliases]
    rfl
  rw [find?, hPlace, hMachines]
  rfl

theorem ne_terminators_lines : lines.Compatible ∧
    ((Tokenizer.fresh lines).tokenize "<a=b;c>").1 ≠ .error (.terminators 1 .unmatchedOpen) ∧
    known.highlight "<a=b;c>" { language := "Assignments" } ≠
      .error (.tokenize (.terminators 1 .unmatchedOpen)) := by
  have hCompile : (assignments "(?x); # semicolon\n").compile = .ok lines :=
    Grammar.eq_ok_get (by decide +kernel)
  have hNe := ne_terminators_of_compatible hCompile compatible_lines 1 .unmatchedOpen
  exact ⟨compatible_lines, hNe.1 _ _, hNe.2 _ _ _ find?_known⟩

/-- Patterns that have been checked one by one need not go together. -/
theorem not_forall_tokenize_ne_terminators :
    ¬ ∀ (g : Grammar) (m : Machine), g.compile = .ok m →
      ∀ (t : Tokenizer m) (text : String) (n : Nat)
      (fault : PatternError), (t.tokenize text).1 ≠ .error (.terminators n fault) := by
  intro h
  have hCompile : (assignments "(?x); # semicolon").compile = .ok comments :=
    Grammar.eq_ok_get (by decide +kernel)
  have hFails : ((Tokenizer.fresh comments).tokenize "<a=b;c>").1 =
      .error (.terminators 1 .unmatchedOpen) := by decide +kernel
  exact h _ _ hCompile _ _ _ _ hFails

end Highlighter.Registry
