import Highlighter.Proofs.Grammar.Accounting

/-! When a grammar compiles, and why it does not. -/

namespace Highlighter.Grammar

open Builder

variable {g : Grammar}

/-- Assembling a grammar fills the tables with what it asks for, or tells what is wrong with
that. -/
theorem assemble_cases (g : Grammar) :
    (∃ m, g.assemble = .ok m ∧ g.Resolved ∧ g.Fits ∧ m.allRegexes = g.regexes ∧
      m.modes.size = g.effective.length) ∨
    ∃ e, g.assemble = .error e ∧ Blames g (.ofGrammar g) e := by
  have hEmpty : Holds g 0 ⟨g.name, g.caseInsensitive, #[], #[], #[]⟩ := by
    refine ⟨rfl, rfl, rfl, ?_, ?_, fun table => ?_, nofun⟩
    · simp
    · simp
    · cases table <;> exact Nat.zero_le _
  have hAccounts := accounts_enterGrammar g hEmpty
  rw [Load.zero_add] at hAccounts
  unfold assemble
  rcases hAccounts with ⟨⟨⟩, b, hRuns, -, hHolds⟩ | ⟨e, hFails, hBlames⟩
  · rw [show (enterGrammar g).run _ = _ from hRuns]
    refine .inl ⟨_, rfl, hHolds.known, hHolds.fits, ?_, hHolds.modes⟩
    rw [Machine.allRegexes, hHolds.regexes, hHolds.keywordSets]
    rfl
  · rw [hFails]
    exact .inr ⟨e, rfl, hBlames⟩

theorem not_fits_of_blames {e : Error} (h : Blames g (.ofGrammar g) e) :
    ¬ (g.Resolved ∧ g.Fits) := by
  rintro ⟨hResolved, hFits⟩
  cases h with
  | unknown hAsked hUnknown => exact hUnknown (hResolved _ hAsked)
  | @tooLarge table hLarge =>
    have hFit := hFits table
    cases table <;> exact absurd hLarge (Nat.not_lt.2 hFit)

theorem exists_of_blames {e : Error} (h : Blames g (.ofGrammar g) e) :
    (∃ name, g.Refers name ∧ ¬ g.Knows (.named name) ∧ e = .unknownMode g.name name) ∨
      ∃ table, tableLimit < g.size table ∧ e = .tooLarge g.name table := by
  cases h with
  | @unknown name hAsked hUnknown => exact .inl ⟨name, hAsked, hUnknown, rfl⟩
  | @tooLarge table hLarge =>
    refine .inr ⟨table, ?_, rfl⟩
    cases table <;> exact hLarge

/-- The patterns of a machine are sound, or the first broken one is reported as it is written. -/
theorem fault?_cases (m : Machine) :
    (m.fault? = none ∧ ∀ r ∈ m.allRegexes, r.fault? = none) ∨
    ∃ before r after fault, m.allRegexes = before ++ r :: after ∧
      (∀ s ∈ before, s.fault? = none) ∧
      r.fault? = some fault ∧ m.fault? = some (.invalidPattern r.pattern fault) := by
  cases hFault : m.fault? with
  | none =>
    refine .inl ⟨rfl, fun r hr => ?_⟩
    have hNone := List.findSome?_eq_none_iff.1 hFault r hr
    exact Option.map_eq_none_iff.1 hNone
  | some e =>
    obtain ⟨before, r, after, hAll, hFound, hBefore⟩ := List.findSome?_eq_some_iff.1 hFault
    obtain ⟨fault, hBroken, rfl⟩ := Option.map_eq_some_iff.1 hFound
    refine .inr ⟨before, r, after, fault, hAll, fun s hs => ?_, hBroken, rfl⟩
    exact Option.map_eq_none_iff.1 (hBefore s hs)

/-- A grammar without a fault compiles. -/
theorem exists_compile_eq_ok (hResolved : g.Resolved) (hFits : g.Fits) (hSound : g.Sound) :
    ∃ m, g.compile = .ok m := by
  rcases g.assemble_cases with ⟨m, hAssemble, -, -, hRegexes, -⟩ | ⟨e, -, hBlames⟩
  · refine ⟨m, ?_⟩
    have hCompile := compile_of_assemble_eq_ok hAssemble
    rcases fault?_cases m with ⟨hNone, -⟩ | ⟨before, r, after, fault, hAll, -, hBroken, -⟩
    · rwa [hNone] at hCompile
    · have hMem : r ∈ g.regexes := by
        rw [← hRegexes, hAll]
        exact List.mem_append_right before List.mem_cons_self
      cases hBroken.symm.trans (hSound r hMem)
  · exact absurd ⟨hResolved, hFits⟩ (not_fits_of_blames hBlames)

/-- A grammar compiles if all names that its modes refer to are known, no table is too large and no
pattern is broken by itself. A name or a table is at fault before any pattern is; of the patterns,
it is the first broken one in the order of the tables, as it is written. -/
theorem compile_outcome (g : Grammar) :
    ((∃ m, g.compile = .ok m) ↔ g.Resolved ∧ g.Fits ∧ g.Sound) ∧
    (¬ (g.Resolved ∧ g.Fits) →
      (∃ name, g.Refers name ∧ ¬ g.Knows (.named name) ∧
        g.compile = .error (.unknownMode g.name name)) ∨
      ∃ table, tableLimit < g.size table ∧ g.compile = .error (.tooLarge g.name table)) ∧
    (g.Resolved ∧ g.Fits → ¬ g.Sound →
      ∃ before r after fault, g.regexes = before ++ r :: after ∧
        (∀ s ∈ before, s.fault? = none) ∧
        r.fault? = some fault ∧ g.compile = .error (.invalidPattern r.pattern fault)) ∧
    ∀ m, g.compile = .ok m →
      m.allRegexes = g.regexes ∧ m.modes.size = g.effective.length := by
  rcases g.assemble_cases with
    ⟨m, hAssemble, hResolved, hFits, hRegexes, hModes⟩ | ⟨e, hAssemble, hBlames⟩
  · have hCompile := compile_of_assemble_eq_ok hAssemble
    -- All tables have been filled, so only a broken pattern can still be in the way.
    rcases fault?_cases m with
      ⟨hNone, hSound⟩ | ⟨before, r, after, fault, hAll, hBefore, hBroken, hFault⟩
    · rw [hNone] at hCompile
      rw [hRegexes] at hSound
      refine ⟨⟨fun _ => ⟨hResolved, hFits, hSound⟩, fun _ => ⟨m, hCompile⟩⟩,
        ?_, ?_, ?_⟩
      · exact fun h => absurd ⟨hResolved, hFits⟩ h
      · exact fun _ h => absurd hSound h
      · intro m' hOk
        cases hCompile.symm.trans hOk
        exact ⟨hRegexes, hModes⟩
    · rw [hFault] at hCompile
      rw [hRegexes] at hAll
      have hMem : r ∈ g.regexes := by
        rw [hAll]
        exact List.mem_append_right before List.mem_cons_self
      refine ⟨⟨?_, ?_⟩, ?_, ?_, ?_⟩
      · rintro ⟨m', hOk⟩
        cases hCompile.symm.trans hOk
      · rintro ⟨-, -, hSound⟩
        cases hBroken.symm.trans (hSound r hMem)
      · exact fun h => absurd ⟨hResolved, hFits⟩ h
      · exact fun _ _ => ⟨before, r, after, fault, hAll, hBefore, hBroken, hCompile⟩
      · intro m' hOk
        cases hCompile.symm.trans hOk
  · have hCompile := compile_of_assemble_eq_error hAssemble
    -- What stops the filling of the tables is reported before any pattern is checked.
    have hNot := not_fits_of_blames hBlames
    refine ⟨⟨?_, ?_⟩, ?_, ?_, ?_⟩
    · rintro ⟨m', hOk⟩
      cases hCompile.symm.trans hOk
    · rintro ⟨hResolved, hFits, -⟩
      exact absurd ⟨hResolved, hFits⟩ hNot
    · intro _
      rw [hCompile]
      exact (exists_of_blames hBlames).imp
        (fun ⟨name, hRefers, hUnknown, hEq⟩ => ⟨name, hRefers, hUnknown, congrArg _ hEq⟩)
        fun ⟨table, hLarge, hEq⟩ => ⟨table, hLarge, congrArg _ hEq⟩
    · exact fun h => absurd h hNot
    · intro m' hOk
      cases hCompile.symm.trans hOk

/-- A mode whose variants all have lists of their own, so that the one of the mode does not
count. -/
def overridden : Grammar where
  name := "overridden"
  contains := [.inline (.mk { closing := some ";" } (some [.named "nowhere"])
    [.containing { opening := some "a" } [.named "self"], .containing { opening := some "b" } []])]

/-- A pattern that is broken, and a name that is not known. -/
def dangling : Grammar where
  name := "dangling"
  contains := [.inline (.containing { opening := some "(" } [.named "nowhere"])]

/-- Two broken patterns. The one of the mode within another comes first in the table. -/
def unbalanced : Grammar where
  name := "unbalanced"
  contains :=
    [.inline (.containing { opening := some "a" } [.inline (.ofSettings { opening := some "(" })]),
      .inline (.ofSettings { opening := some ")" })]

theorem compile_outcome_cases :
    (∃ m, overridden.compile = .ok m) ∧
    ((∃ name, dangling.Refers name ∧ ¬ dangling.Knows (.named name) ∧
        dangling.compile = .error (.unknownMode dangling.name name)) ∨
      ∃ table, tableLimit < dangling.size table ∧
        dangling.compile = .error (.tooLarge dangling.name table)) ∧
    ∃ before r after fault, unbalanced.regexes = before ++ r :: after ∧
      (∀ s ∈ before, s.fault? = none) ∧
      r.fault? = some fault ∧ unbalanced.compile = .error (.invalidPattern r.pattern fault) := by
  refine ⟨?_, ?_, ?_⟩
  · exact (compile_outcome overridden).1.2 (by decide +kernel)
  · exact (compile_outcome dangling).2.1 (by decide +kernel)
  · exact (compile_outcome unbalanced).2.2.1 (by decide +kernel) (by decide +kernel)

end Highlighter.Grammar
