import Highlighter.Language.Co
import Highlighter.Proofs.Grammar.Outcome
import Highlighter.Proofs.Pattern.Lexeme
import Highlighter.Proofs.Pattern.Spelling
import Highlighter.Proofs.Scan.Compatible
import Highlighter.Proofs.Scan.Tariff

/-! The patterns of Co: none is broken, alone or among others, and what is known of
the texts that they match. -/

namespace Highlighter.Co

open Idiom Pattern Text

def signatureOpening : String := openingWordsPattern "fun"

/-- What opens the name of a function, up to the parenthesis that follows it. -/
def nameOpening : String := underscoreIdentifier ++ "\\s*\\("

def emptyPatterns : List String :=
  ["", immediateEnd, "$", "\\s*$", "\\s*(\\\x7b|$)", "[(]|$", "[ ]*(?=(" ++ doctagWords ++ "):)"]

/-- A number of bytes that a pattern matches at least. -/
def width (pattern : String) : Nat :=
  if emptyPatterns.contains pattern then 0 else if ["//", "fun"].contains pattern then 2 else 1

/-- Patterns of a signature that match nothing within a word. -/
def wordless : List String := ["<", "\\(", "/\\*", "//", "[(]|$"]

/-- A pattern is not broken, names no groups, and matches no less than its width,
outside of words if it is to. -/
def sound (pattern : String) : Bool :=
  let spelled := spellOut 0 false pattern.toList
  !namesGroups false spelled && (compile ⟨false, true⟩ spelled).toOption.any fun program =>
    width pattern ≤ program.breadth && (!wordless.contains pattern || program.avoidsWords)

theorem keywordTable_pattern (v : Version) : ∀ rule ∈ (grammar v).effective,
    ∀ words ∈ rule.settings.keywordTable, words.pattern = none := by
  cases v <;> decide +kernel

/-- The patterns of a machine are sound. -/
structure Sound (m : Machine) : Prop where
  caseInsensitive : m.caseInsensitive = false
  regexes : ∀ r ∈ m.regexes, sound r.pattern = true

/-! ### The programs of some patterns -/

theorem compile_identifier :
    compile ⟨false, true⟩ (spellOut 0 false underscoreIdentifier.toList) =
      .ok .word := by
  decide +kernel

theorem compile_nameOpening : compile ⟨false, true⟩ (spellOut 0 false nameOpening.toList) =
    .ok (.sequence (.test wordStart) (.sequence (.repeated ⟨0, none, true⟩ (.test wordChar))
      (.sequence (.repeated ⟨0, none, true⟩ (.test (.ofClass ⟨.property .space, false⟩)))
        (.test (.char '('))))) := by
  decide +kernel

theorem spelling_signatureOpening :
    (compile ⟨false, true⟩ (spellOut 0 false signatureOpening.toList)).toOption.map
      (·.spelling) = some ['f', 'u', 'n'] := by
  decide +kernel

/-! ### Machines whose patterns are sound -/

/-- The patterns of the versions, and those that a text may be searched by beside them. -/
def allPatterns : List String :=
  ("" :: defaultKeywordPattern :: Version.all.flatMap fun v => (grammar v).patterns).eraseDups

theorem sound_allPatterns : allPatterns.all sound = true := by decide +kernel

theorem sound_of_mem {pattern : String} (h : pattern = "" ∨ pattern = defaultKeywordPattern ∨
    ∃ v, pattern ∈ (grammar v).patterns) : sound pattern = true := by
  refine List.all_eq_true.1 sound_allPatterns pattern (List.mem_eraseDups.2 ?_)
  rcases h with rfl | rfl | ⟨v, hPattern⟩
  · simp
  · simp
  · have hVersion : v ∈ Version.all := by cases v <;> decide
    refine List.mem_cons_of_mem _ (List.mem_cons_of_mem _ ?_)
    exact List.mem_flatMap.2 ⟨v, hVersion, hPattern⟩

theorem sound_of_mem_regexes {v : Version} {r : Regex} (h : r ∈ (grammar v).regexes) :
    r.ignoreCase = false ∧ sound r.pattern = true := by
  obtain ⟨hCase, hPattern | ⟨rule, hRule, words, hWords, hPattern⟩⟩ := Grammar.mem_regexes h
  · exact ⟨hCase, sound_of_mem (.inr (.inr ⟨v, hPattern⟩))⟩
  · rw [keywordTable_pattern v rule hRule words hWords, Option.getD_none] at hPattern
    exact ⟨hCase, sound_of_mem (.inr (.inl hPattern))⟩

theorem exists_program {pattern : String} (h : sound pattern = true) :
    namesGroups false (asciiClasses pattern).toList = false ∧
    ∃ program, compile ⟨false, true⟩ (asciiClasses pattern).toList = .ok program ∧
      width pattern ≤ program.breadth ∧
        (pattern ∈ wordless → program.avoidsWords = true) := by
  unfold sound at h
  rw [toList_asciiClasses]
  obtain ⟨hNames, hProgram⟩ := Bool.and_eq_true_iff.1 h
  refine ⟨Bool.not_eq_true' _ ▸ hNames, ?_⟩
  cases hCompile : compile ⟨false, true⟩ (spellOut 0 false pattern.toList) with
  | error e =>
    rw [hCompile] at hProgram
    cases hProgram
  | ok program =>
    rw [hCompile] at hProgram
    obtain ⟨hWidth, hWordless⟩ := Bool.and_eq_true_iff.1 hProgram
    refine ⟨program, rfl, of_decide_eq_true hWidth, fun hMem => ?_⟩
    simpa [hMem] using hWordless

/-- A pattern that names no groups is not broken by itself either. -/
theorem fault?_eq_none {r : Regex} (hCase : r.ignoreCase = false) (h : sound r.pattern = true) :
    r.fault? = none := by
  obtain ⟨hNames, program, hProgram, -⟩ := exists_program h
  unfold Regex.fault?
  rw [r.program_eq, hCase, compile_eq_of_not_namesGroups hNames false true, hProgram]

theorem compile_of_assemble_eq_ok {v : Version} {m : Machine} (h : (grammar v).assemble = .ok m) :
    (grammar v).compile = .ok m ∧ Sound m := by
  have hTables := (grammar v).assemble_cases
  rw [h] at hTables
  obtain ⟨m', hEq, -, -, hRegexes, -⟩ | ⟨e, hEq, -⟩ := hTables
  · cases hEq
    have hSound : ∀ r ∈ m.allRegexes, r.ignoreCase = false ∧ sound r.pattern = true := by
      rw [hRegexes]
      exact fun r hr => sound_of_mem_regexes hr
    refine ⟨?_, ?_,
      fun r hr => (hSound r (List.mem_append_left _ (Array.mem_toList_iff.2 hr))).2⟩
    · rw [Grammar.compile_of_assemble_eq_ok h]
      obtain ⟨hNone, -⟩ | ⟨before, r, after, fault, hAll, -, hBroken, -⟩ :=
        Grammar.fault?_cases m
      · rw [hNone]
      · obtain ⟨hCase, hPattern⟩ := hSound r (by simp [hAll])
        rw [fault?_eq_none hCase hPattern] at hBroken
        cases hBroken
    · obtain ⟨b, os, hComplete, rfl⟩ := Grammar.complete_of_assemble_eq_ok h
      rfl
  · cases hEq

namespace Sound

variable {m : Machine} (h : Sound m)
include h

theorem pattern (regex : Nat) : sound (m.pattern regex) = true := by
  unfold Machine.pattern
  cases hRegex : m.regexes[regex]? with
  | none => exact sound_of_mem (.inl rfl)
  | some r => exact h.regexes r (Array.mem_of_getElem? hRegex)

/-- Where no mode ends with the one around it, all ends are patterns of the grammar. -/
theorem compatible (hAlone : m.EndsAlone) : m.Compatible where
  joins pattern hJoins := by
    obtain ⟨around, parent, id, own, -, -, hWith, -⟩ := hJoins
    rw [(hAlone.mode id).1] at hWith
    cases hWith
  names r hr hNames := by
    rw [h.caseInsensitive, (exists_program (h.regexes r hr)).1] at hNames
    cases hNames

variable {pattern : String} {lexeme : Span}

theorem matchFrom {program : Program}
    (hProgram : compile ⟨false, true⟩ (spellOut 0 false pattern.toList) = .ok program)
    (hMatch : m.Matches pattern lexeme) : program.matchFrom lexeme.start = some lexeme.stop := by
  obtain ⟨program', hProgram', hStop⟩ := hMatch
  rw [h.caseInsensitive, toList_asciiClasses, hProgram] at hProgram'
  cases hProgram'
  exact hStop

theorem width_le (hSound : sound pattern = true) (hMatch : m.Matches pattern lexeme) :
    lexeme.start.offset + width pattern ≤ lexeme.stop.offset := by
  obtain ⟨-, program, hProgram, hWidth, -⟩ := exists_program hSound
  rw [toList_asciiClasses] at hProgram
  have hBreadth := Program.breadth_le (h.matchFrom hProgram hMatch)
  omega

theorem wordBytes_eq_zero (hSound : sound pattern = true) (hWordless : pattern ∈ wordless)
    (hMatch : m.Matches pattern lexeme) : lexeme.start.wordBytes = 0 := by
  obtain ⟨-, program, hProgram, -, hAvoids⟩ := exists_program hSound
  rw [toList_asciiClasses] at hProgram
  exact Program.wordBytes_eq_zero (hAvoids hWordless) (h.matchFrom hProgram hMatch)

theorem signatureOpening (hMatch : m.Matches signatureOpening lexeme) :
    3 ≤ lexeme.start.wordBytes := by
  obtain ⟨program, hProgram, hSpelling⟩ := Option.map_eq_some_iff.1 spelling_signatureOpening
  cases hCompile : compile ⟨false, true⟩ (spellOut 0 false Co.signatureOpening.toList) with
  | error e =>
    rw [hCompile] at hProgram
    cases hProgram
  | ok program' =>
    rw [hCompile] at hProgram
    cases hProgram
    have hPrefix := Program.spelling_of_matchFrom (h.matchFrom hCompile hMatch)
    rw [hSpelling] at hPrefix
    exact Cursor.wordBytes_ge_of_prefix hPrefix (by decide)

theorem nameOpening (hMatch : m.Matches nameOpening lexeme) :
    ∃ x, lexeme.start.next? = some x ∧ wordStart.has x = true := by
  obtain ⟨r, hRun, -⟩ := Option.map_eq_some_iff.1 (h.matchFrom compile_nameOpening hMatch)
  simp only [Program.run] at hRun
  split at hRun
  · next x hNext =>
    split at hRun
    · next hStart => exact ⟨x, hNext, hStart⟩
    · cases hRun
  · cases hRun

theorem exists_matches_identifier {c : Cursor} {x : Char} (hNext : c.next? = some x)
    (hStart : wordStart.has x = true) : ∃ stop, m.Matches underscoreIdentifier ⟨c, stop⟩ := by
  obtain ⟨stop, hMatch, -⟩ := Program.matchFrom_word hNext hStart
  refine ⟨stop, .word, ?_, hMatch⟩
  rw [h.caseInsensitive, toList_asciiClasses, compile_identifier]

theorem identifier (hMatch : m.Matches underscoreIdentifier lexeme) :
    lexeme.stop.offset = lexeme.start.offset + lexeme.start.wordBytes ∧
      lexeme.stop.wordBytes = 0 := by
  have hWord := h.matchFrom compile_identifier hMatch
  obtain ⟨r, hRun, -⟩ := Option.map_eq_some_iff.1 hWord
  simp only [Program.word, Program.run] at hRun
  split at hRun
  · next x hNext =>
    split at hRun
    · next hStart =>
      obtain ⟨stop, hMatch', hOffset, hNone⟩ := Program.matchFrom_word hNext hStart
      rw [hWord] at hMatch'
      cases hMatch'
      exact ⟨hOffset, hNone⟩
    · cases hRun
  · cases hRun

end Sound

end Highlighter.Co
