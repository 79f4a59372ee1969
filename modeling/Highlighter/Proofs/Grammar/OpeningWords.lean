import Highlighter.Proofs.Pattern.OpeningWords
import Highlighter.Proofs.Scan.Word

/-! Modes that open by words. Whatever the words are and in whatever order they are listed, such a
mode opens where one of them stands alone: where neither a word character nor a dot is next to
it. -/

namespace Highlighter

open Text Pattern

theorem ne_nil_of_mem_words {text word : List Char} (h : word ∈ Text.words text) :
    word ≠ [] := by
  have hGo : ∀ (rest sofar : List Char), ∀ word ∈ words.go sofar rest, word ≠ [] := by
    intro rest
    induction rest with
    | nil =>
      intro sofar word hWord
      rw [words.go] at hWord
      split at hWord
      · cases hWord
      · simp_all
    | cons c rest ih =>
      intro sofar word hWord
      rw [words.go] at hWord
      split at hWord
      · split at hWord
        · exact ih _ _ hWord
        · rcases List.mem_cons.1 hWord with rfl | hWord
          · simpa
          · exact ih _ _ hWord
      · exact ih _ _ hWord
  exact hGo text [] word h

theorem toList_openingWordsPattern (words : String) : (openingWordsPattern words).toList =
    '(' :: '?' :: '<' :: '!' :: '\\' :: '.' :: ')' :: '\\' :: 'b' :: '(' ::
      (['|'].intercalate ((splitWords words).map String.toList) ++
        ")(?!\\.)(?=\\b|\\s)".toList) := by
  rw [openingWordsPattern, String.toList_append, String.toList_append, String.toList_intercalate]
  rfl

theorem spellOut_openingWordsPattern {words : String}
    (hWords : ∀ word ∈ splitWords words, ∀ c ∈ word.toList, isWordChar c = true) :
    spellOut 0 false (openingWordsPattern words).toList =
      spelledOpening ((splitWords words).map String.toList) := by
  have hNone : ∀ c ∈ ['\\', '[', ']'], c ≠ '|' ∧ isWordChar c = false := by
    simp only [List.forall_mem_cons, List.not_mem_nil, false_implies, implies_true]
    decide
  have hPlain : ∀ c ∈ ['|'].intercalate ((splitWords words).map String.toList),
      c ∉ ['\\', '[', ']'] := by
    intro c hc hMem
    rcases mem_intercalate hc with hBar | ⟨word, hWord, hChar⟩
    · exact (hNone c hMem).1 hBar
    · obtain ⟨entry, hEntry, rfl⟩ := List.mem_map.1 hWord
      exact Bool.false_ne_true ((hNone c hMem).2.symm.trans (hWords entry hEntry c hChar))
  have hEnd : spellOut 0 false ")(?!\\.)(?=\\b|\\s)".toList = ')' :: behindWords := by decide
  have hStart : ∀ cs, spellOut 0 false
      ('(' :: '?' :: '<' :: '!' :: '\\' :: '.' :: ')' :: '\\' :: 'b' :: '(' :: cs) =
      beforeWords ++ '(' :: spellOut 0 false cs := fun _ => rfl
  rw [toList_openingWordsPattern, hStart, spellOut_append_of_plain hPlain, hEnd, spelledOpening]
  simp

/-- Words open a mode where they stand alone. The pattern of some words compiles, to the same
program whether it stands alone or is one of the terminators of a mode, and matches a stretch of a
text if and only if this is one of the words and stands alone. It is the pattern on which each mode
opens that a grammar declares to open by these words, if the grammar regards case. -/
theorem Regex.matchAt?_openingWords {words : String} (hNe : splitWords words ≠ [])
    (hWords : ∀ word ∈ splitWords words, ∀ x ∈ word.toList, isWordChar x = true) :
    let r := Regex.ofPattern (openingWordsPattern words) false
    (∃ program, r.program = .ok program ∧
      ∀ captureAll,
        Pattern.compile ⟨false, captureAll⟩ (asciiClasses r.pattern).toList = .ok program) ∧
    (∀ c length, (∃ d, r.matchAt? c = some d ∧ d.offset = c.offset + length) ↔
      ∃ word ∈ splitWords words,
        byteLength word.toList = length ∧ c.StandsAlone word.toList) ∧
    ∀ (g : Grammar) m, g.compile = .ok m → g.caseInsensitive = false →
      ∃ place, m.IsImage g place ∧ ∀ a rule, a ≠ .root → g.modeAt? a = some rule →
        rule.settings.openingWords = some words →
        ∃ regex, (m.mode (place a)).opening = some regex ∧ m.regexes[regex]? = some r := by
  intro r
  let listed := (splitWords words).map String.toList
  have hListed : listed ≠ [] := by simpa [listed] using hNe
  have hFilled : ∀ word ∈ listed, word ≠ [] := by
    intro word hWord
    obtain ⟨entry, hEntry, rfl⟩ := List.mem_map.1 hWord
    obtain ⟨chars, hMem, rfl⟩ := List.mem_map.1 hEntry
    rw [String.toList_ofList]
    exact ne_nil_of_mem_words hMem
  have hChars : ∀ word ∈ listed, ∀ x ∈ word, isWordChar x = true := by
    simpa [listed] using hWords
  -- The pattern is never computed from its text: it is read off from the way in
  -- which it was put together.
  have hSpelled : spellOut 0 false r.pattern.toList = spelledOpening listed :=
    spellOut_openingWordsPattern hWords
  have hCompile :
      ∀ captureAll, Pattern.compile ⟨false, captureAll⟩ (asciiClasses r.pattern).toList =
        .ok (.opening listed) := by
    intro captureAll
    rw [toList_asciiClasses, hSpelled]
    exact compile_spelledOpening hListed hFilled hChars captureAll
  have hProgram : r.program = .ok (.opening listed) := hCompile false
  refine ⟨⟨_, hProgram, hCompile⟩, fun c length => ?_, fun g m hCompiled hCase => ?_⟩
  · have hMatch : r.matchAt? c = (Program.opening listed).matchFrom c := by
      rw [Regex.matchAt?, hProgram]
    rw [hMatch, Program.exists_matchFrom_opening_iff hFilled hChars]
    simp [listed]
  · obtain ⟨place, hImage⟩ := Grammar.exists_isImage hCompiled
    refine ⟨place, hImage, fun a rule ha hRule hOpening => ?_⟩
    have hPlace := (hImage.depicts hRule).1.opening
    simp only [ha, decide_false, Bool.false_eq_true, if_false, ModeSettings.openingPattern,
      hOpening, hCase, PlaceOf, Option.map_some, Option.map_eq_some_iff] at hPlace
    exact hPlace

/-- The longer of two words is matched even if the shorter one is listed first, also between
characters beyond ASCII. -/
theorem Regex.matchAt?_in_int : splitWords "in int" ≠ [] ∧
    (∀ word ∈ splitWords "in int", ∀ x ∈ word.toList, isWordChar x = true) ∧
    ∃ d, (Regex.ofPattern (openingWordsPattern "in int") false).matchAt?
        (Cursor.start "éint€".toList).advance = some d ∧ d.offset = 2 + 3 := by
  have hNe : splitWords "in int" ≠ [] := by decide +kernel
  have hAll : (splitWords "in int").all (·.toList.all isWordChar) := by decide +kernel
  have hWords : ∀ word ∈ splitWords "in int", ∀ x ∈ word.toList, isWordChar x = true := by
    simpa only [List.all_eq_true] using hAll
  obtain ⟨-, hMatches, -⟩ := Regex.matchAt?_openingWords hNe hWords
  have hMember : "int" ∈ splitWords "in int" := by decide +kernel
  refine ⟨hNe, hWords, (hMatches _ 3).2 ⟨"int", hMember, by decide, ['€'], rfl, ?_, ?_⟩⟩
  · intro x hx
    cases hx
    decide
  · intro x hx
    cases hx
    decide

end Highlighter
