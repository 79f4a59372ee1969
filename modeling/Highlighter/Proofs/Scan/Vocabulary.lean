import Highlighter.Proofs.Grammar.Outcome
import Highlighter.Proofs.Pattern.Immediate
import Highlighter.Proofs.Pattern.Runs
import Highlighter.Proofs.Scan.Relevance
import Mathlib.Algebra.BigOperators.Group.Finset.Basic

/-! Grammars that consist of a keyword table alone. The pattern of a word finds the longest runs of
word characters, so that the hits of the table are those runs that it lists. As nothing ends a text
of such a grammar, the hits are its regions, and what they count for is its relevance. -/

namespace Highlighter

open Text Pattern

/-! ### The words of a text -/

namespace Regex

theorem program_defaultKeywordPattern (ignoreCase : Bool) :
    (Regex.ofPattern defaultKeywordPattern ignoreCase).program =
      .ok (.oneOrMore (wordTest ignoreCase)) := by
  have hRead : readTree ⟨ignoreCase, false⟩ (spellOut 0 false defaultKeywordPattern.toList) =
      .ok (.repeated ⟨1, none, true⟩ (.test (wordTest ignoreCase))) := by
    cases ignoreCase <;> exact readTree_eq_ok (by decide +kernel)
  have hInert : (Tree.repeated ⟨1, none, true⟩ (.test (wordTest ignoreCase))).Inert := by
    refine ⟨congrArg _ (Tree.unfold_wordTest ignoreCase false), rfl, fun _ _ => ?_⟩
    cases ignoreCase <;> rfl
  rw [Regex.program_eq, toList_asciiClasses]
  exact compile_of_inert hRead hInert fun _ => by cases ignoreCase <;> rfl

variable {r : Regex} {t : CharTest}

theorem map_run_matchesFrom (hProgram : r.program = .ok (.oneOrMore t)) {searches : Nat}
    {c : Cursor} (hSearches : c.after.length < searches) :
    (r.matchesFrom searches c).map Span.run = runs t.has c.offset c.after := by
  induction searches generalizing c with
  | zero => exact absurd hSearches (Nat.not_lt_zero _)
  | succ searches ih =>
    have hFind : r.find? c = (Program.oneOrMore t).search c.after c := by rw [find?, hProgram]
    rw [matchesFrom, hFind]
    rcases Program.search_oneOrMore (t := t) (c := c) rfl with
      ⟨hNone, hRuns⟩ | ⟨s, hFound, hLt, hRuns⟩
    · rw [hNone, hRuns]
      rfl
    · have hNotEmpty : s.isEmpty = false := by simp [Span.isEmpty, hLt.ne]
      obtain ⟨hStart, hStop⟩ := Program.reaches_search hFound
      have hFewer := (hStart.trans hStop).length_lt (hStart.offset_le.trans_lt hLt)
      rw [hFound, hRuns]
      simp only [hNotEmpty, Bool.false_eq_true, if_false, List.map_cons]
      rw [ih (by omega)]

/-- The matches of a pattern for one or more characters of a kind are the longest runs of them. -/
theorem map_run_allMatches (hProgram : r.program = .ok (.oneOrMore t)) (text : List Char) :
    (r.allMatches text).map Span.run = runs t.has 0 text :=
  map_run_matchesFrom hProgram (Nat.lt_succ_self _)

end Regex

namespace KeywordIndex

variable {k : KeywordIndex}

def listed? (k : KeywordIndex) (run : Run) : Option Hit :=
  (k.get? run.word).map fun data => ⟨run.start, run.stop, k.key run.word, data⟩

theorem hits_eq {t : CharTest} (hProgram : k.regex.program = .ok (.oneOrMore t))
    (text : List Char) : k.hits text = (runs t.has 0 text).filterMap k.listed? := by
  rw [hits, ← Regex.map_run_allMatches hProgram, List.filterMap_map]
  refine List.filterMap_congr fun s hs => ?_
  have hSpans : Span.Succeed (.start text) (k.regex.allMatches text) :=
    Regex.succeed_matchesFrom _ _ _
  have hStop : s.stop.offset = s.run.stop := (Span.after_eq_of_reaches (hSpans.reaches hs).2).2
  rw [hit?, hStop]
  rfl

end KeywordIndex

theorem findSome?_flatMap {α β γ : Type} (p : β → Option γ) (f : α → List β)
    (l : List α) : (l.flatMap f).findSome? p = l.findSome? fun a => (f a).findSome? p := by
  induction l with
  | nil => rfl
  | cons a l ih =>
    rw [List.flatMap_cons, List.findSome?_append, ih, List.findSome?_cons]
    cases (f a).findSome? p <;> rfl

namespace Keywords

/-- What a table says of a word: the first category that lists the word, and the relevance
of its first entry there. -/
def reading? (k : Keywords) (word : String) : Option KeywordData :=
  categories.findSome? fun category => (k.entries category).findSome? fun entry =>
    if (splitRelevance entry).1 = word then some ⟨category, (splitRelevance entry).2⟩ else none

/-- The hit of a word that a table lists. -/
def hit? (k : Keywords) (run : Run) : Option Hit :=
  (k.reading? run.word).map fun data => ⟨run.start, run.stop, run.word, data⟩

variable {k : Keywords}

theorem regex_index (hPattern : k.pattern = none) (ignoreCase : Bool) :
    (k.index ignoreCase).regex = .ofPattern defaultKeywordPattern ignoreCase := by
  rw [index, hPattern]
  rfl

theorem program_index (hPattern : k.pattern = none) (ignoreCase : Bool) :
    (k.index ignoreCase).regex.program = .ok (.oneOrMore (wordTest ignoreCase)) := by
  rw [regex_index hPattern, Regex.program_defaultKeywordPattern]

/-- The first of all entries about a word counts. -/
theorem get?_index (k : Keywords) (word : String) :
    (k.index false).get? word = k.reading? word := by
  show (Dict.ofFirst (k.readings false)).get? word = _
  rw [Dict.get?_ofFirst, List.lookup_eq_findSome?, readings, findSome?_flatMap, reading?]
  refine congrArg (categories.findSome? ·) (funext fun category => ?_)
  rw [List.findSome?_map]
  refine congrArg ((k.entries category).findSome? ·) (funext fun entry => ?_)
  exact if_congr (beq_iff_eq.trans eq_comm) rfl rfl

theorem hits_index (hPattern : k.pattern = none) (text : List Char) :
    (k.index false).hits text = (runs isWordChar 0 text).filterMap k.hit? := by
  rw [KeywordIndex.hits_eq (k.program_index hPattern false), ← has_wordChar]
  refine List.filterMap_congr fun run _ => ?_
  rw [KeywordIndex.listed?, get?_index]
  rfl

end Keywords

/-! ### What words count for -/

namespace Hit

theorem times_eq_count (hits : List Hit) (key : String) :
    Hit.times hits key = (hits.map (·.key)).count key := by
  rw [times, List.count, List.countP_map]
  exact List.countP_congr fun hit _ => by simp

theorem times_counted (hits : List Hit) (key : String) :
    Hit.times (Hit.counted [] hits) key = min hitLimit (Hit.times hits key) := by
  have hNone : Hit.times [] key = 0 := rfl
  have hFilter := congrArg List.length (filter_counted key [] hits)
  rwa [hNone, Nat.sub_zero, List.length_take, ← List.countP_eq_length_filter,
    ← List.countP_eq_length_filter] at hFilter

theorem sum_counted {hits : List Hit} (weight : String → Nat) (keys : Finset String)
    (hWeight : ∀ hit ∈ hits, hit.data.relevance.toNat = weight hit.key)
    (hKeys : ∀ hit ∈ hits, hit.key ∈ keys) :
    ((Hit.counted [] hits).map (·.data.relevance.toNat)).sum =
      ∑ key ∈ keys, min hitLimit (Hit.times hits key) * weight key := by
  have hCounted := (Hit.counted_sublist [] hits).subset
  calc ((Hit.counted [] hits).map (·.data.relevance.toNat)).sum
    _ = (((Hit.counted [] hits).map (·.key)).map weight).sum := by
      rw [List.map_map]
      exact congrArg List.sum (List.map_congr_left fun hit hHit => hWeight hit (hCounted hHit))
    _ = ∑ key ∈ ((Hit.counted [] hits).map (·.key)).toFinset,
          ((Hit.counted [] hits).map (·.key)).count key * weight key :=
      Finset.sum_list_map_count _ _
    _ = ∑ key ∈ keys, ((Hit.counted [] hits).map (·.key)).count key * weight key := by
      refine Finset.sum_subset (fun key hKey => ?_) fun key _ hKey => ?_
      · obtain ⟨hit, hHit, rfl⟩ := List.mem_map.1 (List.mem_toFinset.1 hKey)
        exact hKeys hit (hCounted hHit)
      · rw [List.count_eq_zero_of_not_mem fun hMem => hKey (List.mem_toFinset.2 hMem),
          Nat.zero_mul]
    _ = ∑ key ∈ keys, min hitLimit (Hit.times hits key) * weight key := by
      simp only [← times_eq_count, times_counted]

end Hit

/-! ### Text without terminators -/

/-- The region of a word that lies in no other region. -/
def Hit.region (hit : Hit) : Region := ⟨hit.data.category, hit.start, hit.stop, 0⟩

theorem TerminatorSet.find?_nil (c : Cursor) : TerminatorSet.find? [] c = none := by
  unfold find?
  generalize c.after = rest
  induction rest generalizing c with
  | nil => rfl
  | cons x rest ih => exact ih c.advance

namespace Scan

variable {m : Machine}

theorem chars_toEnd (text : List Char) :
    (Span.mk (.start text) (Cursor.start text).toEnd).chars = text := by
  have hReaches := Cursor.reaches_toEnd (.start text)
  have hAfter :=
    (Span.after_eq_of_reaches (s := ⟨.start text, (Cursor.start text).toEnd⟩) hReaches).1
  rw [Cursor.toEnd_after, List.append_nil] at hAfter
  exact hAfter.symm

theorem finish_start (m : Machine) (text : List Char) : (start text).finish m =
    ((Output.emitHits {} 0 (m.hits Machine.root text)).emit (byteLength text) none).finish := by
  have hEnd : (Cursor.start text).toEnd.offset = byteLength text := Cursor.offset_toEnd (.refl _)
  have hOutput : ((start text).flush m Machine.root (Cursor.start text).toEnd).output =
      (Output.emitHits {} 0 (m.hits Machine.root text)).emit (byteLength text) none := by
    unfold flush
    split
    · next hLe =>
      have hNil : text = [] := byteLength_eq_zero (Nat.le_zero.1 (hEnd ▸ hLe))
      rw [hNil, m.hits_nil]
      rfl
    · dsimp only
      rw [start, chars_toEnd, hEnd]
      rfl
  unfold finish
  dsimp only
  rw [frames_flush, ← hOutput]
  rfl

theorem regions_finish_start (m : Machine) (text : List Char) :
    ((start text).finish m).regions = (m.hits Machine.root text).map Hit.region := by
  have hRegions : (Output.emitHits {} 0 (m.hits Machine.root text)).regions.toList =
      (m.hits Machine.root text).map Hit.region := by
    rw [Output.regions_emitHits (Output.Records.start text).proper]
    exact List.map_congr_left fun hit _ => by simp [Hit.regionIn, Hit.region, Output.depth]
  rw [finish_start, Output.finish, Output.regions_emit, hRegions]
  refine List.filter_eq_self.2 fun region hRegion => ?_
  obtain ⟨hit, hHit, rfl⟩ := List.mem_map.1 hRegion
  exact decide_eq_true ((m.ordered_hits Machine.root text).bounds hHit).1

theorem step_start (h : m.terminators Machine.root none = []) (text : List Char) :
    (start text).step m 1 = .ends (start text) := by
  have hSet : m.setOf ((start text).top.mode, (start text).top.closing) = .ok [] := by
    show m.terminatorSet Machine.root none = .ok []
    rw [Machine.terminatorSet, h]
    rfl
  unfold step
  rw [hSet]
  dsimp only
  rw [TerminatorSet.find?_nil]

end Scan

/-- A text is scanned at once if nothing may end it. -/
theorem Tokenizer.tokenize_of_terminators {m : Machine} (h : m.terminators Machine.root none = [])
    (t : Tokenizer m) (text : String) :
    (t.tokenize text).1 = .ok ((Scan.start text.toList).finish m) := by
  rw [tokenize, stepLimit, run_succ, Scan.turn, Scan.step_start h]

theorem Machine.credits_of_terminators {m : Machine} (h : m.terminators Machine.root none = [])
    (text : List Char) : m.credits text = (m.hits Machine.root text).map (.word Machine.root) := by
  have hShift : Hit.shift 0 = id := funext fun hit => by simp [Hit.shift]
  rw [credits, Tokenizer.stepLimit, Scan.creditsFrom, Scan.step_start h]
  show Scan.wordsUpTo m (Scan.start text) (Cursor.start text).toEnd = _
  rw [Scan.wordsUpTo, Scan.start, Scan.chars_toEnd]
  show ((m.hits Machine.root text).map (Hit.shift 0)).map _ = _
  rw [hShift, List.map_id]
  rfl

/-- What the words of a text count for is the relevance of the text, if nothing else is found in
it. -/
theorem Machine.earned_of_terminators {m : Machine} (h : m.terminators Machine.root none = [])
    (text : List Char) : m.earned (m.credits text) =
      ((Hit.counted [] (m.hits Machine.root text)).map (·.data.relevance.toNat)).sum := by
  rw [credits_of_terminators h, earned, Credit.frames_words, Credit.hits_words]
  exact Nat.zero_add _

/-! ### Keyword tables alone -/

/-- A grammar that consists of a keyword table, whose words look as they do by default. -/
structure Grammar.IsWordTable (g : Grammar) (k : Keywords) : Prop where
  keywords : g.keywords = some k
  pattern : k.pattern = none
  illegal : g.illegal = none
  contains : g.contains = []

/-- A grammar that regards case and consists of a keyword table, whose words look as they do by
default. -/
structure Grammar.IsVocabulary (g : Grammar) (k : Keywords) : Prop where
  caseInsensitive : g.caseInsensitive = false
  keywords : g.keywords = some k
  pattern : k.pattern = none
  illegal : g.illegal = none
  contains : g.contains = []

@[simp] theorem Grammar.keywordTable_root (g : Grammar) :
    g.root.settings.keywordTable = g.keywords :=
  Option.or_none

namespace Grammar.IsWordTable

variable {g : Grammar} {k : Keywords}

/-- Nothing is wrong with a keyword table, so that a grammar without named modes compiles. -/
theorem exists_compile (h : g.IsWordTable k) (hModes : g.modes = .empty) :
    ∃ m, g.compile = .ok m := by
  have hInner : g.inner = [] := by
    rw [inner, h.contains, hModes]
    rfl
  have hPatterns : g.patterns = [] := by
    rw [patterns, h.illegal, hInner]
    rfl
  have hTables : g.keywordSets = [k.index g.caseInsensitive] := by
    simp [keywordSets, effective, hInner, h.keywords]
  refine exists_compile_eq_ok ?_ ?_ ?_
  · rintro name ⟨rule, hRule, hName⟩
    rw [effective, hInner, List.mem_singleton] at hRule
    rw [hRule, entries_root, h.contains] at hName
    cases hName
  · intro table
    cases table with
    | modes => simp [size, effective, hInner, tableLimit]
    | regexes => simp [size, hPatterns]
    | keywordSets =>
      rw [size, hTables]
      exact Nat.succ_le_of_lt (by decide)
  · intro r hr
    rw [regexes, hPatterns, hTables] at hr
    have hRegex : (k.index g.caseInsensitive).regex = r := by simpa using hr
    rw [← hRegex, Regex.fault?, Keywords.program_index h.pattern]

/-- Nothing ends a text of the grammar, and its words are those of the table. -/
theorem root_eq (h : g.IsWordTable k) {m : Machine} (hCompiled : g.compile = .ok m) :
    m.terminators Machine.root none = [] ∧
      ∀ text, m.hits Machine.root text = (k.index g.caseInsensitive).hits text := by
  obtain ⟨place, hImage⟩ := exists_isImage hCompiled
  obtain ⟨hDepicts, hContains⟩ := hImage.depicts (a := .root) rfl
  rw [hImage.root] at hDepicts hContains
  have hNone : (m.mode Machine.root).contains = [] := by
    rw [hContains, entries_root, h.contains]
    rfl
  have hIllegal : (m.mode Machine.root).illegal = none := by
    have hPlace := hDepicts.illegal.isSome_eq
    rw [illegal_root, h.illegal] at hPlace
    simpa using hPlace
  have hTable : (m.mode Machine.root).keywords.bind (m.keywordSets[·]?) =
      some (k.index g.caseInsensitive) := by
    have hPlace := hDepicts.keywords
    rw [keywordTable_root, h.keywords] at hPlace
    cases hKeywords : (m.mode Machine.root).keywords with
    | none =>
      rw [hKeywords] at hPlace
      cases hPlace
    | some table =>
      rw [hKeywords] at hPlace
      exact Option.some.inj hPlace
  refine ⟨?_, fun text => ?_⟩
  · rw [Machine.terminators, hNone, hIllegal]
    rfl
  · rw [Machine.hits, hTable]

end Grammar.IsWordTable

namespace Grammar.IsVocabulary

variable {g : Grammar} {k : Keywords}

theorem isWordTable (h : g.IsVocabulary k) : g.IsWordTable k :=
  ⟨h.keywords, h.pattern, h.illegal, h.contains⟩

theorem exists_compile (h : g.IsVocabulary k) : g.modes = .empty → ∃ m, g.compile = .ok m :=
  h.isWordTable.exists_compile

theorem root_eq (h : g.IsVocabulary k) {m : Machine} (hCompiled : g.compile = .ok m) :
    m.terminators Machine.root none = [] ∧
      ∀ text, m.hits Machine.root text = (k.index false).hits text := by
  rw [← h.caseInsensitive]
  exact h.isWordTable.root_eq hCompiled

end Grammar.IsVocabulary

namespace Keywords

variable {k : Keywords}

def region? (k : Keywords) (run : Run) : Option Region :=
  (k.reading? run.word).map fun data => ⟨data.category, run.start, run.stop, 0⟩

def words (k : Keywords) : Finset String :=
  ((categories.flatMap k.entries).map fun entry => (splitRelevance entry).1).toFinset

/-- What words that have been found count for: each word of the table, as often as it is
found, but only a few times. -/
def earned (k : Keywords) (found : List String) : Nat :=
  ∑ word ∈ k.words,
    min hitLimit (found.count word) * (k.reading? word).elim 0 (·.relevance.toNat)

theorem mem_words_iff {word : String} : word ∈ k.words ↔ (k.reading? word).isSome := by
  simp only [words, reading?, List.mem_toFinset, List.mem_map, List.mem_flatMap,
    List.findSome?_isSome_iff]
  constructor
  · rintro ⟨entry, ⟨category, hCategory, hEntry⟩, hWord⟩
    exact ⟨category, hCategory, entry, hEntry, by simp [hWord]⟩
  · rintro ⟨category, hCategory, entry, hEntry, hWord⟩
    exact ⟨entry, ⟨category, hCategory, hEntry⟩, by simpa using hWord⟩

theorem times_filterMap {word : String} (hWord : word ∈ k.words) (found : List Run) :
    Hit.times (found.filterMap k.hit?) word = (found.map Run.word).count word := by
  obtain ⟨data, hData⟩ := Option.isSome_iff_exists.1 (mem_words_iff.1 hWord)
  induction found with
  | nil => rfl
  | cons run found ih =>
    rw [List.filterMap_cons, hit?, List.map_cons, List.count_cons, ← ih]
    cases hReading : k.reading? run.word with
    | none =>
      have hNe : run.word ≠ word := fun hEq => by simp [← hEq, hReading] at hData
      simp [hNe]
    | some data' =>
      rw [Option.map_some]
      simp [Hit.times, List.countP_cons]

theorem sum_counted_index (hPattern : k.pattern = none) (text : List Char) :
    ((Hit.counted [] ((k.index false).hits text)).map (·.data.relevance.toNat)).sum =
      k.earned ((runs isWordChar 0 text).map Run.word) := by
  have hListed : ∀ hit ∈ (k.index false).hits text, k.reading? hit.key = some hit.data := by
    intro hit hHit
    rw [hits_index hPattern] at hHit
    obtain ⟨run, -, hReading⟩ := List.mem_filterMap.1 hHit
    obtain ⟨data, hData, rfl⟩ := Option.map_eq_some_iff.1 hReading
    exact hData
  rw [Hit.sum_counted (fun word => (k.reading? word).elim 0 (·.relevance.toNat)) k.words, earned]
  · refine Finset.sum_congr rfl fun word hWord => ?_
    rw [hits_index hPattern, times_filterMap hWord]
  · intro hit hHit
    rw [hListed hit hHit]
    rfl
  · intro hit hHit
    rw [mem_words_iff, hListed hit hHit]
    rfl

end Keywords

/-- Words of which one is listed in two categories. -/
def jumps.table : Keywords := { keyword := ["goto|3", "end"], literal := ["end|5"] }

/-- A language of these words. -/
def jumps : Grammar where
  name := "jumps"
  keywords := some jumps.table

namespace Tokenizer

/-- A grammar that is a keyword table alone finds the whole words of the table in any text. The
words of a text are its longest runs of ASCII word characters, whatever other characters stand
beside them; each one that the table lists is a region of its own, in order, and there are no
others. The category of a word is what its first entry says, and so is what the word counts for, as
often as words count at most. -/
theorem tokenize_vocabulary {g : Grammar} {k : Keywords} (hVocabulary : g.IsVocabulary k) :
    (g.modes = .empty → ∃ m, g.compile = .ok m) ∧
    ∀ m, g.compile = .ok m → ∀ (t : Tokenizer m) (text : String),
      let words := runs isWordChar 0 text.toList
      words.Pairwise (fun run later => run.stop ≤ later.start) ∧
      (∀ run, run ∈ words ↔ run.LongestIn isWordChar 0 text.toList) ∧
      ∃ found, (t.tokenize text).1 = .ok found ∧ found.regions = words.filterMap k.region? ∧
        (k.earned (words.map Run.word) < UInt32.size →
          found.relevance.toNat = k.earned (words.map Run.word)) := by
  refine ⟨hVocabulary.exists_compile, fun m hCompiled t text => ?_⟩
  intro words
  obtain ⟨hNone, hHits⟩ := hVocabulary.root_eq hCompiled
  have hTokens := tokenize_of_terminators hNone t text
  have hEarned : m.earned (m.credits text.toList) = k.earned (words.map Run.word) := by
    rw [Machine.earned_of_terminators hNone, hHits, Keywords.sum_counted_index hVocabulary.pattern]
  refine ⟨pairwise_runs _ _ _, fun run => mem_runs_iff, _, hTokens, ?_, fun hFits => ?_⟩
  · rw [Scan.regions_finish_start, hHits, Keywords.hits_index hVocabulary.pattern,
      List.map_filterMap]
    refine List.filterMap_congr fun run _ => ?_
    rw [Keywords.hit?, Option.map_map]
    rfl
  · rw [← hEarned] at hFits ⊢
    exact toNat_relevance_of_lt hTokens hFits

theorem tokenize_jumps : jumps.IsVocabulary jumps.table ∧ jumps.modes = .empty ∧
    ∃ m, jumps.compile = .ok m ∧
      ∀ t : Tokenizer m, ∃ found, (t.tokenize "goto,éend end2 égoto").1 = .ok found ∧
      found.regions =
        [⟨.keyword, 0, 4, 0⟩, ⟨.keyword, 7, 10, 0⟩, ⟨.keyword, 18, 22, 0⟩] ∧
      found.relevance.toNat = 2 * 3 + 1 := by
  have hVocabulary : jumps.IsVocabulary jumps.table := ⟨rfl, rfl, rfl, rfl, rfl⟩
  obtain ⟨hCompiles, hFound⟩ := tokenize_vocabulary hVocabulary
  obtain ⟨m, hCompiled⟩ := hCompiles rfl
  refine ⟨hVocabulary, rfl, m, hCompiled, fun t => ?_⟩
  obtain ⟨-, -, found, hTokens, hRegions, hRelevance⟩ :=
    hFound m hCompiled t "goto,éend end2 égoto"
  have hEarned : jumps.table.earned
      ((runs isWordChar 0 "goto,éend end2 égoto".toList).map Run.word) = 7 := by
    decide +kernel
  rw [hEarned] at hRelevance
  exact ⟨found, hTokens, hRegions.trans (by decide +kernel), hRelevance (by decide)⟩

end Tokenizer

end Highlighter
