import Highlighter.Proofs.Grammar.Entering
import Highlighter.Proofs.Keywords
import Highlighter.Proofs.Scan.Vocabulary
import Highlighter.Proofs.Text.AsciiCase

/-! Keyword tables that disregard case. The case of ASCII letters changes nothing, neither in the
entries of such a table nor in a text: the words of a text are the same stretches, and a word is
looked up and counted by its lower case. -/

namespace Highlighter

open Text Pattern

/-! ### The entries of a table -/

theorem readRelevance?_map_toLower (suffix : List Char) :
    readRelevance? (.ofList (suffix.map Char.toLower)) = readRelevance? (.ofList suffix) := by
  refine Option.ext fun relevance => ?_
  rw [readRelevance?_eq_some_iff, readRelevance?_eq_some_iff, String.toList_ofList,
    String.toList_ofList, isNumeral_map_toLower_iff]

theorem splitRelevance_asciiLower (entry : String) :
    splitRelevance (asciiLower entry) =
      (asciiLower (splitRelevance entry).1, (splitRelevance entry).2) := by
  have hBar : (· != '|') ∘ Char.toLower = (· != '|') :=
    funext (apply_toLower (· != '|') (by decide))
  have hBefore : String.ofList ((entry.toList.takeWhile (· != '|')).map Char.toLower) =
      asciiLower (.ofList (entry.toList.takeWhile (· != '|'))) := by
    rw [asciiLower, String.toList_ofList]
  simp only [splitRelevance, toList_asciiLower, List.dropWhile_map, List.takeWhile_map, hBar,
    lowercase_asciiLower, hBefore]
  cases entry.toList.dropWhile (· != '|') with
  | nil => rfl
  | cons bar suffix =>
    simp only [List.map_cons, readRelevance?_map_toLower]
    cases readRelevance? (.ofList suffix) <;> rfl

namespace Keywords

/-- Tables whose entries differ in the case of ASCII letters alone. -/
structure Respelled (k k' : Keywords) : Prop where
  pattern : k'.pattern = k.pattern
  entries : ∀ category, (k'.entries category).map asciiLower = (k.entries category).map asciiLower

variable {k k' : Keywords}

/-- What a table says regards no case of ASCII letters if it disregards case. -/
theorem Respelled.index_eq (h : k.Respelled k') : k'.index true = k.index true := by
  let reading (category : Category) (entry : String) : String × KeywordData :=
    (lowercase (splitRelevance entry).1, ⟨category, (splitRelevance entry).2⟩)
  have hLower : ∀ category, reading category ∘ asciiLower = reading category := fun category =>
    funext fun entry => by
      simp only [reading, Function.comp_apply, splitRelevance_asciiLower, lowercase_asciiLower]
  have hReadings : ∀ k : Keywords, k.readings true = categories.flatMap fun category =>
      ((k.entries category).map asciiLower).map (reading category) := by
    intro k
    simp only [List.map_map, hLower]
    rfl
  rw [index, index, h.pattern, hReadings, hReadings k]
  simp only [h.entries]

end Keywords

/-! ### The words of a text -/

theorem has_wordTest_toLower (c : Char) : (wordTest true).has c.toLower = (wordTest true).has c :=
  apply_toLower (wordTest true).has (by decide +kernel) c

namespace KeywordIndex

variable {k : KeywordIndex}

theorem key_asciiLower (h : k.regex.ignoreCase = true) (word : String) :
    k.key (asciiLower word) = k.key word := by
  rw [key, key, if_pos h, if_pos h, lowercase_asciiLower]

theorem listed?_map_toLower (h : k.regex.ignoreCase = true) (run : Run) :
    k.listed? ⟨run.start, run.chars.map Char.toLower⟩ = k.listed? run := by
  have hWord : Run.word ⟨run.start, run.chars.map Char.toLower⟩ = asciiLower run.word := by
    rw [Run.word, asciiLower, Run.word, String.toList_ofList]
  have hStop : Run.stop ⟨run.start, run.chars.map Char.toLower⟩ = run.stop := by
    rw [Run.stop, Run.stop, byteLength_map utf8Size_toLower]
  rw [listed?, listed?, get?, get?, hWord, hStop, key_asciiLower h]

end KeywordIndex

namespace Keywords

variable {k : Keywords}

theorem hits_map_toLower (hPattern : k.pattern = none) (text : List Char) :
    (k.index true).hits (text.map Char.toLower) = (k.index true).hits text := by
  have hProgram := k.program_index hPattern true
  have hIgnore : (k.index true).regex.ignoreCase = true := rfl
  rw [KeywordIndex.hits_eq hProgram, KeywordIndex.hits_eq hProgram,
    runs_map_toLower has_wordTest_toLower, List.filterMap_map]
  exact List.filterMap_congr fun run _ => KeywordIndex.listed?_map_toLower hIgnore run

end Keywords

/-! ### The machine of a respelled table -/

namespace Builder

/-- Steps that start alike do the same if they go on alike from wherever that leads. -/
theorem run_bind_congr {α β : Type} {x : BuilderM α} {f f' : α → BuilderM β} {b : Builder}
    (h : ∀ a b', Runs x b a b' → (f' a).run b' = (f a).run b') :
    (x >>= f').run b = (x >>= f).run b := by
  rw [StateT.run_bind, StateT.run_bind]
  cases hRun : x.run b with
  | error e => rfl
  | ok p => exact h p.1 p.2 hRun

theorem run_bind_congr_left {α β : Type} {x x' : BuilderM α} {b : Builder}
    (h : x'.run b = x.run b) (f : α → BuilderM β) : (x' >>= f).run b = (x >>= f).run b := by
  rw [StateT.run_bind, StateT.run_bind, h]

variable {b : Builder} {k k' : Keywords}

theorem run_enterKeywords_congr (h : k'.index b.caseInsensitive = k.index b.caseInsensitive) :
    (enterKeywords k').run b = (enterKeywords k).run b := by
  simp only [enterKeywords, StateT.run_bind, StateT.run_get, pure_bind, h]

theorem run_fill_root_congr (h : k'.index b.caseInsensitive = k.index b.caseInsensitive)
    (illegal : Option String) (contains : Nat → BuilderM (List Nat)) :
    (fill Machine.root true { keywords := some k', illegal } contains).run b =
      (fill Machine.root true { keywords := some k, illegal } contains).run b := by
  -- The keywords are the first thing that is entered for the root.
  simp only [fill, enterOpening, enterClosing, enterOptional, Option.some_or, Bool.true_or, if_true,
    StateT.run_bind, StateT.run_pure, pure_bind, run_enterKeywords_congr h]

theorem run_enterGrammar_congr {g : Grammar} (hKeywords : g.keywords = some k)
    (hIndex : k'.index g.caseInsensitive = k.index g.caseInsensitive) :
    (enterGrammar { g with keywords := some k' }).run
        ⟨g.name, g.caseInsensitive, #[], #[], #[]⟩ =
      (enterGrammar g).run ⟨g.name, g.caseInsensitive, #[], #[], #[]⟩ := by
  refine run_bind_congr fun ids b1 hReserve => run_bind_congr fun named b2 hNamed => ?_
  obtain ⟨os, hReserved⟩ := reserved_of_runs hReserve hNamed
  have hRoot : g.root.settings = { keywords := some k, illegal := g.illegal } := by
    rw [← hKeywords]
    rfl
  rw [hRoot]
  refine run_bind_congr_left (run_fill_root_congr ?_ g.illegal _) _
  rw [hReserved.ready.caseInsensitive, hIndex]

end Builder

/-- A grammar comes to the same machine, or to none for the same reason, if another table of the
same index is put in the place of its own. -/
theorem Grammar.compile_congr {g : Grammar} {k k' : Keywords} (hKeywords : g.keywords = some k)
    (hIndex : k'.index g.caseInsensitive = k.index g.caseInsensitive) :
    ({ g with keywords := some k' } : Grammar).compile = g.compile := by
  unfold compile assemble
  rw [Builder.run_enterGrammar_congr hKeywords hIndex]

/-- Words with capital and small letters. One is listed twice, and one starts with a letter beyond
ASCII. -/
def mixed.table : Keywords := { keyword := ["Goto|3", "AND", "ſet"], literal := ["gOTO"] }

/-- The same words with other letters in capitals. -/
def mixed.respelled : Keywords := { keyword := ["gOtO|3", "and", "ſeT"], literal := ["GOTO"] }

/-- A language of these words. -/
def mixed : Grammar where
  name := "mixed"
  caseInsensitive := true
  keywords := some mixed.table

namespace Tokenizer

/-- A grammar that disregards case and is a keyword table alone finds the same in texts that
differ in the case of ASCII letters alone: the same regions, the same tokens and the same
relevance. Nor does the case of ASCII letters in the table make a difference, as the grammar
comes to the same machine. -/
theorem tokenize_respelled {g : Grammar} {k k' : Keywords} (hTable : g.IsWordTable k)
    (hCase : g.caseInsensitive = true) (hWords : k.Respelled k') :
    ({ g with keywords := some k' } : Grammar).compile = g.compile ∧
    (g.modes = .empty → ∃ m, g.compile = .ok m) ∧
    ∀ m, g.compile = .ok m →
      ∀ (t t' : Tokenizer m) (text text' : String), SameLetters text text' →
      ∃ found, (t.tokenize text).1 = .ok found ∧ (t'.tokenize text').1 = .ok found := by
  have hIndex : k'.index g.caseInsensitive = k.index g.caseInsensitive := by
    rw [hCase, hWords.index_eq]
  refine ⟨Grammar.compile_congr hTable.keywords hIndex, hTable.exists_compile, ?_⟩
  intro m hCompiled t t' text text' hText
  obtain ⟨hNone, hHits⟩ := hTable.root_eq hCompiled
  -- Both texts have the hits of what they come to in small letters.
  have hSame : m.hits Machine.root text'.toList = m.hits Machine.root text.toList := by
    rw [hHits, hHits, hCase, ← Keywords.hits_map_toLower hTable.pattern, ← hText.map_eq,
      Keywords.hits_map_toLower hTable.pattern]
  have hLength : byteLength text'.toList = byteLength text.toList := by
    rw [← byteLength_map utf8Size_toLower, ← hText.map_eq, byteLength_map utf8Size_toLower]
  refine ⟨_, tokenize_of_terminators hNone t text, ?_⟩
  rw [tokenize_of_terminators hNone t' text', Scan.finish_start, Scan.finish_start, hSame, hLength]

theorem tokenize_mixed : mixed.IsWordTable mixed.table ∧ mixed.caseInsensitive = true ∧
    mixed.table.Respelled mixed.respelled ∧ SameLetters "and goto,ſET" "AND Goto,ſet" ∧
    ∃ m, ({ mixed with keywords := some mixed.respelled } : Grammar).compile = .ok m ∧
      ∀ t t' : Tokenizer m, ∃ found,
        (t.tokenize "and goto,ſET").1 = .ok found ∧
          (t'.tokenize "AND Goto,ſet").1 = .ok found := by
  have hTable : mixed.IsWordTable mixed.table := ⟨rfl, rfl, rfl, rfl⟩
  have hWords : mixed.table.Respelled mixed.respelled :=
    ⟨rfl, fun category => by cases category <;> decide⟩
  have hText : SameLetters "and goto,ſET" "AND Goto,ſet" := by decide
  obtain ⟨hRespelled, hCompiles, hFound⟩ := tokenize_respelled hTable rfl hWords
  obtain ⟨m, hCompiled⟩ := hCompiles rfl
  exact ⟨hTable, rfl, hWords, hText, m, hRespelled.trans hCompiled,
    fun t t' => hFound m hCompiled t t' _ _ hText⟩

end Tokenizer

end Highlighter
