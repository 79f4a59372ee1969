import Highlighter.Grammar.Compile
import Highlighter.Proofs.Pattern.Leftmost
import Highlighter.Proofs.Scan.Emission
import Highlighter.Proofs.Scan.Kept
import Highlighter.Proofs.Scan.Loops
import Highlighter.Proofs.Text.Between

/-! The pending text of a scan is emitted with the words in it. They are those of the successive
matches in this text alone that the table lists; each becomes a region of its own, and all else is
emitted along with the text around it. `Output.EmitsWords` says what is emitted, and the loop that
emits it makes one search in each turn. -/

namespace Highlighter

open Text

/-! ### What is emitted -/

namespace Output

/-- An output has emitted text with words in it after another one. Each word has a region, and
each byte of the text lies in a token with the categories of the open regions and of the word
around the byte, if there is one. -/
structure EmitsWords (words : List Region) (out out' : Output) : Prop extends Emits out out' where
  added : out'.regions.toList = out.regions.toList ++ words
  disjoint : words.Pairwise fun word later => word.stop ≤ later.start
  bounds : ∀ word ∈ words, out.position ≤ word.start ∧ word.start < word.stop ∧
    word.stop ≤ out'.position
  marked : ∀ p, out.position ≤ p → p < out'.position →
    ∃ t ∈ out'.tokens, t.covers p = true ∧
      t.categories = out.categories ++ (words.filter (·.covers p)).map (·.category)

theorem exists_covers_emit {out : Output} (hProper : out.Proper) {stop p : Nat}
    (hp : out.position ≤ p) (hStop : p < stop) (innermost : Option Category) :
    ∃ t ∈ (out.emit stop innermost).tokens,
      t.covers p = true ∧ t.categories = out.categories ++ innermost.toList := by
  unfold emit
  rw [if_neg (by omega)]
  exact exists_covers_addToken hProper.spans (Token.covers_iff.2 ⟨hp, hStop⟩)

/-- Words that end before a byte, or start behind it, do not cover it. -/
theorem filter_covers_eq_nil {words : List Region} {p : Nat}
    (h : ∀ word ∈ words, p < word.start ∨ word.stop ≤ p) :
    words.filter (·.covers p) = [] := by
  refine List.filter_eq_nil_iff.2 fun word hWord hCovers => ?_
  have hApart := h word hWord
  simp only [Region.covers, Bool.and_eq_true, decide_eq_true_eq] at hCovers
  omega

namespace EmitsWords

variable {words words' : List Region} {out out' out'' : Output}

/-- Nothing is emitted as long as the emitted text stays the same. -/
theorem of_position_eq (h : Emits out out') (hRegions : out'.regions = out.regions)
    (hPosition : out'.position = out.position) : EmitsWords [] out out' :=
  ⟨h, by simp [hRegions], .nil, nofun,
    fun _ hp hpStop => absurd (hPosition ▸ hpStop) (Nat.not_lt.2 hp)⟩

theorem trans (h : EmitsWords words out out') (hProper : out.Proper)
    (h' : EmitsWords words' out' out'') : EmitsWords (words ++ words') out out'' := by
  refine ⟨h.toEmits.trans hProper h'.toEmits, ?_, ?_, fun word hWord => ?_,
    fun p hp hpStop => ?_⟩
  · rw [h'.added, h.added, List.append_assoc]
  · refine List.pairwise_append.2 ⟨h.disjoint, h'.disjoint, fun word hWord later hLater => ?_⟩
    exact (h.bounds word hWord).2.2.trans (h'.bounds later hLater).1
  · rcases List.mem_append.1 hWord with hWord | hWord
    · obtain ⟨hStart, hLt, hStop⟩ := h.bounds word hWord
      exact ⟨hStart, hLt, hStop.trans h'.position⟩
    · obtain ⟨hStart, hLt, hStop⟩ := h'.bounds word hWord
      exact ⟨h.position.trans hStart, hLt, hStop⟩
  · rw [List.filter_append]
    by_cases hFirst : p < out'.position
    · have hNone : words'.filter (·.covers p) = [] :=
        filter_covers_eq_nil fun word hWord => .inl (hFirst.trans_le (h'.bounds word hWord).1)
      obtain ⟨t, ht, hCovers, hCategories⟩ := h.marked p hp hFirst
      obtain ⟨t', ht', hStart, hStop, hSame⟩ := h'.tokens t ht
      rw [Token.covers_iff] at hCovers
      refine ⟨t', ht', Token.covers_iff.2 ⟨by omega, by omega⟩, ?_⟩
      rw [hSame, hCategories, hNone, List.append_nil]
    · have hLast := Nat.le_of_not_lt hFirst
      have hNone : words.filter (·.covers p) = [] :=
        filter_covers_eq_nil fun word hWord => .inr ((h.bounds word hWord).2.2.trans hLast)
      obtain ⟨t, ht, hCovers, hCategories⟩ := h'.marked p hLast hpStop
      refine ⟨t, ht, hCovers, ?_⟩
      rw [hCategories, h.categories hProper, hNone, List.nil_append]

theorem emit (hProper : out.Proper) (stop : Nat) : EmitsWords [] out (out.emit stop none) := by
  refine ⟨.emit hProper stop none, by simp, .nil, nofun, fun p hp hpStop => ?_⟩
  rw [position_emit] at hpStop
  exact exists_covers_emit hProper hp (by omega) none

theorem countHit (hProper : out.Proper) (word : String) (n : UInt32) :
    EmitsWords [] out (out.countHit word n) :=
  of_position_eq (.countHit hProper word n) (regions_countHit out word n)
    (position_countHit out word n)

theorem word (hProper : out.Proper) {start stop : Nat} (hStart : out.position = start)
    (hLt : start < stop) (category : Category) :
    EmitsWords [⟨category, start, stop, out.depth⟩] out
      (Output.emit
        { out with regions := out.regions.push ⟨category, start, stop, out.depth⟩ } stop
        (some category)) := by
  have hPushed := Emits.pushRegion hProper ⟨category, start, stop, out.depth⟩
  refine ⟨hPushed.trans hProper (.emit hPushed.proper stop (some category)), by simp,
    List.pairwise_singleton _ _, ?_, fun p hp hpStop => ?_⟩
  · rw [position_emit]
    exact List.forall_mem_singleton.2 ⟨hStart.le, hLt, Nat.le_max_right _ _⟩
  · rw [position_emit] at hpStop
    dsimp only at hpStop
    have hEnd : p < stop := by omega
    obtain ⟨t, ht, hCovers, hCategories⟩ :=
      exists_covers_emit hPushed.proper hp hEnd (some category)
    rw [hPushed.categories hProper] at hCategories
    refine ⟨t, ht, hCovers, ?_⟩
    simpa [Region.covers, ← hStart, hp, hEnd] using hCategories

theorem emitKeyword (hProper : out.Proper) {start stop : Nat} (hStart : out.position ≤ start)
    (hLt : start < stop) (category : Category) :
    EmitsWords [⟨category, start, stop, out.depth⟩] out
      (out.emitKeyword start stop category) := by
  have hGap := emit hProper start
  have hPosition : (out.emit start none).position = start := by
    rw [position_emit]
    exact Nat.max_eq_right hStart
  rw [← hGap.depth_eq hProper]
  exact hGap.trans hProper (word hGap.proper hPosition hLt category)

/-- Words that follow one another. -/
theorem emitHits (hProper : out.Proper) {text : List Char} {offset n : Nat} {hits : List Hit}
    (hHits : Hit.Ordered text n hits) (hStart : out.position ≤ offset + n) :
    EmitsWords (hits.map (·.regionIn offset out.depth)) out (out.emitHits offset hits) := by
  induction hits generalizing out n with
  | nil => exact of_position_eq (.refl hProper) rfl rfl
  | cons hit hits ih =>
    obtain ⟨hLe, hLt, -, -, hRest⟩ := hHits
    have hWord : EmitsWords [hit.regionIn offset out.depth] out
        (out.emitKeyword (offset + hit.start) (offset + hit.stop) hit.data.category) :=
      emitKeyword hProper (by omega) (Nat.add_lt_add_left hLt offset) hit.data.category
    have hCounted := hWord.trans hProper (.countHit hWord.proper hit.key hit.data.relevance)
    have hLater := ih hCounted.proper hRest (by simp; omega)
    rw [hCounted.depth_eq hProper] at hLater
    exact hCounted.trans hProper hLater

end EmitsWords

theorem emitHits_append (out : Output) (offset : Nat) (hits hits' : List Hit) :
    out.emitHits offset (hits ++ hits') = (out.emitHits offset hits).emitHits offset hits' :=
  List.foldl_append

theorem position_emitHits_le {out : Output} {text : List Char} {offset n : Nat} {hits : List Hit}
    (hHits : Hit.Ordered text n hits) (hEnd : out.position ≤ offset + byteLength text) :
    (out.emitHits offset hits).position ≤ offset + byteLength text := by
  induction hits generalizing out n with
  | nil => exact hEnd
  | cons hit hits ih =>
    obtain ⟨-, hLt, -, hStop, hRest⟩ := hHits
    have hLe := hStop.le
    refine ih hRest ?_
    rw [position_countHit, position_emitKeyword]
    omega

end Output

/-! ### The loop -/

namespace KeywordIndex

variable (k : KeywordIndex)

/-- One search for a word in a text that starts at a byte offset, with what has been emitted so
far. -/
def emitTurn (offset : Nat) : Cursor × Output → (Cursor × Output) ⊕ Output :=
  k.regex.searchTurn fun out s => out.emitHits offset (k.hit? s).toList

/-- The region of a match in a text that starts at a byte offset, with so many regions around it, if
the match is a word of the table. -/
def region? (offset depth : Nat) (s : Span) : Option Region :=
  (k.get? s.text).map fun data =>
    ⟨data.category, offset + s.start.offset, offset + s.stop.offset, depth⟩

def hitsAmong (found : List Span) : List Hit := (found.filter fun s => !s.isEmpty).filterMap k.hit?

variable {k}

/-- Emitting each word as soon as it is found emits them all. -/
theorem foldl_emitHits (offset : Nat) (spans : List Span) (out : Output) :
    spans.foldl (fun out s => out.emitHits offset (k.hit? s).toList) out =
      out.emitHits offset (spans.filterMap k.hit?) := by
  induction spans generalizing out with
  | nil => rfl
  | cons s spans ih =>
    rw [List.foldl_cons, ih, ← Output.emitHits_append, List.filterMap_cons]
    cases k.hit? s <;> rfl

theorem hits_eq_hitsAmong {text : List Char} {found : List Span}
    (h : k.regex.Successive (.start text) found) : k.hits text = k.hitsAmong found := by
  rw [hits, h.allMatches_eq, hitsAmong]

theorem map_regionIn_hitsAmong (offset depth : Nat) (found : List Span) :
    (k.hitsAmong found).map (·.regionIn offset depth) =
      (found.filter fun s => !s.isEmpty).filterMap (k.region? offset depth) := by
  rw [hitsAmong, List.map_filterMap]
  refine List.filterMap_congr fun s _ => ?_
  rw [hit?, region?, Option.map_map]
  rfl

end KeywordIndex

/-! ### The pending text -/

namespace Scan

variable {m : Machine} {id : Nat} {k : KeywordIndex} {s : Scan} {stop : Cursor} {found : List Span}

theorem flush_eq (hTable : (m.mode id).keywords.bind (m.keywordSets[·]?) = some k)
    (hLt : s.pending.offset < stop.offset)
    (hFound : k.regex.Successive (.start (Span.mk s.pending stop).chars) found) :
    s.flush m id stop = { s with
      output := (s.output.emitHits s.pending.offset (k.hitsAmong found)).emit stop.offset none
      pending := stop } := by
  have hHits : m.hits id (Span.mk s.pending stop).chars = k.hitsAmong found := by
    rw [Machine.hits, hTable]
    exact KeywordIndex.hits_eq_hitsAmong hFound
  rw [flush, if_neg (Nat.not_le.2 hLt), hHits]

end Scan

namespace Tokenizer

variable {m : Machine}

/-- The pending text is emitted up to a place with the words that are found in it. A mode with a
keyword table looks for them among the successive matches in this text alone, of which there is one
list, whatever the pattern matches; it keeps those that are not empty and that the table lists.
This takes at most one search more than the text has characters. Where the text has been emitted
already, nothing changes. -/
theorem flush_successive (t : Tokenizer m) {id : Nat} {k : KeywordIndex}
    (hTable : (m.mode id).keywords.bind (m.keywordSets[·]?) = some k) {s : Scan}
    (hProper : s.output.Proper) (hPosition : s.output.position = s.pending.offset)
    (stop : Cursor) :
    (stop.offset ≤ s.pending.offset → t.flush id stop s = (s, t)) ∧
    (s.pending.Reaches stop → s.pending.offset < stop.offset →
      let start := s.pending.offset
      let buffer := (Span.mk s.pending stop).chars
      let flushed := (t.flush id stop s).1
      ∃ found searches last,
        (∀ spans, k.regex.Successive (.start buffer) spans ↔ spans = found) ∧
        Loops (k.emitTurn start) (.start buffer, s.output) searches last ∧
        searches ≤ buffer.length + 1 ∧
        flushed = { s with output := last.emit stop.offset none, pending := stop } ∧
        s.output.EmitsWords
          ((found.filter fun span => !span.isEmpty).filterMap (k.region? start s.output.depth))
            flushed.output ∧
        flushed.output.position = stop.offset) := by
  refine ⟨fun hLe => by rw [flush, if_pos hLe], fun hReach hLt => ?_⟩
  intro start buffer flushed
  obtain ⟨found, hFound⟩ := k.regex.exists_successive (.start buffer)
  obtain ⟨searches, hSearches, hLoops⟩ :=
    hFound.loops (fun out span => out.emitHits start (k.hit? span).toList) s.output
  rw [KeywordIndex.foldl_emitHits] at hLoops
  have hFlushed : flushed = { s with
      output := (s.output.emitHits start (k.hitsAmong found)).emit stop.offset none,
          pending := stop } :=
    (t.flush_fst id stop s).trans (Scan.flush_eq hTable hLt hFound)
  have hOrdered : Hit.Ordered buffer 0 (k.hitsAmong found) :=
    KeywordIndex.hits_eq_hitsAmong hFound ▸ k.ordered_hits buffer
  have hEnd : stop.offset = start + byteLength buffer :=
    (Span.after_eq_of_reaches (s := ⟨s.pending, stop⟩) hReach).2
  -- The words lie in the buffer, so that the rest of it is emitted behind them.
  have hWords := Output.EmitsWords.emitHits hProper hOrdered hPosition.le
  have hBelow :
      (s.output.emitHits start (k.hitsAmong found)).position ≤ start + byteLength buffer :=
    Output.position_emitHits_le hOrdered (hPosition.trans_le (Nat.le_add_right _ _))
  have hEmits := hWords.trans hProper (.emit hWords.proper stop.offset)
  rw [List.append_nil, KeywordIndex.map_regionIn_hitsAmong] at hEmits
  refine ⟨found, searches, _, fun spans => ⟨fun h => hFound.unique h, fun h => h ▸ hFound⟩,
    hLoops, hSearches, hFlushed, ?_, ?_⟩
  · rw [hFlushed]
    exact hEmits
  · rw [hFlushed]
    dsimp only
    rw [Output.position_emit, hEnd]
    exact Nat.max_eq_right hBelow

end Tokenizer

/-- Words that may be empty and do not start behind a letter. -/
def tails.table : Keywords := { pattern := some "(?<![a-z])[a-z]*", keyword := ["for"] }

/-- A language of these words. -/
def tails : Grammar where
  name := "tails"
  keywords := some tails.table

namespace tails

theorem isSome_compile : tails.compile.toOption.isSome := by decide +kernel

def machine : Machine := tails.compile.toOption.get isSome_compile

theorem keywords_root : (machine.mode Machine.root).keywords.bind (machine.keywordSets[·]?) =
    some (tails.table.index false) := by
  decide +kernel

/-- A scan that has emitted the letter before a word. -/
def scan : Scan where
  frames := []
  output := { tokens := [⟨0, 1, []⟩], position := 1 }
  pending := .between ['x'] "for é".toList
  place := .between ['x'] "for é".toList
  lastOpening := none

/-- The end of the text. -/
def stop : Cursor := .between "xfor é".toList []

theorem reaches_stop : scan.pending.Reaches stop := Cursor.reaches_between ['x'] [] "for é".toList

theorem chars_pending : (Span.mk scan.pending stop).chars = "for é".toList :=
  @Cursor.chars_between ['x'] [] "for é".toList

theorem regions_flush :
    ((Tokenizer.fresh machine).flush Machine.root stop scan).1.output.regions.toList =
      [⟨.keyword, 1, 4, 0⟩] := by
  decide +kernel

/-- The letter before the pending text is not seen, so that the word may start there. The other
matches are empty, before a character of two bytes and at the end. -/
theorem flush_behindLetter : scan.output.Proper ∧ scan.pending.Reaches stop ∧
    ∃ found searches last,
      (∀ spans, (table.index false).regex.Successive (.start "for é".toList) spans ↔
        spans = found) ∧
      Loops ((table.index false).emitTurn 1) (.start "for é".toList, scan.output) searches last ∧
      searches ≤ 6 ∧
      ((Tokenizer.fresh machine).flush Machine.root stop scan).1 =
        { scan with output := last.emit 7 none, pending := stop } ∧
      scan.output.EmitsWords [⟨.keyword, 1, 4, 0⟩] (last.emit 7 none) ∧
        (last.emit 7 none).position = 7 := by
  have hProper : scan.output.Proper := ⟨nofun, by simp [scan]⟩
  obtain ⟨found, searches, last, hFound, hLoops, hSearches, hFlush, hWords, hEnd⟩ :=
    (Tokenizer.flush_successive (.fresh machine) keywords_root hProper rfl stop).2
      reaches_stop (by decide)
  have hListed := hWords.added.symm.trans regions_flush
  rw [chars_pending] at hFound hLoops hSearches
  rw [hFlush] at hWords hEnd
  refine ⟨hProper, reaches_stop, found, searches, last, hFound, hLoops, hSearches,
    hFlush, ?_, hEnd⟩
  exact hListed ▸ hWords

end tails

end Highlighter
