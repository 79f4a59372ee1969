import Highlighter.Proofs.Scan.Stack
import Highlighter.Proofs.Scan.Word
import Mathlib.Algebra.Group.Action.Defs
import Mathlib.Algebra.GroupWithZero.Nat
import Mathlib.Algebra.Order.BigOperators.Group.List
import Mathlib.Algebra.Order.Group.Nat

/-! The relevance of a text. It is what the modes that end in the text count for, together with the
first few hits of each word, as long as this fits into 32 bits. Grammars set what modes and words
count for, so that it need not fit, and then the relevance is what is left of it modulo `2^32`. -/

namespace Highlighter

open Text

/-- The hits that count after earlier ones: those of a word count until there are enough of them. -/
def Hit.counted (earlier : List Hit) : List Hit → List Hit
  | [] => []
  | hit :: rest =>
    if Hit.times earlier hit.key < hitLimit then hit :: counted (earlier ++ [hit]) rest
    else counted (earlier ++ [hit]) rest

/-- Of each word, the first hits count. -/
theorem Hit.filter_counted (key : String) (earlier hits : List Hit) :
    (Hit.counted earlier hits).filter (·.key = key) =
      (hits.filter (·.key = key)).take (hitLimit - Hit.times earlier key) := by
  induction hits generalizing earlier with
  | nil => simp [counted]
  | cons hit hits ih =>
    have ih := ih (earlier ++ [hit])
    rw [Hit.times_append, Hit.times_singleton] at ih
    rw [counted]
    by_cases hKey : hit.key = key
    · subst hKey
      rw [if_pos rfl] at ih
      split
      · next hFew =>
        have hLeft : hitLimit - Hit.times earlier hit.key =
            hitLimit - (Hit.times earlier hit.key + 1) + 1 := by omega
        simp [hLeft, ih]
      · next hMany =>
        have hNone : hitLimit - Hit.times earlier hit.key = 0 := by omega
        simpa [hNone, ← Nat.sub_sub] using ih
    · rw [if_neg hKey, Nat.add_zero] at ih
      split
      · simpa [hKey] using ih
      · simpa [hKey] using ih

theorem Hit.counted_sublist (earlier hits : List Hit) :
    (Hit.counted earlier hits).Sublist hits := by
  induction hits generalizing earlier with
  | nil => exact .slnil
  | cons hit hits ih =>
    rw [counted]
    split
    · exact (ih _).cons_cons hit
    · exact (ih _).cons hit

namespace Machine

/-- What credits count for: each mode that has ended, and each hit of a word that counts. -/
def earned (m : Machine) (credits : List Credit) : Nat :=
  ((Credit.frames credits).map fun frame => (m.mode frame.mode).relevance.toNat).sum +
    ((Hit.counted [] (Credit.hits credits)).map (·.data.relevance.toNat)).sum

end Machine

/-- Numbers are added to a counter of 32 bits one after the other, and no sum exceeds it. -/
def Fits : UInt32 → List UInt32 → Prop
  | _, [] => True
  | counter, n :: rest => counter.toNat + n.toNat < UInt32.size ∧ Fits (counter + n) rest

theorem toNat_foldl_add (counter : UInt32) (ns : List UInt32) : (ns.foldl (· + ·) counter).toNat =
    (counter.toNat + (ns.map (·.toNat)).sum) % UInt32.size := by
  induction ns generalizing counter with
  | nil => exact (Nat.mod_eq_of_lt counter.toNat_lt_size).symm
  | cons n ns ih =>
    rw [List.foldl_cons, ih, UInt32.toNat_add, List.map_cons, List.sum_cons, ← Nat.add_assoc]
    exact Nat.mod_add_mod _ _ _

/-- No addition exceeds the counter if the last sum does not. -/
theorem fits_iff {counter : UInt32} {ns : List UInt32} :
    Fits counter ns ↔ counter.toNat + (ns.map (·.toNat)).sum < UInt32.size := by
  induction ns generalizing counter with
  | nil => exact iff_of_true trivial counter.toNat_lt_size
  | cons n ns ih =>
    rw [Fits, ih, List.map_cons, List.sum_cons, ← Nat.add_assoc, UInt32.toNat_add]
    constructor
    · rintro ⟨hNow, hLater⟩
      rwa [Nat.mod_eq_of_lt hNow] at hLater
    · intro hLast
      have hNow : counter.toNat + n.toNat < UInt32.size := by omega
      rw [Nat.mod_eq_of_lt hNow]
      exact ⟨hNow, hLast⟩

namespace Credit

variable {m : Machine}

theorem sum_additions (m : Machine) (earlier credits : List Credit) :
    ((additions m earlier credits).map (·.toNat)).sum =
      ((frames credits).map fun frame => (m.mode frame.mode).relevance.toNat).sum +
        ((Hit.counted (hits earlier) (hits credits)).map (·.data.relevance.toNat)).sum := by
  induction credits generalizing earlier with
  | nil => rfl
  | cons credit credits ih =>
    rw [additions, List.map_append, List.sum_append, ih]
    cases credit with
    | mode frame =>
      have hFrames : frames (.mode frame :: credits) = frame :: frames credits := rfl
      have hHits : hits (.mode frame :: credits) = hits credits := rfl
      have hEarlier : hits (earlier ++ [.mode frame]) = hits earlier := by simp [hits, hit?]
      rw [hFrames, hHits, hEarlier, List.map_cons, List.sum_cons]
      simp only [addition?, Option.toList_some, List.map_cons, List.map_nil, List.sum_cons,
        List.sum_nil]
      omega
    -- Whether the word counts depends on the words before it alone, and not on the modes between.
    | word id hit =>
      have hFrames : frames (.word id hit :: credits) = frames credits := rfl
      have hHits : hits (.word id hit :: credits) = hit :: hits credits := rfl
      have hEarlier : hits (earlier ++ [.word id hit]) = hits earlier ++ [hit] := by
        simp [hits, hit?]
      rw [hFrames, hHits, hEarlier, Hit.counted]
      by_cases hFew : Hit.times (hits earlier) hit.key < hitLimit
      · rw [addition?, if_pos hFew, if_pos hFew]
        simp only [Option.toList_some, List.map_cons, List.map_nil, List.sum_cons, List.sum_nil]
        omega
      · rw [addition?, if_neg hFew, if_neg hFew]
        exact Nat.zero_add _

theorem exists_word {hit : Hit} {credits : List Credit} (h : hit ∈ hits credits) :
    ∃ id, .word id hit ∈ credits := by
  obtain ⟨credit, hCredit, hHit⟩ := List.mem_filterMap.1 h
  cases credit with
  | mode frame => cases hHit
  | word id _ =>
    cases hHit
    exact ⟨id, hCredit⟩

theorem sum_additions_eq_earned (m : Machine) (credits : List Credit) :
    ((additions m [] credits).map (·.toNat)).sum = m.earned credits :=
  sum_additions m [] credits

end Credit

namespace Scan

variable {m : Machine} {text : List Char} {s : Scan}

/-- A step opens one mode at most. -/
theorem length_frames_step {count : Nat} {s' : Scan} (h : s.step m count = .goesOn s') :
    s'.frames.length ≤ s.frames.length + 1 := by
  have hRestacks := restacks_step m count s
  rw [h, Outcome.Leads] at hRestacks
  generalize s'.frames = frames at hRestacks ⊢
  cases hRestacks with
  | opens _ _ => exact Nat.le_refl _
  | closes hFrames =>
    rw [← hFrames, List.length_append]
    omega

/-- A mode that ends is open already or opens in one of the steps to come. -/
theorem length_frames_creditsFrom (m : Machine) (fuel count : Nat) (s : Scan) :
    (Credit.frames (s.creditsFrom m fuel count)).length ≤ s.frames.length + fuel := by
  induction fuel generalizing count s with
  | zero => exact Nat.zero_le _
  | succ fuel ih =>
    rw [creditsFrom]
    cases hStep : s.step m count with
    | goesOn s' =>
      have hLater := ih (count + 1) s'
      have hOpened := length_frames_step hStep
      simp only [creditsTo, wordsUpTo, Credit.frames_append, Credit.frames_words,
        Credit.frames_modes, List.length_append, List.length_take, List.length_nil]
      omega
    | ends final =>
      dsimp only
      rw [wordsUpTo, Credit.frames_words]
      exact Nat.zero_le _
    | fails e => exact Nat.zero_le _

theorem length_wordsUpTo (m : Machine) {stop : Cursor} (hStop : s.pending.Reaches stop) :
    s.pending.offset + (Credit.hits (s.wordsUpTo m stop)).length ≤ stop.offset := by
  have hOffset := (Span.after_eq_of_reaches (s := ⟨s.pending, stop⟩) hStop).2
  have hWords :=
    (m.ordered_hits s.top.mode (Span.mk s.pending stop).chars).length_le (Nat.zero_le _)
  rw [wordsUpTo, Credit.hits_words, List.length_map]
  dsimp only at hOffset
  omega

theorem Reachable.exists_counts {count : Nat} (h : Reachable m text count s) :
    ∃ cs, s.output.Counts m cs ∧ (Credit.hits cs).length ≤ s.pending.offset := by
  induction h with
  | start => exact ⟨[], .start, Nat.zero_le _⟩
  | next hReach hStep ih =>
    obtain ⟨cs, hCounts, hLength⟩ := ih
    have hWords := length_wordsUpTo m (hReach.sound.reaches_pending hStep)
    refine ⟨_, counts_step hReach.sound hCounts hStep, ?_⟩
    rw [creditsTo, Credit.hits_append, Credit.hits_append, Credit.hits_modes, List.append_nil,
      List.length_append]
    omega

/-- However far the text is flushed, no word has been counted more often than there are bytes up to
there. A counter of 32 bits would thus do for every text of fewer than `2^32` bytes. -/
theorem Reachable.hits_flush_le {count : Nat} (h : Reachable m text count s) {stop : Cursor}
    (hStop : s.pending.Reaches stop) (key : String) :
    ((s.flush m s.top.mode stop).output.hits.get? key).getD 0 ≤ stop.offset := by
  obtain ⟨cs, hCounts, hLength⟩ := h.exists_counts
  have hWords := length_wordsUpTo m hStop
  calc ((s.flush m s.top.mode stop).output.hits.get? key).getD 0
      = Hit.times (Credit.hits (cs ++ s.wordsUpTo m stop)) key :=
        (counts_flush hCounts stop).hits key
    _ ≤ (Credit.hits (cs ++ s.wordsUpTo m stop)).length := List.countP_le_length
    _ ≤ stop.offset := by
      rw [Credit.hits_append, List.length_append]
      omega

end Scan

namespace Machine

theorem length_credits_le (m : Machine) (text : List Char) :
    (Credit.frames (m.credits text)).length + (Credit.hits (m.credits text)).length ≤
      Tokenizer.stepLimit text + byteLength text := by
  have hFrames := Scan.length_frames_creditsFrom m (Tokenizer.stepLimit text) 1 (.start text)
  have hHits := (Scan.ordered_creditsFrom (.start text) m (Tokenizer.stepLimit text) 1).length_le
    (Nat.zero_le _)
  have hNone : (Scan.start text).frames.length = 0 := rfl
  rw [hNone] at hFrames
  unfold credits
  omega

/-- No mode and no word counts for more than `most`. -/
structure CountsAtMost (m : Machine) (most : Nat) : Prop where
  modes : ∀ mode ∈ m.modes, mode.relevance.toNat ≤ most
  words : ∀ index ∈ m.keywordSets, ∀ entry ∈ index.words.entries,
    entry.2.relevance.toNat ≤ most

theorem CountsAtMost.relevance_mode {m : Machine} {most : Nat} (h : m.CountsAtMost most)
    (id : Nat) : (m.mode id).relevance.toNat ≤ most := by
  rcases m.mode_mem_or_eq id with hMem | hEq
  · exact h.modes _ hMem
  · rw [hEq]
    exact Nat.zero_le most

theorem CountsAtMost.relevance_word {m : Machine} {most : Nat} (h : m.CountsAtMost most)
    {text : List Char} {id : Nat} {hit : Hit} (hLists : m.Lists text id hit) :
    hit.data.relevance.toNat ≤ most := by
  obtain ⟨place, index, word, -, hIndex, -, hData, -⟩ := hLists
  exact h.words index (Array.mem_of_getElem? hIndex) _ (Dict.get?_eq_some_iff.1 hData)

theorem sum_map_le_length_mul {α : Type} {f : α → Nat} {most : Nat} {l : List α}
    (h : ∀ a ∈ l, f a ≤ most) : (l.map f).sum ≤ l.length * most := by
  have hSum := List.sum_le_card_nsmul (l.map f) most (List.forall_mem_map.2 h)
  rwa [List.length_map, smul_eq_mul] at hSum

theorem earned_le {g : Grammar} {m : Machine} (hCompiled : g.compile = .ok m) {most : Nat}
    (h : m.CountsAtMost most) (text : List Char) :
    m.earned (m.credits text) ≤ (Tokenizer.stepLimit text + byteLength text) * most := by
  obtain ⟨place, hImage⟩ := Grammar.exists_isImage hCompiled
  have hModes : ((Credit.frames (m.credits text)).map fun frame =>
      (m.mode frame.mode).relevance.toNat).sum ≤
      (Credit.frames (m.credits text)).length * most :=
    sum_map_le_length_mul fun frame _ => h.relevance_mode frame.mode
  have hWords :
      ((Hit.counted [] (Credit.hits (m.credits text))).map (·.data.relevance.toNat)).sum ≤
        (Credit.hits (m.credits text)).length * most := by
    have hSublist := Hit.counted_sublist [] (Credit.hits (m.credits text))
    refine le_trans (sum_map_le_length_mul fun hit hHit => ?_)
      (Nat.mul_le_mul_right most hSublist.length_le)
    obtain ⟨id, hWord⟩ := Credit.exists_word (hSublist.subset hHit)
    exact h.relevance_word (Scan.lists_creditsFrom hImage (.start text) hWord)
  -- Modes and words are counted apart, and bounded together.
  calc m.earned (m.credits text)
      ≤ ((Credit.frames (m.credits text)).length + (Credit.hits (m.credits text)).length) *
        most := by
        rw [Nat.add_mul]
        exact Nat.add_le_add hModes hWords
    _ ≤ (Tokenizer.stepLimit text + byteLength text) * most :=
        Nat.mul_le_mul_right most (m.length_credits_le text)

end Machine

/-- A language that does not regard case, and in which a word counts more within quotation marks. -/
def shouts : Grammar where
  name := "shouts"
  caseInsensitive := true
  keywords := some { pattern := some "x", keyword := ["x|2"] }
  contains := [.inline (.ofSettings
    { opening := some "<", closing := some ">", relevance := some 5
      keywords := some { pattern := some "x", builtIn := ["X|3"] } })]

namespace shouts

theorem isSome_compile : shouts.compile.toOption.isSome := by decide +kernel

def machine : Machine := shouts.compile.toOption.get isSome_compile

theorem compile_eq : shouts.compile = .ok machine := Grammar.eq_ok_get isSome_compile

/-- The word occurs nine times, the last time in a quotation that does not end. -/
def text : String := "xX<xXx>xxx<x"

theorem isSome_tokenize : ((Tokenizer.fresh machine).tokenize text).1.toOption.isSome := by
  decide +kernel

def found : Tokens := ((Tokenizer.fresh machine).tokenize text).1.toOption.get isSome_tokenize

theorem tokenize_eq : ((Tokenizer.fresh machine).tokenize text).1 = .ok found :=
  Grammar.eq_ok_get isSome_tokenize

/-- Seven words count, three of which are quoted, and one quotation. -/
theorem earned_credits : machine.earned (machine.credits text.toList) = 4 * 2 + 3 * 3 + 5 := by
  decide +kernel

end shouts

/-- A language in which a mode counts for as much as it can. -/
def boasts : Grammar where
  name := "boasts"
  contains := [.inline (.ofSettings
    { category := some .string, opening := some "'", closing := some "'",
      relevance := some 4294967295 })]

namespace boasts

theorem isSome_compile : boasts.compile.toOption.isSome := by decide +kernel

def machine : Machine := boasts.compile.toOption.get isSome_compile

theorem compile_eq : boasts.compile = .ok machine := Grammar.eq_ok_get isSome_compile

end boasts

namespace Tokenizer

/-- The relevance that is found is what the text has earned, if that fits. -/
theorem toNat_relevance_of_lt {m : Machine} {t : Tokenizer m} {text : String}
    {found : Tokens} (h : (t.tokenize text).1 = .ok found)
    (hFits : m.earned (m.credits text.toList) < UInt32.size) :
    found.relevance.toNat = m.earned (m.credits text.toList) := by
  rw [relevance_tokenize h, toNat_foldl_add, Credit.sum_additions_eq_earned]
  exact (Nat.mod_eq_of_lt (by simpa using hFits)).trans (Nat.zero_add _)

/-- The relevance of a text, as long as it fits: what the modes count for that have ended in the
text, and what the first hits of each word count for in the tables that they have been found in. -/
theorem relevance_of_tokenize_eq_ok {g : Grammar} {m : Machine} (hCompiled : g.compile = .ok m)
    {t : Tokenizer m} {text : String} {found : Tokens} (h : (t.tokenize text).1 = .ok found) :
    Hit.Ordered text.toList 0 (Credit.hits (m.credits text.toList)) ∧
      (∀ id hit, .word id hit ∈ m.credits text.toList → m.Lists text.toList id hit) ∧
      (m.earned (m.credits text.toList) < UInt32.size →
        found.relevance.toNat = m.earned (m.credits text.toList)) := by
  obtain ⟨place, hImage⟩ := Grammar.exists_isImage hCompiled
  exact ⟨Scan.ordered_creditsFrom (.start text.toList) m _ 1, fun id hit hWord =>
    Scan.lists_creditsFrom hImage (.start text.toList) hWord, toNat_relevance_of_lt h⟩

theorem relevance_shouts :
    shouts.machine.earned (shouts.machine.credits shouts.text.toList) < UInt32.size ∧
      shouts.found.relevance.toNat = 22 := by
  have hFits : shouts.machine.earned (shouts.machine.credits shouts.text.toList) < UInt32.size := by
    rw [shouts.earned_credits]
    decide
  obtain ⟨-, -, hRelevance⟩ := relevance_of_tokenize_eq_ok shouts.compile_eq shouts.tokenize_eq
  exact ⟨hFits, (hRelevance hFits).trans shouts.earned_credits⟩

/-- The additions to the relevance of a text fit into its 32 bits if and only if what the text has
earned does, and if and only if the relevance that is found is what the text has earned. They fit if
the text is short for what modes and words count for. -/
theorem fits_additions_iff {g : Grammar} {m : Machine} (hCompiled : g.compile = .ok m)
    (text : String) :
    (Fits 0 (Credit.additions m [] (m.credits text.toList)) ↔
      m.earned (m.credits text.toList) < UInt32.size) ∧
    (∀ (t : Tokenizer m) (found : Tokens), (t.tokenize text).1 = .ok found →
      found.relevance = (Credit.additions m [] (m.credits text.toList)).foldl (· + ·) 0 ∧
      (Fits 0 (Credit.additions m [] (m.credits text.toList)) ↔
        found.relevance.toNat = m.earned (m.credits text.toList))) ∧
    ∀ most, m.CountsAtMost most →
      (stepLimit text.toList + text.utf8ByteSize) * most < UInt32.size →
        Fits 0 (Credit.additions m [] (m.credits text.toList)) := by
  have hFits : Fits 0 (Credit.additions m [] (m.credits text.toList)) ↔
      m.earned (m.credits text.toList) < UInt32.size := by
    rw [fits_iff, Credit.sum_additions_eq_earned]
    exact iff_of_eq (congrArg (· < UInt32.size) (Nat.zero_add _))
  refine ⟨hFits, fun t found h => ?_, fun most hMost hShort => ?_⟩
  · have hRelevance := relevance_tokenize h
    refine ⟨hRelevance, fun hAll => ?_, fun hEq => ?_⟩
    · exact toNat_relevance_of_lt h (hFits.1 hAll)
    · rw [hFits, ← hEq]
      exact found.relevance.toNat_lt_size
  · rw [hFits]
    rw [← byteLength_toList] at hShort
    exact (Machine.earned_le hCompiled hMost text.toList).trans_lt hShort

theorem fits_additions_shouts : shouts.machine.CountsAtMost 5 ∧
    (stepLimit shouts.text.toList + shouts.text.utf8ByteSize) * 5 < UInt32.size ∧
      Fits 0 (Credit.additions shouts.machine [] (shouts.machine.credits shouts.text.toList)) := by
  have hMost : shouts.machine.CountsAtMost 5 := ⟨by decide +kernel, by decide +kernel⟩
  have hShort : (stepLimit shouts.text.toList + shouts.text.utf8ByteSize) * 5 < UInt32.size := by
    decide +kernel
  obtain ⟨-, -, hFits⟩ := fits_additions_iff shouts.compile_eq shouts.text
  exact ⟨hMost, hShort, hFits 5 hMost hShort⟩

/-- The first of two boasts fills the relevance, so that the second one exceeds it. -/
theorem not_forall_fits_additions :
    ¬ ∀ (g : Grammar) (m : Machine) (text : String), g.compile = .ok m →
      Fits 0 (Credit.additions m [] (m.credits text.toList)) := by
  intro h
  have hFits := h boasts boasts.machine "'a' 'b'" boasts.compile_eq
  rw [fits_iff] at hFits
  revert hFits
  decide +kernel

end Tokenizer

end Highlighter
