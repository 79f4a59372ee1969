import Highlighter.Proofs.Grammar.Faithful
import Highlighter.Proofs.Scan.Credit

/-! The words among the credits of a text. They stand in the text, one behind the other, and are
entries of the keyword table of the mode that they have been found in, looked up and counted in
lower case if the grammar does not regard case. -/

namespace Highlighter

open Text

theorem Span.Succeed.reaches {c : Cursor} {spans : List Span} (h : Span.Succeed c spans) {s : Span}
    (hs : s ∈ spans) : c.Reaches s.start ∧ s.start.Reaches s.stop := by
  induction spans generalizing c with
  | nil => cases hs
  | cons first spans ih =>
    obtain ⟨hStart, hStop, -, hRest⟩ := h
    rcases List.mem_cons.1 hs with rfl | hs
    · exact ⟨hStart, hStop⟩
    · exact ⟨(hStart.trans hStop).trans (ih hRest hs).1, (ih hRest hs).2⟩

namespace Hit

/-- A hit covers a word of a text. -/
def Covers (text : List Char) (hit : Hit) (word : String) : Prop :=
  ∃ left right, text = left ++ (word.toList ++ right) ∧ hit.start = byteLength left ∧
    hit.stop = hit.start + byteLength word.toList

variable {text : List Char} {hit : Hit} {n k : Nat}

theorem Covers.shift {middle : List Char} {word : String} (h : Covers middle hit word)
    (left right : List Char) :
    Covers (left ++ (middle ++ right)) (hit.shift (byteLength left)) word := by
  obtain ⟨l, r, rfl, hStart, hStop⟩ := h
  refine ⟨left ++ l, r ++ right, by simp, ?_, ?_⟩
  · simp [Hit.shift, hStart]
  · simp only [Hit.shift, hStop]
    omega

namespace Ordered

theorem mono {hits : List Hit} (h : Ordered text n hits) (hk : k ≤ n) : Ordered text k hits := by
  cases hits with
  | nil => trivial
  | cons hit hits => exact ⟨hk.trans h.1, h.2⟩

theorem shift {middle : List Char} {hits : List Hit} (h : Ordered middle n hits)
    (left right : List Char) :
    Ordered (left ++ (middle ++ right)) (byteLength left + n)
      (hits.map (Hit.shift (byteLength left))) := by
  induction hits generalizing n with
  | nil => trivial
  | cons hit hits ih =>
    obtain ⟨hLe, hLt, hStart, hStop, hRest⟩ := h
    exact ⟨Nat.add_le_add_left hLe _, Nat.add_lt_add_left hLt _, hStart.shift,
      hStop.shift, ih hRest⟩

theorem append {hits hits' : List Hit} (h : Ordered text n hits)
    (hBelow : ∀ hit ∈ hits, hit.stop ≤ k) (hn : n ≤ k) (h' : Ordered text k hits') :
    Ordered text n (hits ++ hits') := by
  induction hits generalizing n with
  | nil => exact h'.mono hn
  | cons hit hits ih =>
    obtain ⟨hLe, hLt, hStart, hStop, hRest⟩ := h
    obtain ⟨hHit, hBelow⟩ := List.forall_mem_cons.1 hBelow
    exact ⟨hLe, hLt, hStart, hStop, ih hRest hBelow hHit⟩

theorem bounds {hits : List Hit} (h : Ordered text n hits) (hHit : hit ∈ hits) :
    hit.start < hit.stop ∧ hit.stop ≤ byteLength text := by
  induction hits generalizing n with
  | nil => cases hHit
  | cons first hits ih =>
    obtain ⟨-, hLt, -, hStop, hRest⟩ := h
    rcases List.mem_cons.1 hHit with rfl | hHit
    · exact ⟨hLt, hStop.le⟩
    · exact ih hRest hHit

/-- There are no more words than bytes. -/
theorem length_le {hits : List Hit} (h : Ordered text n hits) (hn : n ≤ byteLength text) :
    hits.length + n ≤ byteLength text := by
  induction hits generalizing n with
  | nil => simpa using hn
  | cons hit hits ih =>
    obtain ⟨hLe, hLt, -, hStop, hRest⟩ := h
    have hLength := ih hRest hStop.le
    rw [List.length_cons]
    omega

end Ordered

end Hit

theorem KeywordIndex.exists_word {k : KeywordIndex} {text : List Char} {hit : Hit}
    (h : hit ∈ k.hits text) :
    ∃ word, hit.Covers text word ∧ k.get? word = some hit.data ∧ hit.key = k.key word := by
  obtain ⟨s, hs, hHit⟩ := List.mem_filterMap.1 h
  obtain ⟨data, hData, rfl⟩ := Option.map_eq_some_iff.1 hHit
  have hSpans : Span.Succeed (.start text) (k.regex.allMatches text) :=
    k.regex.succeed_matchesFrom _ _
  obtain ⟨hStart, hStop⟩ := hSpans.reaches hs
  obtain ⟨left, hLeft, hOffset⟩ := hStart.exists_passed
  obtain ⟨hAfter, hLength⟩ := Span.after_eq_of_reaches hStop
  rw [hAfter] at hLeft
  refine ⟨s.text, ⟨left, s.stop.after, ?_, ?_, ?_⟩, hData, rfl⟩
  · rw [Span.text, String.toList_ofList]
    exact hLeft
  · exact hOffset.trans (Nat.zero_add _)
  · rw [Span.text, String.toList_ofList]
    exact hLength

/-- A hit is a word of a text that stands in the keyword table of a mode. -/
def Machine.Lists (m : Machine) (text : List Char) (id : Nat) (hit : Hit) : Prop :=
  ∃ place index word, (m.mode id).keywords = some place ∧ m.keywordSets[place]? = some index ∧
    hit.Covers text word ∧ index.get? word = some hit.data ∧
    hit.key = if m.caseInsensitive then lowercase word else word

/-- Where a machine has its modes' keywords from, they regard case as the grammar does. -/
theorem Machine.IsImage.ignoreCase_eq {g : Grammar} {m : Machine} {place : Address → Nat}
    (h : m.IsImage g place) {id table : Nat} {index : KeywordIndex}
    (hTable : (m.mode id).keywords = some table) (hIndex : m.keywordSets[table]? = some index) :
    index.regex.ignoreCase = m.caseInsensitive := by
  have hId : id < m.modes.size := by
    refine Nat.lt_of_not_le fun hLe => ?_
    rw [mode, Array.getD_eq_getD_getElem?, Array.getElem?_eq_none hLe] at hTable
    cases hTable
  obtain ⟨a, ha, rfl⟩ := h.places.surjOn hId
  obtain ⟨rule, hRule⟩ := Option.isSome_iff_exists.1 ha
  have hKeywords := (h.depicts hRule).1.keywords
  rw [PlaceOf, hTable, Option.map_some, hIndex] at hKeywords
  cases hRuled : rule.settings.keywordTable with
  | none =>
    rw [hRuled] at hKeywords
    cases hKeywords
  | some keywords =>
    rw [hRuled] at hKeywords
    cases hKeywords
    exact h.caseInsensitive.symm

namespace Scan

variable {m : Machine} {text : List Char} {s : Scan}

/-- The pending text up to a place is a stretch of the text. -/
theorem Sound.exists_pending (hSound : s.Sound text) {stop : Cursor}
    (hStop : s.pending.Reaches stop) :
    ∃ left right, text = left ++ ((Span.mk s.pending stop).chars ++ right) ∧
      s.pending.offset = byteLength left ∧
      stop.offset = byteLength left + byteLength (Span.mk s.pending stop).chars := by
  obtain ⟨left, hText, hLeft⟩ := hSound.pending.exists_passed
  obtain ⟨hAfter, hOffset⟩ := Span.after_eq_of_reaches (s := ⟨s.pending, stop⟩) hStop
  have hLeft : s.pending.offset = byteLength left := hLeft.trans (Nat.zero_add _)
  refine ⟨left, stop.after, ?_, hLeft, hLeft ▸ hOffset⟩
  rw [← hAfter]
  exact hText

theorem ordered_wordsUpTo (hSound : s.Sound text) (m : Machine) {stop : Cursor}
    (hStop : s.pending.Reaches stop) :
    Hit.Ordered text s.pending.offset (Credit.hits (s.wordsUpTo m stop)) ∧
      ∀ hit ∈ Credit.hits (s.wordsUpTo m stop), hit.stop ≤ stop.offset := by
  obtain ⟨left, right, hText, hLeft, hOffset⟩ := hSound.exists_pending hStop
  have hOrdered := m.ordered_hits s.top.mode (Span.mk s.pending stop).chars
  rw [wordsUpTo, Credit.hits_words, hLeft, hOffset]
  refine ⟨?_, fun hit hHit => ?_⟩
  · rw [hText]
    exact hOrdered.shift left right
  · obtain ⟨within, hWithin, rfl⟩ := List.mem_map.1 hHit
    exact Nat.add_le_add_left (hOrdered.bounds hWithin).2 _

theorem lists_wordsUpTo {g : Grammar} {place : Address → Nat} (hImage : m.IsImage g place)
    (hSound : s.Sound text) {stop : Cursor} (hStop : s.pending.Reaches stop) {id : Nat} {hit : Hit}
    (h : .word id hit ∈ s.wordsUpTo m stop) : m.Lists text id hit := by
  obtain ⟨left, right, hText, hLeft, -⟩ := hSound.exists_pending hStop
  obtain ⟨_, hShifted, hEq⟩ := List.mem_map.1 h
  obtain ⟨within, hWithin, rfl⟩ := List.mem_map.1 hShifted
  cases hEq
  unfold Machine.hits at hWithin
  split at hWithin
  · next index hIndex =>
    obtain ⟨table, hTable, hIndex⟩ := Option.bind_eq_some_iff.1 hIndex
    obtain ⟨word, hCovers, hData, hKey⟩ := KeywordIndex.exists_word hWithin
    refine ⟨table, index, word, hTable, hIndex, ?_, hData, ?_⟩
    · rw [hText, hLeft]
      exact hCovers.shift left right
    · rw [← hImage.ignoreCase_eq hTable hIndex]
      exact hKey
  · cases hWithin

theorem ordered_creditsFrom (hSound : s.Sound text) (m : Machine) (fuel count : Nat) :
    Hit.Ordered text s.pending.offset (Credit.hits (s.creditsFrom m fuel count)) := by
  induction fuel generalizing count s with
  | zero => trivial
  | succ fuel ih =>
    have hLeads := hSound.step m count
    rw [creditsFrom]
    cases hStep : s.step m count with
    | goesOn s' =>
      rw [hStep] at hLeads
      have hPending := hSound.reaches_pending hStep
      obtain ⟨hOrdered, hBelow⟩ := ordered_wordsUpTo hSound m hPending
      dsimp only
      rw [creditsTo, List.append_assoc, Credit.hits_append, Credit.hits_append, Credit.hits_modes,
        List.nil_append]
      exact hOrdered.append hBelow hPending.offset_le (ih hLeads (count + 1))
    | ends final =>
      rw [hStep] at hLeads
      have hFinal := (ordered_wordsUpTo hLeads m (Cursor.reaches_toEnd final.pending)).1
      rw [← (eq_of_step_eq_ends hStep).2]
      exact hFinal
    | fails e => trivial

theorem lists_creditsFrom {g : Grammar} {place : Address → Nat} (hImage : m.IsImage g place)
    (hSound : s.Sound text) {fuel count id : Nat} {hit : Hit}
    (h : .word id hit ∈ s.creditsFrom m fuel count) : m.Lists text id hit := by
  induction fuel generalizing count s with
  | zero => cases h
  | succ fuel ih =>
    have hLeads := hSound.step m count
    rw [creditsFrom] at h
    cases hStep : s.step m count with
    | goesOn s' =>
      rw [hStep] at h hLeads
      rcases List.mem_append.1 h with hNow | hLater
      · rcases List.mem_append.1 hNow with hWord | hMode
        · exact lists_wordsUpTo hImage hSound (hSound.reaches_pending hStep) hWord
        · obtain ⟨frame, -, hEq⟩ := List.mem_map.1 hMode
          cases hEq
      · exact ih hLeads hLater
    | ends final =>
      rw [hStep] at h hLeads
      exact lists_wordsUpTo hImage hLeads (Cursor.reaches_toEnd final.pending) h
    | fails e =>
      rw [hStep] at h
      cases h

end Scan

end Highlighter
