import Highlighter.Keywords
import Highlighter.Proofs.Text.Numeral
import Mathlib.Data.List.TakeWhile

/-! What a keyword table says of a word: what the first of its entries about that word says, in the
order of the categories. An entry carries the relevance of its word if a numeral stands behind its
first bar; otherwise all of it is the word. -/

namespace Highlighter

open Text

theorem readRelevance?_eq_some_iff {s : String} {relevance : UInt32} :
    readRelevance? s = some relevance ↔ IsNumeral s.toList relevance.toNat := by
  rw [readRelevance?, Option.map_eq_some_iff]
  constructor
  · rintro ⟨n, hRead, rfl⟩
    obtain ⟨hNumeral, hLt⟩ := unsigned?_eq_some_iff.1 hRead
    rwa [UInt32.toNat_ofNat_of_lt' hLt]
  · intro hNumeral
    refine ⟨relevance.toNat, unsigned?_eq_some_iff.2 ⟨hNumeral, relevance.toNat_lt⟩, ?_⟩
    exact UInt32.ofNat_toNat

namespace Keywords

/-- An entry carries the relevance of its word behind its first bar. -/
def Suffixed (entry word : String) (relevance : UInt32) : Prop :=
  ∃ suffix, entry = word ++ "|" ++ suffix ∧ '|' ∉ word.toList ∧
    IsNumeral suffix.toList relevance.toNat

/-- What an entry says: its word, and what a hit of it counts for. -/
inductive Says (entry : String) : String → UInt32 → Prop
  | suffixed {word : String} {relevance : UInt32} (h : Suffixed entry word relevance) :
    Says entry word relevance
  | common (hWhole : ∀ word relevance, ¬ Suffixed entry word relevance)
    (h : lowercase entry ∈ commonWords) : Says entry entry 0
  | other (hWhole : ∀ word relevance, ¬ Suffixed entry word relevance)
    (h : lowercase entry ∉ commonWords) : Says entry entry 1

variable {entry word : String} {relevance : UInt32}

theorem splitRelevance_of_suffixed (h : Suffixed entry word relevance) :
    splitRelevance entry = (word, relevance) := by
  obtain ⟨suffix, rfl, hBar, hNumeral⟩ := h
  have hText : (word ++ "|" ++ suffix).toList = word.toList ++ '|' :: suffix.toList := by simp
  have hWord : ∀ c ∈ word.toList, (c != '|') = true := fun c hc =>
    bne_iff_ne.2 fun hEq => hBar (hEq ▸ hc)
  have hSuffix :
      (word.toList ++ '|' :: suffix.toList).dropWhile (· != '|') = '|' :: suffix.toList := by
    rw [List.dropWhile_append_of_pos hWord]
    simp
  have hBefore : (word.toList ++ '|' :: suffix.toList).takeWhile (· != '|') = word.toList := by
    rw [List.takeWhile_append_of_pos hWord]
    simp
  have hRead : readRelevance? suffix = some relevance := readRelevance?_eq_some_iff.2 hNumeral
  simp only [splitRelevance, hText, hSuffix, hBefore, String.ofList_toList, hRead]

theorem splitRelevance_of_not_suffixed
    (hWhole : ∀ word relevance, ¬ Suffixed entry word relevance) :
    splitRelevance entry = (entry, if lowercase entry ∈ commonWords then 0 else 1) := by
  have hSplit := List.takeWhile_append_dropWhile (p := (· != '|')) (l := entry.toList)
  cases hSuffix : entry.toList.dropWhile (· != '|') with
  -- An entry without a bar is a word as a whole, and so is one with something else
  -- than a numeral behind it.
  | nil => simp [splitRelevance, hSuffix]
  | cons bar suffix =>
    have hHead := List.head?_dropWhile_not (· != '|') entry.toList
    rw [hSuffix] at hSplit hHead
    obtain rfl : bar = '|' := by simpa using hHead
    cases hRead : readRelevance? (.ofList suffix) with
    | none => simp [splitRelevance, hSuffix, hRead]
    | some relevance =>
      refine absurd ⟨.ofList suffix, ?_, ?_, readRelevance?_eq_some_iff.1 hRead⟩
        (hWhole (.ofList (entry.toList.takeWhile (· != '|'))) relevance)
      · rw [← String.toList_inj]
        simpa using hSplit.symm
      · rw [String.toList_ofList]
        intro hMem
        simpa using List.mem_takeWhile_imp hMem

/-- An entry says one thing, and this is how it is read. -/
theorem splitRelevance_eq_iff : splitRelevance entry = (word, relevance) ↔
    Says entry word relevance := by
  constructor
  · intro h
    by_cases hSome : ∃ word relevance, Suffixed entry word relevance
    · obtain ⟨word', relevance', hSuffixed⟩ := hSome
      cases h.symm.trans (splitRelevance_of_suffixed hSuffixed)
      exact .suffixed hSuffixed
    · have hWhole :
          ∀ word relevance, ¬ Suffixed entry word relevance := fun word relevance hSuffixed =>
        hSome ⟨word, relevance, hSuffixed⟩
      cases h.symm.trans (splitRelevance_of_not_suffixed hWhole)
      split
      · next hCommon => exact .common hWhole hCommon
      · next hOther => exact .other hWhole hOther
  · rintro (hSuffixed | ⟨hWhole, hCommon⟩ | ⟨hWhole, hOther⟩)
    · exact splitRelevance_of_suffixed hSuffixed
    · rw [splitRelevance_of_not_suffixed hWhole, if_pos hCommon]
    · rw [splitRelevance_of_not_suffixed hWhole, if_neg hOther]

/-- The entries of a table, each with its category, in the order in which they count. -/
def listing (k : Keywords) : List (Category × String) :=
  k.keyword.map (.keyword, ·) ++ k.literal.map (.literal, ·) ++ k.builtIn.map (.builtIn, ·) ++
    k.type.map (.type, ·)

/-- The form in which words are compared. -/
def form (ignoreCase : Bool) (word : String) : String := if ignoreCase then lowercase word else word

/-- An entry is about a word, and says what it counts for. -/
def IsAbout (ignoreCase : Bool) (word entry : String) (relevance : UInt32) : Prop :=
  ∃ listed, Says entry listed relevance ∧ form ignoreCase listed = form ignoreCase word

theorem isAbout_iff {ignoreCase : Bool} : IsAbout ignoreCase word entry relevance ↔
    form ignoreCase (splitRelevance entry).1 = form ignoreCase word ∧
      (splitRelevance entry).2 = relevance := by
  constructor
  · rintro ⟨listed, hSays, hForm⟩
    rw [splitRelevance_eq_iff.2 hSays]
    exact ⟨hForm, rfl⟩
  · rintro ⟨hForm, rfl⟩
    exact ⟨_, splitRelevance_eq_iff.1 rfl, hForm⟩

/-- What an entry of the listing says of a word, if it is about that word. -/
def saidOf? (ignoreCase : Bool) (word : String) (item : Category × String) : Option KeywordData :=
  if form ignoreCase (splitRelevance item.2).1 = form ignoreCase word then
    some ⟨item.1, (splitRelevance item.2).2⟩
  else none

theorem saidOf?_eq_some_iff {ignoreCase : Bool} {item : Category × String} {category : Category} :
    saidOf? ignoreCase word item = some ⟨category, relevance⟩ ↔
      item.1 = category ∧ IsAbout ignoreCase word item.2 relevance := by
  simp only [saidOf?, isAbout_iff, Option.ite_none_right_eq_some, Option.some.injEq,
    KeywordData.mk.injEq]
  tauto

theorem saidOf?_eq_none_iff {ignoreCase : Bool} {item : Category × String} :
    saidOf? ignoreCase word item = none ↔ ∀ n, ¬ IsAbout ignoreCase word item.2 n := by
  simp [saidOf?, isAbout_iff]

theorem get?_index_eq_findSome? (k : Keywords) (ignoreCase : Bool) (word : String) :
    (k.index ignoreCase).get? word = k.listing.findSome? (saidOf? ignoreCase word) := by
  let reading (item : Category × String) : String × KeywordData :=
    (form ignoreCase (splitRelevance item.2).1, ⟨item.1, (splitRelevance item.2).2⟩)
  have hReadings : k.readings ignoreCase = k.listing.map reading := by
    simp [readings, categories, entries, listing, reading, form, Function.comp_def]
  show (Dict.ofFirst (k.readings ignoreCase)).get? (form ignoreCase word) = _
  rw [Dict.get?_ofFirst, hReadings, List.lookup_eq_findSome?, List.findSome?_map]
  refine congrArg (k.listing.findSome? ·) (funext fun item => ?_)
  exact if_congr (beq_iff_eq.trans eq_comm) rfl rfl

/-- A table says of a word what the first entry about it says, whether case is regarded or not. It
says nothing of a word that no entry is about. -/
theorem get?_index_eq_iff (k : Keywords) (ignoreCase : Bool) (word : String) :
    (∀ category relevance, (k.index ignoreCase).get? word = some ⟨category, relevance⟩ ↔
      ∃ before entry after, k.listing = before ++ (category, entry) :: after ∧
        IsAbout ignoreCase word entry relevance ∧
        ∀ earlier ∈ before, ∀ n, ¬ IsAbout ignoreCase word earlier.2 n) ∧
    ((k.index ignoreCase).get? word = none ↔
      ∀ item ∈ k.listing, ∀ n, ¬ IsAbout ignoreCase word item.2 n) := by
  rw [get?_index_eq_findSome?]
  refine ⟨fun category relevance => ?_, ?_⟩
  · rw [List.findSome?_eq_some_iff]
    constructor
    · rintro ⟨before, ⟨_, entry⟩, after, hListing, hSaid, hBefore⟩
      obtain ⟨rfl, hAbout⟩ := saidOf?_eq_some_iff.1 hSaid
      exact ⟨before, entry, after, hListing, hAbout,
        fun item hItem => saidOf?_eq_none_iff.1 (hBefore item hItem)⟩
    · rintro ⟨before, entry, after, hListing, hAbout, hBefore⟩
      exact ⟨before, (category, entry), after, hListing, saidOf?_eq_some_iff.2 ⟨rfl, hAbout⟩,
        fun item hItem => saidOf?_eq_none_iff.2 (hBefore item hItem)⟩
  · rw [List.findSome?_eq_none_iff]
    exact forall₂_congr fun item _ => saidOf?_eq_none_iff

end Keywords

end Highlighter
