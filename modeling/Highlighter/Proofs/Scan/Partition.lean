import Highlighter.Proofs.Scan.Forest
import Highlighter.Scan.Output
import Mathlib.Data.List.Chain

/-! Tokens as a partition of a text. `Cover` says of the tokens at hand, listed from the last one,
what `Partition` says of the tokens in the end; `Agree` ties them to the regions at hand: a token
carries the categories of the regions around each of its bytes. Adding a token keeps both. -/

namespace Highlighter

open Text

/-- The tokens cut a text into stretches that are not empty, between characters, from the start of
the text to its end; neighbours differ in their categories. -/
structure Partition (text : String) (tokens : List Token) : Prop where
  nonempty : ∀ t ∈ tokens, t.start < t.stop
  boundary : ∀ t ∈ tokens,
    (⟨t.start⟩ : String.Pos.Raw).IsValid text ∧ (⟨t.stop⟩ : String.Pos.Raw).IsValid text
  first : ∀ t ∈ tokens.head?, t.start = 0
  adjacent : tokens.IsChain fun a b => b.start = a.stop ∧ a.categories ≠ b.categories
  last : ∀ t ∈ tokens.getLast?, t.stop = text.utf8ByteSize
  empty : tokens = [] ↔ text = ""

/-- A token covers the byte at an offset. -/
def Token.covers (t : Token) (p : Nat) : Bool := t.start ≤ p && p < t.stop

theorem Token.covers_iff {t : Token} {p : Nat} : t.covers p = true ↔
    t.start ≤ p ∧ p < t.stop := by
  simp [covers]

theorem Output.addToken_cons (t last : Token) (earlier : List Token) :
    Output.addToken t (last :: earlier) =
      if last.stop = t.start ∧ last.categories = t.categories then
        { last with stop := t.stop } :: earlier
      else t :: last :: earlier := rfl

/-- The tokens, listed from the last one, cut the text before the offset `n`, and neighbours
differ in their categories. -/
def Cover (text : List Char) : Nat → List Token → Prop
  | n, [] => n = 0
  | n, t :: earlier =>
    t.stop = n ∧ t.start < n ∧ Boundary text n ∧
      (∀ last ∈ earlier.head?, last.categories ≠ t.categories) ∧ Cover text t.start earlier

/-- The categories of the entries around the byte at an offset, the outermost first. -/
def categoriesAt (es : List Entry) (p : Nat) : List Category :=
  (es.filter (·.covers p)).map (·.region.category)

/-- Each token carries the categories of the entries around each of its bytes. -/
def Agree (es : List Entry) (tokens : List Token) : Prop :=
  ∀ t ∈ tokens, ∀ p, t.covers p = true → t.categories = categoriesAt es p

namespace Cover

variable {text : List Char} {n : Nat} {tokens : List Token}

theorem boundary (h : Cover text n tokens) : Boundary text n := by
  cases tokens with
  | nil =>
    obtain rfl : n = 0 := h
    exact boundary_zero text
  | cons t earlier => exact h.2.2.1

theorem bounds (h : Cover text n tokens) :
    ∀ t ∈ tokens, t.start < t.stop ∧ t.stop ≤ n ∧ Boundary text t.start ∧
      Boundary text t.stop := by
  induction tokens generalizing n with
  | nil => exact nofun
  | cons t earlier ih =>
    obtain ⟨rfl, hLt, hBoundary, -, hEarlier⟩ := h
    intro u hu
    rcases List.mem_cons.1 hu with rfl | hu
    · exact ⟨hLt, Nat.le_refl _, hEarlier.boundary, hBoundary⟩
    · obtain ⟨hLt', hLe, hB⟩ := ih hEarlier u hu
      exact ⟨hLt', by omega, hB⟩

theorem exists_covers (h : Cover text n tokens) {p : Nat} (hp : p < n) :
    ∃ t ∈ tokens, t.covers p = true := by
  induction tokens generalizing n with
  | nil =>
    obtain rfl : n = 0 := h
    omega
  | cons t earlier ih =>
    obtain ⟨rfl, -, -, -, hEarlier⟩ := h
    by_cases hStart : t.start ≤ p
    · exact ⟨t, List.mem_cons_self, Token.covers_iff.2 ⟨hStart, hp⟩⟩
    · obtain ⟨u, hu, hCovers⟩ := ih hEarlier (by omega)
      exact ⟨u, List.mem_cons_of_mem t hu, hCovers⟩

/-- The text up to `stop` is added as a token or to the last one. -/
theorem addToken (h : Cover text n tokens) {stop : Nat} {categories : List Category} (hn : n < stop)
    (hBoundary : Boundary text stop) :
    Cover text stop (Output.addToken ⟨n, stop, categories⟩ tokens) := by
  cases tokens with
  | nil =>
    obtain rfl : n = 0 := h
    exact ⟨rfl, hn, hBoundary, nofun, rfl⟩
  | cons last earlier =>
    have hLast : last.stop = n := h.1
    rw [Output.addToken_cons]
    by_cases hSame : last.categories = categories
    · obtain ⟨-, hLt, -, hDiffer, hEarlier⟩ := h
      rw [if_pos ⟨hLast, hSame⟩]
      exact ⟨rfl, by show last.start < stop; omega, hBoundary, hDiffer, hEarlier⟩
    · rw [if_neg fun hBoth => hSame hBoth.2]
      refine ⟨rfl, hn, hBoundary, fun t ht => ?_, h⟩
      obtain rfl : last = t := by simpa using ht
      exact hSame

theorem first (h : Cover text n tokens) : ∀ t ∈ tokens.getLast?, t.start = 0 := by
  induction tokens generalizing n with
  | nil => exact nofun
  | cons t earlier ih =>
    intro u hu
    have hEarlier := h.2.2.2.2
    cases earlier with
    | nil =>
      obtain rfl : t = u := by simpa using hu
      exact hEarlier
    | cons v earlier => exact ih hEarlier u (by simpa [List.getLast?_cons_cons] using hu)

theorem chain (h : Cover text n tokens) :
    tokens.IsChain fun a b => a.start = b.stop ∧ b.categories ≠ a.categories := by
  induction tokens generalizing n with
  | nil => exact .nil
  | cons t earlier ih =>
    obtain ⟨-, -, -, hDiffer, hEarlier⟩ := h
    refine List.isChain_cons.2 ⟨fun last hLast => ⟨?_, hDiffer last hLast⟩, ih hEarlier⟩
    cases earlier with
    | nil => cases hLast
    | cons u earlier =>
      obtain rfl : u = last := by simpa using hLast
      exact hEarlier.1.symm

/-- Tokens that cut all of a text are a partition of it once they are listed from the first one. -/
theorem partition {s : String} (h : Cover s.toList s.utf8ByteSize tokens) :
    Partition s tokens.reverse := by
  refine ⟨fun t ht => ?_, fun t ht => ?_, ?_, ?_, ?_, ?_⟩
  · exact (h.bounds t (List.mem_reverse.1 ht)).1
  · obtain ⟨-, -, hStart, hStop⟩ := h.bounds t (List.mem_reverse.1 ht)
    exact ⟨boundary_toList_iff.1 hStart, boundary_toList_iff.1 hStop⟩
  · rw [List.head?_reverse]
    exact h.first
  · rw [List.isChain_reverse]
    exact h.chain
  · rw [List.getLast?_reverse]
    cases tokens with
    | nil => exact nofun
    | cons t earlier =>
      intro u hu
      obtain rfl : t = u := by simpa using hu
      exact h.1
  · rw [List.reverse_eq_nil_iff]
    constructor
    · rintro rfl
      exact String.utf8ByteSize_eq_zero_iff.1 h
    · rintro rfl
      cases tokens with
      | nil => rfl
      | cons t earlier =>
        have hLt := h.2.1
        simp at hLt

end Cover

namespace Agree

variable {text : List Char} {n : Nat} {es es' : List Entry} {tokens : List Token}

/-- Entries may change where no token lies yet. -/
theorem of_categoriesAt_eq (h : Agree es tokens) (hCover : Cover text n tokens)
    (hSame : ∀ p < n, categoriesAt es' p = categoriesAt es p) : Agree es' tokens := by
  intro t ht p hp
  have hStop := (hCover.bounds t ht).2.1
  have hLt := (Token.covers_iff.1 hp).2
  rw [hSame p (by omega)]
  exact h t ht p hp

/-- A token is added, or the last one continued, with the categories of the entries around its
text. -/
theorem addToken (h : Agree es tokens) {stop : Nat} {categories : List Category}
    (hSame : ∀ p, n ≤ p → p < stop → categoriesAt es p = categories) :
    Agree es (Output.addToken ⟨n, stop, categories⟩ tokens) := by
  have hNew : ∀ {t : Token}, t.stop = stop → t.categories = categories → ∀ p, n ≤ p →
      t.covers p = true → t.categories = categoriesAt es p := by
    intro t hStop hCategories p hp hCovers
    have hLt := (Token.covers_iff.1 hCovers).2
    rw [hCategories, hSame p hp (by omega)]
  have hAdded : ∀ p, (⟨n, stop, categories⟩ : Token).covers p = true →
      categories = categoriesAt es p :=
    fun p hp => hNew rfl rfl p (Token.covers_iff.1 hp).1 hp
  cases tokens with
  | nil =>
    intro t ht p hp
    obtain rfl := List.mem_singleton.1 ht
    exact hAdded p hp
  | cons last earlier =>
    rw [Output.addToken_cons]
    split
    · next hBoth =>
      have hStop : last.stop = n := hBoth.1
      intro t ht p hp
      rcases List.mem_cons.1 ht with rfl | ht
      · by_cases hpn : n ≤ p
        · exact hNew (t := ⟨last.start, stop, last.categories⟩) rfl hBoth.2 p hpn hp
        · have hStart : last.start ≤ p := (Token.covers_iff.1 hp).1
          exact h last List.mem_cons_self p (Token.covers_iff.2 ⟨hStart, by omega⟩)
      · exact h t (List.mem_cons_of_mem last ht) p hp
    · intro t ht p hp
      rcases List.mem_cons.1 ht with rfl | ht
      · exact hAdded p hp
      · exact h t ht p hp

end Agree

end Highlighter
