import Highlighter.Proofs.Text.Decimal
import Highlighter.Render.Options

/-! Which lines of a text are shown and how they are numbered, whatever they are shown on. -/

namespace Highlighter

open Text

/-- A line as it is shown: its number, which is empty if there are no numbers, and its text. -/
structure ShownLine where
  number : List Char
  text : List Char
  deriving DecidableEq

namespace RenderOptions

variable {α β : Type} {o : RenderOptions}

/-- The lines that are shown, each with its place among all lines, counted from zero. -/
def shown (o : RenderOptions) (lines : List α) : List (α × Nat) :=
  lines.zipIdx.filter fun l => !o.isHidden (l.2 + 1)

/-- Which lines are shown depends on their places alone. -/
theorem shown_map (f : α → β) (lines : List α) :
    o.shown (lines.map f) = (o.shown lines).map (Prod.map f id) := by
  rw [shown, List.zipIdx_map, List.filter_map]
  rfl

theorem filterMap_zipIdx (f : Nat → α → β) (lines : List α) :
    (lines.zipIdx.filterMap fun l => if o.isHidden (l.2 + 1) then none else some (f l.2 l.1)) =
      (o.shown lines).map fun l => f l.2 l.1 := by
  rw [shown, ← List.filterMap_eq_map, List.filterMap_filter]
  congr
  funext l
  cases o.isHidden (l.2 + 1) <;> rfl

def numberChars (o : RenderOptions) (index : Nat) : List Char :=
  if o.lineNumbers then (toString (o.lineNumber index)).toList else []

def shownLines (o : RenderOptions) (texts : List (List Char)) : List ShownLine :=
  (o.shown texts).map fun l => ⟨o.numberChars l.2, l.1⟩

theorem shownLines_map (f : α → List Char) (lines : List α) :
    o.shownLines (lines.map f) = (o.shown lines).map fun l => ⟨o.numberChars l.2, f l.1⟩ := by
  rw [shownLines, shown_map, List.map_map]
  rfl

theorem lt_of_mem_shown {lines : List α} {l : α × Nat} (h : l ∈ o.shown lines) :
    l.2 < lines.length := by
  have hPlace := List.snd_lt_of_mem_zipIdx (List.mem_filter.1 h).1
  omega

theorem mem_of_mem_shown {lines : List α} {l : α × Nat} (h : l ∈ o.shown lines) :
    l.1 ∈ lines :=
  List.fst_mem_of_mem_zipIdx (List.mem_filter.1 h).1

/-- The room for line numbers is enough for each of them. -/
theorem length_lineNumber_le {index count : Nat} (h : index < count) :
    (toString (o.lineNumber index)).length ≤ o.lineNumberWidth count := by
  have hLast : o.lineNumber index ≤ o.lineNumber (count - 1) := by
    unfold lineNumber
    omega
  -- Numbers below zero get shorter from line to line, the others get longer.
  by_cases hNeg : o.lineNumber index < 0
  · have hFirst : o.firstNumber ≤ o.lineNumber index := by
      unfold lineNumber greatestLineNumber at hNeg ⊢
      omega
    exact Nat.le_trans (length_toString_le_of_neg hNeg hFirst) (Nat.le_max_left ..)
  · exact Nat.le_trans (length_toString_le_of_nonneg (by omega) hLast) (Nat.le_max_right ..)

theorem length_number_le {texts : List (List Char)} {l : ShownLine} (h : l ∈ o.shownLines texts) :
    l.number.length ≤ o.lineNumberWidth texts.length := by
  obtain ⟨⟨text, index⟩, hShown, rfl⟩ := List.mem_map.1 h
  dsimp only [numberChars]
  split
  · rw [String.length_toList]
    exact length_lineNumber_le (lt_of_mem_shown hShown)
  · exact Nat.zero_le _

end RenderOptions

end Highlighter
