import Highlighter.Proofs.Text.Place

/-! The place between two parts of a text. Moving it is moving characters from one part to the
other. -/

namespace Highlighter.Text

namespace Cursor

/-- The place between the parts of a text before and after it. -/
def between (left right : List Char) : Cursor := ⟨left.reverse, right, byteLength left, by simp⟩

variable (left right : List Char)

@[simp] theorem after_between : (between left right).after = right := rfl

@[simp] theorem offset_between : (between left right).offset = byteLength left := rfl

@[simp] theorem atEnd_between : (between left right).atEnd = right.isEmpty := rfl

@[simp] theorem next?_between : (between left right).next? = right.head? := rfl

@[simp] theorem previous?_between : (between left right).previous? = left.getLast? :=
  List.head?_reverse

theorem advance_between (x : Char) :
    (between left (x :: right)).advance = between (left ++ [x]) right := by
  simp [between, advance, byteLength]

theorem past?_between (word : List Char) :
    (between left (word ++ right)).past? word = some (between (left ++ word) right) := by
  induction word generalizing left with
  | nil => simp [past?]
  | cons x word ih =>
    have hNext : (between left (x :: word ++ right)).next? = some x := rfl
    rw [past?, if_pos hNext, List.cons_append, advance_between, ih, List.append_assoc]
    rfl

theorem reaches_between (word : List Char) :
    (between left (word ++ right)).Reaches (between (left ++ word) right) :=
  ⟨word, rfl, by simp [between]⟩

theorem reaches_between_start : (start (left ++ right)).Reaches (between left right) :=
  reaches_between [] right left

variable {left right}

theorem Reaches.eq_between {word : List Char} {c : Cursor}
    (h : (between left (word ++ right)).Reaches c) (hAfter : c.after = right) :
    c = between (left ++ word) right := by
  obtain ⟨passed, hPassed, hBefore⟩ := h
  rw [hAfter, after_between, List.append_cancel_right_eq] at hPassed
  obtain ⟨before, after, offset, hc⟩ := c
  subst hPassed hAfter
  simp only [between] at hBefore ⊢
  subst hBefore hc
  simp [Nat.add_comm]

theorem toEnd_between : (between left right).toEnd = between (left ++ right) [] := by
  have hReaches : (between left (right ++ [])).Reaches (between left right).toEnd := by
    rw [List.append_nil]
    exact reaches_toEnd _
  exact hReaches.eq_between (toEnd_after _)

theorem chars_between (word : List Char) :
    (⟨between left (word ++ right), between (left ++ word) right⟩ : Span).chars = word := by
  simp [Span.chars, Span.length]

end Cursor

end Highlighter.Text
