import Highlighter.Text.Cursor

/-! Places of one text. `Reaches` orders the cursors of a text from left to right; `Boundary`
tells which byte offsets lie between two characters, and agrees with the standard library's
notion of a valid position. -/

namespace Highlighter.Text

@[simp] theorem byteLength_append (left right : List Char) :
    byteLength (left ++ right) = byteLength left + byteLength right := by
  induction left with
  | nil => simp [byteLength]
  | cons c left ih => simp [byteLength, ih, Nat.add_assoc]

@[simp] theorem byteLength_reverse (cs : List Char) : byteLength cs.reverse = byteLength cs := by
  induction cs with
  | nil => rfl
  | cons c cs ih => simp [byteLength, ih, Nat.add_comm]

theorem byteLength_eq_zero {cs : List Char} (h : byteLength cs = 0) : cs = [] := by
  cases cs with
  | nil => rfl
  | cons c cs =>
    have hPos := c.utf8Size_pos
    simp only [byteLength] at h
    omega

theorem length_le_byteLength (cs : List Char) : cs.length ≤ byteLength cs := by
  induction cs with
  | nil => exact Nat.le_refl 0
  | cons c cs ih =>
    have hPos := c.utf8Size_pos
    simp only [List.length_cons, byteLength]
    omega

theorem byteLength_toList (s : String) : byteLength s.toList = s.utf8ByteSize := by
  obtain ⟨cs, rfl⟩ := s.exists_eq_ofList
  rw [String.toList_ofList]
  induction cs with
  | nil => rfl
  | cons c cs ih =>
    rw [show c :: cs = [c] ++ cs from rfl, String.ofList_append, String.utf8ByteSize_append,
      byteLength_append, ih]
    simp [byteLength]

/-- A byte offset between two characters of a text, or at one of its ends. -/
def Boundary (text : List Char) (n : Nat) : Prop :=
  ∃ left right, text = left ++ right ∧ byteLength left = n

theorem boundary_zero (text : List Char) : Boundary text 0 := ⟨[], text, rfl, rfl⟩

theorem Boundary.le {text : List Char} {n : Nat} (h : Boundary text n) : n ≤ byteLength text := by
  obtain ⟨left, right, rfl, rfl⟩ := h
  rw [byteLength_append]
  omega

theorem Boundary.shift {left middle right : List Char} {n : Nat} (h : Boundary middle n) :
    Boundary (left ++ (middle ++ right)) (byteLength left + n) := by
  obtain ⟨l, r, rfl, rfl⟩ := h
  exact ⟨left ++ l, r ++ right, by simp, by simp⟩

/-- The standard library's valid positions are the boundaries. -/
theorem boundary_toList_iff {s : String} {n : Nat} :
    Boundary s.toList n ↔ (⟨n⟩ : String.Pos.Raw).IsValid s := by
  rw [String.Pos.Raw.isValid_iff_exists_append]
  constructor
  · rintro ⟨left, right, hText, rfl⟩
    refine ⟨.ofList left, .ofList right, ?_, ?_⟩
    · rw [← String.ofList_append, ← hText, String.ofList_toList]
    · rw [String.Pos.Raw.ext_iff, String.byteIdx_rawEndPos, ← byteLength_toList,
        String.toList_ofList]
  · rintro ⟨left, right, rfl, hn⟩
    refine ⟨left.toList, right.toList, String.toList_append, ?_⟩
    rw [byteLength_toList, ← String.byteIdx_rawEndPos, ← hn]

namespace Cursor

/-- `d` lies at or after `c` in the same text. -/
def Reaches (c d : Cursor) : Prop :=
  ∃ passed, c.after = passed ++ d.after ∧ d.before = passed.reverse ++ c.before

theorem Reaches.refl (c : Cursor) : c.Reaches c := ⟨[], rfl, rfl⟩

theorem Reaches.trans {c d e : Cursor} (h1 : c.Reaches d) (h2 : d.Reaches e) : c.Reaches e := by
  obtain ⟨p, hp, hp'⟩ := h1
  obtain ⟨q, hq, hq'⟩ := h2
  exact ⟨p ++ q, by rw [hp, hq, List.append_assoc],
    by rw [hq', hp', List.reverse_append, List.append_assoc]⟩

/-- The offsets of two places differ by the bytes between them. -/
theorem Reaches.exists_passed {c d : Cursor} (h : c.Reaches d) :
    ∃ passed, c.after = passed ++ d.after ∧ d.offset = c.offset + byteLength passed := by
  obtain ⟨passed, hAfter, hBefore⟩ := h
  refine ⟨passed, hAfter, ?_⟩
  rw [d.offset_eq, c.offset_eq, hBefore, byteLength_append, byteLength_reverse, Nat.add_comm]

theorem Reaches.offset_le {c d : Cursor} (h : c.Reaches d) : c.offset ≤ d.offset := by
  obtain ⟨passed, -, hOffset⟩ := h.exists_passed
  omega

theorem Reaches.eq_of_offset_le {c d : Cursor} (h : c.Reaches d)
    (hLe : d.offset ≤ c.offset) : c = d := by
  obtain ⟨passed, hAfter, hOffset⟩ := h.exists_passed
  obtain rfl : passed = [] := byteLength_eq_zero (by omega)
  obtain ⟨nothing, hAfter', hBefore⟩ := h
  obtain rfl : nothing = [] := by
    rw [hAfter, List.append_cancel_right_eq] at hAfter'
    exact hAfter'.symm
  obtain ⟨before, after, offset, hc⟩ := c
  obtain ⟨before', after', offset', hd⟩ := d
  cases hAfter
  cases hBefore
  cases hOffset
  rfl

theorem Reaches.length_le {c d : Cursor} (h : c.Reaches d) : d.after.length ≤ c.after.length := by
  obtain ⟨passed, hAfter, -⟩ := h
  rw [hAfter, List.length_append]
  omega

theorem Reaches.length_lt {c d : Cursor} (h : c.Reaches d) (hLt : c.offset < d.offset) :
    d.after.length < c.after.length := by
  obtain ⟨passed, hAfter, hOffset⟩ := h.exists_passed
  cases passed with
  | nil =>
    simp only [byteLength] at hOffset
    omega
  | cons x passed =>
    rw [hAfter, List.length_append, List.length_cons]
    omega

theorem reaches_advance (c : Cursor) : c.Reaches c.advance := by
  obtain ⟨before, _ | ⟨x, after⟩, offset, hOffset⟩ := c
  · exact Reaches.refl _
  · exact ⟨[x], rfl, rfl⟩

theorem Reaches.advance {c d : Cursor} (h : c.Reaches d) (hLt : c.offset < d.offset) :
    c.advance.Reaches d := by
  obtain ⟨_ | ⟨x, passed⟩, hAfter, hBefore⟩ := h
  · rw [c.offset_eq, d.offset_eq, hBefore] at hLt
    exact absurd hLt (Nat.lt_irrefl _)
  · obtain ⟨before, after, offset, hc⟩ := c
    obtain rfl : after = x :: (passed ++ d.after) := hAfter
    exact ⟨passed, rfl, by simp [hBefore, Cursor.advance]⟩

theorem Reaches.eq_or_advance {c d : Cursor} (h : c.Reaches d) :
    c = d ∨ c.offset < d.offset ∧ c.advance.Reaches d := by
  rcases Nat.lt_or_ge c.offset d.offset with hLt | hLe
  · exact .inr ⟨hLt, h.advance hLt⟩
  · exact .inl (h.eq_of_offset_le hLe)

theorem Reaches.eq_of_atEnd {c d : Cursor} (h : c.Reaches d) (hEnd : c.atEnd = true) : c = d := by
  refine h.eq_of_offset_le (Nat.le_of_not_lt fun hLt => ?_)
  have hLength := h.length_lt hLt
  rw [List.isEmpty_iff.1 hEnd] at hLength
  exact Nat.not_lt_zero _ hLength

theorem reaches_past? {c d : Cursor} {expected : List Char} (h : c.past? expected = some d) :
    c.Reaches d := by
  induction expected generalizing c with
  | nil =>
    obtain rfl : c = d := by simpa [past?] using h
    exact Reaches.refl c
  | cons x expected ih =>
    unfold past? at h
    split at h
    · exact (reaches_advance c).trans (ih h)
    · cases h

theorem advance_after {c : Cursor} {x : Char} {rest : List Char} (h : c.after = x :: rest) :
    c.advance.after = rest := by
  obtain ⟨before, after, offset, hOffset⟩ := c
  subst h
  rfl

theorem next?_eq_some_iff {c : Cursor} {x : Char} : c.next? = some x ↔
    ∃ rest, c.after = x :: rest :=
  List.head?_eq_some_iff

theorem after_of_past? {c d : Cursor} {expected : List Char} (h : c.past? expected = some d) :
    c.after = expected ++ d.after ∧ d.offset = c.offset + byteLength expected := by
  induction expected generalizing c with
  | nil =>
    obtain rfl : c = d := by simpa [past?] using h
    exact ⟨rfl, rfl⟩
  | cons x expected ih =>
    unfold past? at h
    split at h
    · next hNext =>
      obtain ⟨rest, hAfter⟩ := next?_eq_some_iff.1 hNext
      obtain ⟨hRest, hOffset⟩ := ih h
      obtain ⟨before, after, offset, hc⟩ := c
      subst hAfter
      have hRest : rest = expected ++ d.after := hRest
      have hOffset : d.offset = offset + x.utf8Size + byteLength expected := hOffset
      refine ⟨by rw [hRest]; rfl, ?_⟩
      rw [hOffset, byteLength, Nat.add_assoc]
    · cases h

theorem exists_past? {c : Cursor} {expected rest : List Char} (h : c.after = expected ++ rest) :
    ∃ d, c.past? expected = some d := by
  induction expected generalizing c with
  | nil => exact ⟨c, rfl⟩
  | cons x expected ih =>
    obtain ⟨d, hPast⟩ := ih (advance_after h)
    refine ⟨d, ?_⟩
    rw [past?, if_pos (next?_eq_some_iff.2 ⟨_, h⟩), hPast]

theorem atEnd_of_next? {c : Cursor} {x : Char} (h : c.next? = some x) : c.atEnd = false := by
  obtain ⟨before, _ | ⟨y, after⟩, offset, hOffset⟩ := c
  · cases h
  · rfl

theorem length_advance_lt {c : Cursor} (h : c.atEnd = false) :
    c.advance.after.length < c.after.length := by
  obtain ⟨before, _ | ⟨x, after⟩, offset, hOffset⟩ := c
  · cases h
  · exact Nat.lt_succ_self _

theorem offset_lt_advance {c : Cursor} (h : c.atEnd = false) : c.offset < c.advance.offset := by
  obtain ⟨before, _ | ⟨x, after⟩, offset, hOffset⟩ := c
  · cases h
  · have hPos := x.utf8Size_pos
    show offset < offset + x.utf8Size
    omega

/-- Advancing once for each character leads past all of them. -/
theorem foldl_advance {c : Cursor} {cs rest : List Char} (h : c.after = cs ++ rest) :
    (cs.foldl (fun c _ => c.advance) c).after = rest ∧
      c.Reaches (cs.foldl (fun c _ => c.advance) c) := by
  induction cs generalizing c with
  | nil => exact ⟨h, Reaches.refl c⟩
  | cons x cs ih =>
    obtain ⟨hAfter, hReaches⟩ := ih (advance_after h)
    exact ⟨hAfter, (reaches_advance c).trans hReaches⟩

theorem toEnd_after (c : Cursor) : c.toEnd.after = [] :=
  (foldl_advance (List.append_nil c.after).symm).1

theorem reaches_toEnd (c : Cursor) : c.Reaches c.toEnd :=
  (foldl_advance (List.append_nil c.after).symm).2

/-! The places of a text are those that its start reaches. -/

variable {text : List Char} {c : Cursor}

theorem boundary_offset (h : (start text).Reaches c) : Boundary text c.offset := by
  obtain ⟨passed, hAfter, hOffset⟩ := h.exists_passed
  exact ⟨passed, c.after, hAfter, by rw [hOffset]; simp [start]⟩

theorem offset_toEnd (h : (start text).Reaches c) : c.toEnd.offset = byteLength text := by
  obtain ⟨passed, hAfter, hOffset⟩ := (h.trans (reaches_toEnd c)).exists_passed
  rw [toEnd_after, List.append_nil] at hAfter
  rw [hOffset, ← hAfter]
  simp [start]

end Cursor

/-- The characters that fit are a start of the text, and they do fit. -/
theorem takeBytes_append (bytes : Nat) (cs : List Char) :
    ∃ rest, cs = takeBytes bytes cs ++ rest ∧ byteLength (takeBytes bytes cs) ≤ bytes := by
  induction cs generalizing bytes with
  | nil => exact ⟨[], by simp [takeBytes], by simp [takeBytes, byteLength]⟩
  | cons c cs ih =>
    unfold takeBytes
    split
    · next hFits =>
      obtain ⟨rest, hRest, hLength⟩ := ih (bytes - c.utf8Size)
      exact ⟨rest, by rw [List.cons_append, ← hRest], by simp only [byteLength]; omega⟩
    · exact ⟨c :: cs, rfl, by simp [byteLength]⟩

/-- The characters of a span that starts in a text lie in the text from there on, and their bytes
are among those of the span. -/
theorem Span.chars_append (s : Span) :
    ∃ rest, s.start.after = s.chars ++ rest ∧ byteLength s.chars ≤ s.length :=
  takeBytes_append s.length s.start.after

@[simp] theorem takeBytes_append_of_byteLength (cs rest : List Char) :
    takeBytes (byteLength cs) (cs ++ rest) = cs := by
  induction cs with
  | nil =>
    obtain ⟨_, -, hLength⟩ := takeBytes_append 0 rest
    exact byteLength_eq_zero (Nat.le_zero.1 hLength)
  | cons c cs ih => simp [takeBytes, byteLength, ih]

theorem Span.after_eq_of_reaches {s : Span} (h : s.start.Reaches s.stop) :
    s.start.after = s.chars ++ s.stop.after ∧
      s.stop.offset = s.start.offset + byteLength s.chars := by
  obtain ⟨passed, hAfter, hOffset⟩ := h.exists_passed
  have hChars : s.chars = passed := by
    rw [Span.chars, Span.length, hOffset, Nat.add_sub_cancel_left, hAfter,
      takeBytes_append_of_byteLength]
  rw [hChars]
  exact ⟨hAfter, hOffset⟩

end Highlighter.Text
