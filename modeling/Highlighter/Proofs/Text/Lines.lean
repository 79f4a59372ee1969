import Highlighter.Proofs.Text.Place
import Highlighter.Text.Split

/-! The lines of a text. `linesOf` cuts a text at the line breaks of all systems. Once all its line
breaks are newlines, cutting it at those comes to the same, so it makes no difference to the lines
of a text which line breaks they end on. -/

namespace Highlighter.Text

theorem splitOn_eq (separator : Char) (cs : List Char) :
    splitOn separator cs = cs.splitOn separator := by
  induction cs with
  | nil => simp [splitOn]
  | cons c cs ih =>
    have hNe := List.splitOn_ne_nil separator cs
    rw [splitOn, ih, List.splitOn_cons_eq_if_modifyHead]
    by_cases hc : c = separator
    · simp [hc]
    · rw [if_neg hc, if_neg (by simpa using hc)]
      split
      · next part parts hParts => rw [hParts, List.modifyHead_cons]
      · next hNil => exact absurd hNil hNe

theorem not_mem_of_mem_splitOn {separator : Char} {cs part : List Char}
    (h : part ∈ splitOn separator cs) : separator ∉ part := by
  fun_induction splitOn separator cs generalizing part with
  | case1 => simp_all
  | case2 cs ih =>
    rcases List.mem_cons.1 h with rfl | h
    · exact List.not_mem_nil
    · exact ih h
  | case3 c cs hc first rest hParts ih =>
    rcases List.mem_cons.1 h with rfl | h
    · have hFirst : separator ∉ first := ih (by simp [hParts])
      simp [hFirst, Ne.symm hc]
    · exact ih (by simp [hParts, h])
  | case4 c cs hc hParts ih =>
    rw [List.mem_singleton.1 h]
    simp [Ne.symm hc]

theorem splitAtByte_append (left right : List Char) :
    splitAtByte (byteLength left) (left ++ right) = (left, right) := by
  induction left with
  | nil =>
    cases right with
    | nil => rfl
    | cons c right =>
      have hPos := c.utf8Size_pos
      rw [byteLength, List.nil_append, splitAtByte, if_neg (by omega)]
  | cons c left ih =>
    rw [byteLength, List.cons_append, splitAtByte, if_pos (Nat.le_add_right _ _),
      Nat.add_sub_cancel_left, ih]

/-- The lines of a text, between line breaks: newlines, carriage returns, or one of each in
the order of a typewriter. -/
def linesOf : List Char → List (List Char)
  | [] => [[]]
  | '\r' :: '\n' :: cs => [] :: linesOf cs
  | c :: cs =>
    if c = '\r' ∨ c = '\n' then [] :: linesOf cs else (linesOf cs).modifyHead (c :: ·)

theorem splitOn_unifyNewlines (cs : List Char) : splitOn '\n' (unifyNewlines cs) = linesOf cs := by
  rw [splitOn_eq]
  fun_induction unifyNewlines cs with
  | case1 => simp [linesOf]
  | case2 cs ih => simp [linesOf, List.splitOn_cons_eq_if_modifyHead, ih]
  | case3 c cs hPair ih =>
    rw [linesOf.eq_3 _ _ hPair, List.splitOn_cons_eq_if_modifyHead, ih]
    by_cases hReturn : c = '\r'
    · simp [hReturn]
    · by_cases hNewline : c = '\n'
      · simp [hNewline]
      · simp [hReturn, hNewline]

theorem intercalate_linesOf (cs : List Char) :
    ['\n'].intercalate (linesOf cs) = unifyNewlines cs := by
  rw [← splitOn_unifyNewlines, splitOn_eq, List.intercalate_splitOn]

theorem not_mem_of_mem_linesOf {cs line : List Char} (h : line ∈ linesOf cs) : '\r' ∉ line := by
  fun_induction linesOf cs generalizing line with
  | case1 => simp_all
  | case2 cs ih =>
    rcases List.mem_cons.1 h with rfl | h
    · exact List.not_mem_nil
    · exact ih h
  | case3 c cs _ hBreak ih =>
    rcases List.mem_cons.1 h with rfl | h
    · exact List.not_mem_nil
    · exact ih h
  | case4 c cs _ hBreak ih =>
    cases hLines : linesOf cs with
    | nil => simp [hLines] at h
    | cons first rest =>
      rw [hLines, List.modifyHead_cons] at h
      rcases List.mem_cons.1 h with rfl | h
      · have hFirst : '\r' ∉ first := ih (by simp [hLines])
        have hNe : '\r' ≠ c := fun hc => hBreak (.inl hc.symm)
        simp [hFirst, hNe]
      · exact ih (by simp [hLines, h])

/-- A text with `lineBreak` in place of each newline. -/
def breakBy (lineBreak cs : List Char) : List Char :=
  cs.flatMap fun c => if c = '\n' then lineBreak else [c]

theorem unifyNewlines_cons {c : Char} (hc : c ≠ '\r') (cs : List Char) :
    unifyNewlines (c :: cs) = c :: unifyNewlines cs := by
  rw [unifyNewlines.eq_3 _ _ fun _ hEq => absurd hEq hc, if_neg hc]

theorem unifyNewlines_return {cs : List Char} (h : ∀ rest, cs ≠ '\n' :: rest) :
    unifyNewlines ('\r' :: cs) = '\n' :: unifyNewlines cs := by
  rw [unifyNewlines.eq_3 _ _ fun rest _ => h rest, if_pos rfl]

theorem unifyNewlines_of_not_mem {cs : List Char} (h : '\r' ∉ cs) : unifyNewlines cs = cs := by
  induction cs with
  | nil => rfl
  | cons c cs ih =>
    rw [List.mem_cons, not_or] at h
    rw [unifyNewlines_cons (Ne.symm h.1), ih h.2]

theorem breakBy_newline (lineBreak cs : List Char) :
    breakBy lineBreak ('\n' :: cs) = lineBreak ++ breakBy lineBreak cs := rfl

theorem breakBy_cons {c : Char} (hc : c ≠ '\n') (lineBreak cs : List Char) :
    breakBy lineBreak (c :: cs) = c :: breakBy lineBreak cs := by
  rw [breakBy, List.flatMap_cons, if_neg hc]
  rfl

theorem not_mem_breakBy_return (cs : List Char) : '\n' ∉ breakBy ['\r'] cs := by
  intro h
  obtain ⟨c, -, hc⟩ := List.mem_flatMap.1 h
  split at hc
  · simp at hc
  · next hNe => exact hNe (List.mem_singleton.1 hc).symm

theorem unifyNewlines_breakBy {lineBreak : List Char} (hBreak : ∀ cs, unifyNewlines
    (lineBreak ++ breakBy lineBreak cs) = '\n' :: unifyNewlines (breakBy lineBreak cs))
    {cs : List Char} (h : '\r' ∉ cs) : unifyNewlines (breakBy lineBreak cs) = cs := by
  induction cs with
  | nil => rfl
  | cons c cs ih =>
    rw [List.mem_cons, not_or] at h
    by_cases hc : c = '\n'
    · rw [hc, breakBy_newline, hBreak, ih h.2]
    · rw [breakBy_cons hc, unifyNewlines_cons (Ne.symm h.1), ih h.2]

theorem unifyNewlines_breakBy_pair {cs : List Char} (h : '\r' ∉ cs) :
    unifyNewlines (breakBy ['\r', '\n'] cs) = cs := by
  refine unifyNewlines_breakBy (fun cs => ?_) h
  rw [List.cons_append, List.cons_append, List.nil_append, unifyNewlines]

theorem unifyNewlines_breakBy_return {cs : List Char} (h : '\r' ∉ cs) :
    unifyNewlines (breakBy ['\r'] cs) = cs := by
  refine unifyNewlines_breakBy
    (fun cs => unifyNewlines_return fun rest hEq => not_mem_breakBy_return cs ?_) h
  rw [show breakBy ['\r'] cs = '\n' :: rest from hEq]
  exact List.mem_cons_self

end Highlighter.Text
