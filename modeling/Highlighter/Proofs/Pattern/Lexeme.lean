import Highlighter.Proofs.Pattern.Consuming

/-! What can be told of a match from the program alone: how many bytes it covers at least, which
characters it may begin with, and where it ends if the program is that of a word. -/

namespace Highlighter.Pattern

open Highlighter.Text

deriving instance DecidableEq for Program

namespace Program

/-! ### How much a match covers -/

/-- A number of bytes that each match covers at least. -/
def breadth : Program → Nat
  | text chars => chars.length
  | program => if program.consumes then 1 else 0

theorem consumes_of_breadth_pos {program : Program} (h : 0 < program.breadth) :
    program.consumes = true := by
  unfold breadth at h
  split at h
  · next chars =>
    cases chars with
    | nil => cases h
    | cons x chars => rfl
  · split at h
    · assumption
    · cases h

theorem breadth_le {program : Program} {c d : Cursor} (h : program.matchFrom c = some d) :
    c.offset + program.breadth ≤ d.offset := by
  unfold breadth
  split
  · next chars =>
    obtain ⟨r, hRun, rfl⟩ := Option.map_eq_some_iff.1 h
    simp only [run] at hRun
    split at hRun
    · next place hPlace =>
      cases hRun
      have hLength := length_le_byteLength chars
      have hOffset := (Cursor.after_of_past? hPlace).2
      dsimp only at hOffset ⊢
      omega
    · cases hRun
  · split
    · next hConsumes =>
      obtain ⟨captures, hLeads⟩ := exists_leads_of_matchFrom h
      exact hLeads.offset_lt hConsumes
    · exact (reaches_matchFrom h).offset_le

/-! ### How a match begins -/

/-- The program looks around, and stays where it is. -/
def still : Program → Bool
  | nothing | anchor _ | ahead _ _ | behind _ _ _ => true
  | sequence first second => still first && still second
  | choice first second => still first && still second
  | _ => false

theorem Leads.place_eq {program : Program} {p q : Progress} (h : Leads program p q)
    (hStill : program.still = true) : q.place = p.place := by
  induction h with
  | nothing | anchor | ahead | notAhead | behind | notBehind => rfl
  | sequence _ _ ih ihRest =>
    obtain ⟨hFirst, hSecond⟩ := Bool.and_eq_true_iff.1 hStill
    exact (ihRest hSecond).trans (ih hFirst)
  | left _ ih => exact ih (Bool.and_eq_true_iff.1 hStill).1
  | right _ ih => exact ih (Bool.and_eq_true_iff.1 hStill).2
  | test | text | backreference | capture | atomic | never | last | again => cases hStill

/-- Characters that follow wherever the program matches. -/
def spelling : Program → List Char
  | text chars => chars
  | capture _ body => spelling body
  | atomic body => spelling body
  | sequence first second => if first.still then spelling second else spelling first
  | _ => []

theorem Leads.spelling_prefix {program : Program} {p q : Progress} (h : Leads program p q) :
    program.spelling <+: p.place.after := by
  induction h with
  | text hPast => exact ⟨_, (Cursor.after_of_past? hPast).1.symm⟩
  | capture _ ih | atomic _ ih => exact ih
  | sequence h _ ih ihRest =>
    unfold spelling
    split
    · next hStill => exact h.place_eq hStill ▸ ihRest
    · exact ih
  | nothing | test | anchor | backreference | ahead | notAhead | behind | notBehind | never | last
    | again | left | right => exact List.nil_prefix

/-- A match may begin with a character. -/
def admits : Program → Char → Bool
  | fail, _ => false
  | test t, x => t.has x
  | text (y :: _), x => x == y
  | anchor .lineEnd, x => x == '\n'
  | capture _ body, x => admits body x
  | atomic body, x => admits body x
  | sequence first _, x => admits first x
  | choice first second, x => admits first x || admits second x
  | _, _ => true

theorem Leads.admits {program : Program} {p q : Progress} {x : Char} (h : Leads program p q)
    (hHead : p.place.next? = some x) : program.admits x = true := by
  induction h with
  | test hNext hHas =>
    cases hNext.symm.trans hHead
    exact hHas
  | @text chars p place hPast =>
    cases chars with
    | nil => rfl
    | cons y chars =>
      obtain ⟨rest, hAfter⟩ := Cursor.next?_eq_some_iff.1 hHead
      have hPrefix : y :: chars <+: p.place.after := ⟨_, (Cursor.after_of_past? hPast).1.symm⟩
      rw [hAfter, List.cons_prefix_cons] at hPrefix
      exact beq_iff_eq.2 hPrefix.1.symm
  | @anchor a p hHolds =>
    cases a with
    | lineEnd =>
      rw [Anchor.holds, Cursor.atEnd_of_next? hHead, hHead] at hHolds
      simpa [Program.admits] using hHolds
    | textStart | textEnd | lastLineEnd | lineStart | wordBoundary => rfl
  | capture _ ih | atomic _ ih | sequence _ _ ih => exact ih hHead
  | left _ ih => exact Bool.or_eq_true_iff.2 (.inl (ih hHead))
  | right _ ih => exact Bool.or_eq_true_iff.2 (.inr (ih hHead))
  | nothing | backreference | ahead | notAhead | behind | notBehind | never | last | again => rfl

variable {program : Program} {c d : Cursor}

theorem spelling_of_matchFrom (h : program.matchFrom c = some d) :
    program.spelling <+: c.after := by
  obtain ⟨captures, hLeads⟩ := exists_leads_of_matchFrom h
  exact hLeads.spelling_prefix

theorem admits_of_matchFrom (h : program.matchFrom c = some d) {x : Char}
    (hNext : c.next? = some x) : program.admits x = true := by
  obtain ⟨captures, hLeads⟩ := exists_leads_of_matchFrom h
  exact hLeads.admits hNext

end Program

/-! ### Words -/

def wordChar : CharTest :=
  .ofClass ⟨.union (.union (.union (.range 48 57) (.range 65 90)) (.range 97 122)) (.range 95 95),
    false⟩

def wordStart : CharTest :=
  .ofClass ⟨.union (.union (.range 97 122) (.range 65 90)) (.range 95 95), false⟩

theorem wordChar_of_wordStart {x : Char} (h : wordStart.has x = true) : wordChar.has x = true := by
  simp only [wordStart, wordChar, CharTest.has, CharSet.has, Bool.bne_false, Bool.or_eq_true,
    Bool.and_eq_true, decide_eq_true_eq] at h ⊢
  omega

theorem toNat_lt_of_wordChar {x : Char} (h : wordChar.has x = true) : x.toNat < 128 := by
  simp only [wordChar, CharTest.has, CharSet.has, Bool.bne_false, Bool.or_eq_true, Bool.and_eq_true,
    decide_eq_true_eq] at h
  omega

end Highlighter.Pattern

namespace Highlighter.Text.Cursor

open Highlighter.Pattern

/-- The bytes of the word that a place stands before, or within. -/
def wordBytes (c : Cursor) : Nat := byteLength (c.after.takeWhile wordChar.has)

variable {c d : Cursor}

theorem wordBytes_pos {x : Char} (hNext : c.next? = some x) (hWord : wordChar.has x = true) :
    0 < c.wordBytes := by
  obtain ⟨rest, hAfter⟩ := Cursor.next?_eq_some_iff.1 hNext
  have hPos := x.utf8Size_pos
  rw [wordBytes, hAfter, List.takeWhile_cons_of_pos hWord, byteLength]
  omega

theorem exists_of_wordBytes_pos (h : 0 < c.wordBytes) :
    ∃ x, c.next? = some x ∧ wordChar.has x = true := by
  unfold wordBytes at h
  cases hAfter : c.after with
  | nil =>
    rw [hAfter] at h
    exact absurd h (Nat.lt_irrefl 0)
  | cons x rest =>
    refine ⟨x, Cursor.next?_eq_some_iff.2 ⟨rest, hAfter⟩, ?_⟩
    rw [hAfter, List.takeWhile_cons] at h
    split at h
    · next hWord => exact hWord
    · exact absurd h (Nat.lt_irrefl 0)

theorem Reaches.wordBytes_cases (h : c.Reaches d) :
    (0 < d.wordBytes ∧ d.offset + d.wordBytes = c.offset + c.wordBytes) ∨
      c.offset + c.wordBytes ≤ d.offset := by
  obtain ⟨passed, hAfter, hOffset⟩ := h.exists_passed
  have hWord : c.wordBytes = byteLength ((passed ++ d.after).takeWhile wordChar.has) := by
    rw [wordBytes, hAfter]
  rw [List.takeWhile_append] at hWord
  split at hWord
  · rw [byteLength_append] at hWord
    unfold wordBytes at hWord ⊢
    omega
  · obtain ⟨rest, hRest⟩ := List.takeWhile_prefix (p := wordChar.has) (l := passed)
    have hBytes :
        byteLength passed = byteLength (passed.takeWhile wordChar.has) + byteLength rest := by
      rw [← byteLength_append, hRest]
    right
    omega

theorem wordBytes_ge_of_prefix {cs : List Char} (h : cs <+: c.after)
    (hWord : cs.all wordChar.has = true) : byteLength cs ≤ c.wordBytes := by
  obtain ⟨rest, hAfter⟩ := h
  rw [wordBytes, ← hAfter, List.takeWhile_append_of_pos (List.all_eq_true.1 hWord),
    byteLength_append]
  omega

end Highlighter.Text.Cursor

namespace Highlighter.Pattern

open Highlighter.Text

theorem reach_cons (t : CharTest) (x : Char) (rest : List Char) (c : Cursor) :
    reach t none (x :: rest) c = if t.has x then c :: reach t none rest c.advance else [c] := by
  rw [reach]
  · rfl
  · intro hLimit
    cases hLimit

theorem reverse_reach (t : CharTest) {rest : List Char} {c : Cursor} (hRest : c.after = rest) :
    ∃ d others, (reach t none rest c).reverse = d :: others ∧ d.after = rest.dropWhile t.has ∧
      d.offset = c.offset + byteLength (rest.takeWhile t.has) := by
  induction rest generalizing c with
  | nil => exact ⟨c, [], rfl, hRest, rfl⟩
  | cons x rest ih =>
    rw [reach_cons]
    by_cases hHas : t.has x = true
    · obtain ⟨d, others, hReverse, hAfter, hOffset⟩ := ih (Cursor.advance_after hRest)
      refine ⟨d, others ++ [c], ?_, ?_, ?_⟩
      · rw [if_pos hHas, List.reverse_cons, hReverse, List.cons_append]
      · rw [hAfter, List.dropWhile_cons_of_pos hHas]
      · obtain ⟨before, after, offset, hc⟩ := c
        subst hRest
        rw [hOffset, List.takeWhile_cons_of_pos hHas, byteLength, ← Nat.add_assoc]
        rfl
    · refine ⟨c, [], ?_, ?_, ?_⟩
      · rw [if_neg hHas]
        rfl
      · rw [hRest, List.dropWhile_cons_of_neg hHas]
      · rw [List.takeWhile_cons_of_neg hHas]
        rfl

namespace Program

def word : Program := sequence (test wordStart) (repeated ⟨0, none, true⟩ (test wordChar))

theorem matchFrom_word {c : Cursor} {x : Char} (hNext : c.next? = some x)
    (hStart : wordStart.has x = true) :
    ∃ d, word.matchFrom c = some d ∧ d.offset = c.offset + c.wordBytes ∧ d.wordBytes = 0 := by
  obtain ⟨rest, hAfter⟩ := Cursor.next?_eq_some_iff.1 hNext
  have hWord := wordChar_of_wordStart hStart
  obtain ⟨d, others, hReverse, hDrop, hOffset⟩ :=
    reverse_reach wordChar (Cursor.advance_after hAfter)
  refine ⟨d, ?_, ?_, ?_⟩
  · simp only [matchFrom, word, run, hNext, hStart, if_true, Cursor.advance_after hAfter,
      List.drop_zero, hReverse, List.findSome?_cons, Option.map_some]
  · obtain ⟨before, after, offset, hc⟩ := c
    subst hAfter
    have hOffset : d.offset = offset + x.utf8Size + byteLength (rest.takeWhile wordChar.has) :=
      hOffset
    rw [hOffset, Cursor.wordBytes, List.takeWhile_cons_of_pos hWord, byteLength, Nat.add_assoc]
  · have hNone : (rest.dropWhile wordChar.has).takeWhile wordChar.has = [] := by
      cases hRest : rest.dropWhile wordChar.has with
      | nil => rfl
      | cons y ys =>
        have hNot := List.head_dropWhile_not wordChar.has (l := rest) (by simp [hRest])
        simp only [hRest, List.head_cons] at hNot
        rw [List.takeWhile_cons_of_neg (by simp [hNot])]
    rw [Cursor.wordBytes, hDrop, hNone]
    rfl

/-- What may begin with a character of a word is not found in a word. -/
def avoidsWords (program : Program) : Bool :=
  (List.range 128).all fun n => !(wordChar.has (.ofNat n) && program.admits (.ofNat n))

theorem wordBytes_eq_zero {program : Program} (hAvoids : program.avoidsWords = true) {c d : Cursor}
    (h : program.matchFrom c = some d) : c.wordBytes = 0 := by
  refine Nat.eq_zero_of_not_pos fun hPos => ?_
  obtain ⟨x, hNext, hHas⟩ := Cursor.exists_of_wordBytes_pos hPos
  have hAdmits := admits_of_matchFrom h hNext
  have hNone := List.all_eq_true.1 hAvoids x.toNat (List.mem_range.2 (toNat_lt_of_wordChar hHas))
  rw [Char.ofNat_toNat, hHas, hAdmits] at hNone
  cases hNone

end Program

end Highlighter.Pattern
