import Highlighter.Proofs.Pattern.AsciiClasses

/-! The scan of a pattern, sign by sign. Spelling out goes over a pattern once and writes each sign
that it comes upon anew. What it has written is scanned in the same way, and then nothing is left to
spell out: the scan of what an escape comes to ends at the depth where the escape stood, so that
both scans go on in step. -/

namespace Highlighter.Pattern

/-- What a scan comes upon: an escape, within a class or not, or text that is none. -/
inductive Sign
  | escape (c : Char) (inClass : Bool)
  | other (cs : List Char)
  deriving DecidableEq, Repr

namespace Sign

def chars : Sign → List Char
  | escape c _ => ['\\', c]
  | other cs => cs

/-- What a sign is spelled out to. -/
def spelled : Sign → List Char
  | escape c inClass => spellEscape inClass c
  | other cs => cs

/-- The sign is no escape of words or digits, and one of a boundary only within a class. -/
def Settled : Sign → Prop
  | escape c inClass => c ∉ ['w', 'W', 'd', 'D'] ∧ (c ∈ ['b', 'B'] → inClass = true)
  | other _ => True

instance : DecidablePred Settled
  | escape _ _ => inferInstanceAs (Decidable (_ ∧ (_ → _)))
  | other _ => inferInstanceAs (Decidable True)

theorem Settled.spelled_eq {s : Sign} (h : s.Settled) : s.spelled = s.chars := by
  cases s with
  | other cs => rfl
  | escape c inClass =>
    obtain ⟨hNone, hBoundary⟩ := h
    simp only [spelled, chars, spellEscape]
    split <;> simp_all

end Sign

/-- The signs of a pattern. `depth` counts the open classes, and `atStart` holds right after the
opening of one, where a closing bracket is literal. -/
def signs (depth : Nat) (atStart : Bool) : List Char → List Sign
  | [] => []
  | ['\\'] => [.other ['\\']]
  | '\\' :: c :: rest => .escape c (depth > 0) :: signs depth false rest
  | '[' :: '^' :: rest => .other ['[', '^'] :: signs (depth + 1) true rest
  | '[' :: rest => .other ['['] :: signs (depth + 1) true rest
  | ']' :: rest =>
    .other [']'] :: signs (if depth > 0 ∧ !atStart then depth - 1 else depth) false rest
  | c :: rest => .other [c] :: signs depth false rest

section

variable {depth : Nat} {atStart : Bool} {cs ds : List Char}

theorem flatMap_chars_signs (depth : Nat) (atStart : Bool) (cs : List Char) :
    (signs depth atStart cs).flatMap Sign.chars = cs := by
  fun_induction signs depth atStart cs <;> simp_all [Sign.chars]

theorem flatMap_spelled_signs (depth : Nat) (atStart : Bool) (cs : List Char) :
    (signs depth atStart cs).flatMap Sign.spelled = spellOut depth atStart cs := by
  fun_induction signs depth atStart cs with
  | case6 depth atStart rest ih =>
    rw [List.flatMap_cons, ih, spellOut]
    split <;> rfl
  | _ => simp_all [Sign.spelled, spellOut]

theorem spellOut_of_settled (h : ∀ s ∈ signs depth atStart cs, s.Settled) :
    spellOut depth atStart cs = cs := by
  calc spellOut depth atStart cs
      = (signs depth atStart cs).flatMap Sign.spelled :=
        (flatMap_spelled_signs depth atStart cs).symm
    _ = (signs depth atStart cs).flatMap Sign.chars :=
        List.flatMap_congr fun s hs => (h s hs).spelled_eq
    _ = cs := flatMap_chars_signs depth atStart cs

/-! ### Scanning what has been spelled out -/

theorem signs_cons {c : Char} (hc : c ∉ ['\\', '[', ']']) (cs : List Char) :
    signs depth atStart (c :: cs) = .other [c] :: signs depth false cs := by
  simp only [List.mem_cons, List.not_mem_nil, or_false, not_or] at hc
  obtain ⟨hBackslash, hOpening, hClosing⟩ := hc
  rw [signs] <;> simp_all

theorem signs_opening (h : cs.head? ≠ some '^') :
    signs depth atStart ('[' :: cs) = .other ['['] :: signs (depth + 1) true cs := by
  rw [signs]
  rintro rest rfl
  exact h rfl

theorem signs_closing (cs : List Char) :
    signs (depth + 1) false (']' :: cs) = .other [']'] :: signs depth false cs := by
  simp [signs]

/-- The scan of a text comes upon settled signs, and goes on at the depth where it started. -/
def Whole (depth : Nat) (cs : List Char) : Prop :=
  ∃ ss : List Sign, (∀ s ∈ ss, s.Settled) ∧
    ∀ atStart rest, signs depth atStart (cs ++ rest) = ss ++ signs depth false rest

theorem Whole.append (h : Whole depth cs) (h' : Whole depth ds) : Whole depth (cs ++ ds) := by
  obtain ⟨ss, hSettled, hSigns⟩ := h
  obtain ⟨ts, hSettled', hSigns'⟩ := h'
  refine ⟨ss ++ ts, fun s hs => ?_, fun atStart rest => ?_⟩
  · exact (List.mem_append.1 hs).elim (hSettled s) (hSettled' s)
  · rw [List.append_assoc, hSigns, hSigns', List.append_assoc]

theorem whole_char {c : Char} (hc : c ∉ ['\\', '[', ']']) : Whole depth [c] :=
  ⟨[.other [c]], by simp [Sign.Settled], fun _ rest => signs_cons hc rest⟩

theorem whole_chars (hNe : cs ≠ []) (h : cs.all (· ∉ ['\\', '[', ']'])) : Whole depth cs := by
  induction cs with
  | nil => exact absurd rfl hNe
  | cons c cs ih =>
    rw [List.all_cons, Bool.and_eq_true, decide_eq_true_eq] at h
    by_cases hLast : cs = []
    · rw [hLast]
      exact whole_char h.1
    · exact (whole_char h.1).append (ih hLast h.2)

theorem whole_escape {c : Char} (h : (Sign.escape c (decide (depth > 0))).Settled) :
    Whole depth ['\\', c] :=
  ⟨[.escape c (decide (depth > 0))], by simpa using h, fun _ _ => rfl⟩

/-- A class is scanned to its end. -/
theorem Whole.ofClass (h : Whole (depth + 1) cs) {opening : List Char}
    (hOpening : ∀ atStart rest, signs depth atStart (opening ++ (cs ++ rest)) =
      .other opening :: signs (depth + 1) true (cs ++ rest)) :
    Whole depth (opening ++ cs ++ [']']) := by
  obtain ⟨ss, hSettled, hSigns⟩ := h
  refine ⟨.other opening :: (ss ++ [.other [']']]), ?_, fun atStart rest => ?_⟩
  · simpa [Sign.Settled, or_imp, forall_and] using hSettled
  · rw [List.append_assoc, List.append_assoc, hOpening, hSigns, List.singleton_append,
      signs_closing, List.cons_append, List.append_assoc, List.singleton_append]

theorem Whole.bracket (h : Whole (depth + 1) cs)
    (hHead : ∀ rest, (cs ++ rest).head? ≠ some '^') : Whole depth (bracket cs) :=
  h.ofClass fun _ rest => signs_opening (hHead rest)

theorem Whole.negatedBracket (h : Whole (depth + 1) cs) : Whole depth (negatedBracket cs) :=
  h.ofClass fun _ _ => by simp [signs]

theorem whole_wordRanges : Whole depth wordRanges := by
  rw [wordRanges_eq]
  exact whole_chars nofun (by decide)

theorem whole_digitRanges : Whole depth digitRanges := by
  rw [digitRanges_eq]
  exact whole_chars nofun (by decide)

theorem whole_boundary : Whole 0 boundary := by
  refine ⟨signs 0 false boundary, ?_, fun atStart rest => ?_⟩
  all_goals rw [boundary_eq, wordRanges_eq]
  · decide +kernel
  · rfl

theorem whole_noBoundary : Whole 0 noBoundary := by
  refine ⟨signs 0 false noBoundary, ?_, fun atStart rest => ?_⟩
  all_goals rw [noBoundary_eq, wordRanges_eq]
  · decide +kernel
  · rfl

theorem whole_spellEscape (depth : Nat) (c : Char) :
    Whole depth (spellEscape (decide (depth > 0)) c) := by
  unfold spellEscape
  split
  · exact whole_wordRanges.bracket fun _ => nofun
  · exact whole_wordRanges
  · exact whole_wordRanges.negatedBracket
  · exact whole_digitRanges.bracket fun _ => nofun
  · exact whole_digitRanges
  · exact whole_digitRanges.negatedBracket
  · next hOutside =>
    obtain rfl : depth = 0 := by simpa using hOutside
    exact whole_boundary
  · next hOutside =>
    obtain rfl : depth = 0 := by simpa using hOutside
    exact whole_noBoundary
  · refine whole_escape ⟨by simp_all, fun hBoundary => ?_⟩
    rw [← Bool.not_eq_false]
    intro hOutside
    simp_all

/-- Nothing is left to spell out. -/
theorem settled_of_mem_signs_spellOut (depth : Nat) (atStart : Bool) (cs : List Char) :
    ∀ s ∈ signs depth atStart (spellOut depth atStart cs), s.Settled := by
  fun_induction spellOut depth atStart cs with
  | case1 => exact List.forall_mem_nil _
  | case2 => simp [signs, Sign.Settled]
  | case3 depth atStart c rest ih =>
    obtain ⟨ss, hSettled, hSigns⟩ := whole_spellEscape depth c
    rw [hSigns]
    exact fun s hs => (List.mem_append.1 hs).elim (hSettled s) (ih s)
  | case4 depth atStart rest ih => exact List.forall_mem_cons.2 ⟨trivial, ih⟩
  | case5 depth atStart rest hCaret ih =>
    have hHead : (spellOut (depth + 1) true rest).head? ≠ some '^' := by
      intro hSpelled
      obtain ⟨after, rfl⟩ := List.head?_eq_some_iff.1 (head?_of_spellOut hSpelled (by decide))
      exact hCaret after rfl
    rw [signs_opening hHead]
    exact List.forall_mem_cons.2 ⟨trivial, ih⟩
  | case6 depth atStart rest hCloses ih | case7 depth atStart rest hCloses ih =>
    rw [signs]
    simp only [hCloses, if_false]
    exact List.forall_mem_cons.2 ⟨trivial, ih⟩
  | case8 depth atStart c rest _ hBackslash _ hOpening hClosing ih =>
    have hc : c ∉ ['\\', '[', ']'] := by
      cases rest <;> simp_all
    rw [signs_cons hc]
    exact List.forall_mem_cons.2 ⟨trivial, ih⟩

end

def signsOf (pattern : String) : List Sign := signs 0 false pattern.toList

/-- Spelling out leaves nothing to spell out. It writes the signs of a pattern one after another,
and the pattern that it makes has neither word nor digit escapes, nor boundaries outside of
classes. Therefore it leaves this pattern as it is, and leaves just those patterns as they are
that have none of these. -/
theorem settled_asciiClasses (pattern : String) :
    (signsOf pattern).flatMap Sign.chars = pattern.toList ∧
    (signsOf pattern).flatMap Sign.spelled = (asciiClasses pattern).toList ∧
    (∀ s ∈ signsOf (asciiClasses pattern), s.Settled) ∧
    asciiClasses (asciiClasses pattern) = asciiClasses pattern ∧
    (asciiClasses pattern = pattern ↔ ∀ s ∈ signsOf pattern, s.Settled) := by
  have hFixed : ∀ p : String, (∀ s ∈ signsOf p, s.Settled) → asciiClasses p = p := by
    intro p hSettled
    rw [asciiClasses, spellOut_of_settled hSettled, String.ofList_toList]
  have hSettled : ∀ p : String, ∀ s ∈ signsOf (asciiClasses p), s.Settled := by
    intro p
    rw [signsOf, toList_asciiClasses]
    exact settled_of_mem_signs_spellOut 0 false p.toList
  refine ⟨flatMap_chars_signs 0 false _, ?_, hSettled pattern, hFixed _ (hSettled pattern), ?_,
    hFixed pattern⟩
  · rw [toList_asciiClasses]
    exact flatMap_spelled_signs 0 false _
  · intro hSame
    have hOutput := hSettled pattern
    rwa [hSame] at hOutput

example : signsOf "[]\\b]\\w" =
    [.other ['['], .other [']'], .escape 'b' true, .other [']'], .escape 'w' false] := by decide

end Highlighter.Pattern
