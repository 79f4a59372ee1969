import Highlighter.Pattern.Ascii
import Mathlib.Data.List.Basic

/-! What the escapes of words and digits are spelled out to. The texts that stand for them are given
here character by character: proofs that evaluate a pattern rewrite by these equations first, and do
not have to take the texts apart. -/

namespace Highlighter.Pattern

theorem toList_asciiClasses (pattern : String) :
    (asciiClasses pattern).toList = spellOut 0 false pattern.toList :=
  String.toList_ofList

/-! ### The texts of escapes -/

theorem wordRanges_eq : wordRanges = ['0', '-', '9', 'A', '-', 'Z', 'a', '-', 'z', '_'] :=
  String.toList_ofList

theorem digitRanges_eq : digitRanges = ['0', '-', '9'] := String.toList_ofList

theorem boundary_eq : boundary =
    ['(', '?', ':', '(', '?', '<', '='] ++ (bracket wordRanges ++ ([')', '(', '?', '!'] ++
      (bracket wordRanges ++ ([')', '|', '(', '?', '<', '!'] ++ (bracket wordRanges ++
        ([')', '(', '?', '='] ++ (bracket wordRanges ++ [')', ')']))))))) := by
  rw [wordRanges_eq]
  exact String.toList_ofList

theorem noBoundary_eq : noBoundary =
    ['(', '?', ':', '(', '?', '<', '='] ++ (bracket wordRanges ++ ([')', '(', '?', '='] ++
      (bracket wordRanges ++ ([')', '|', '(', '?', '<', '!'] ++ (bracket wordRanges ++
        ([')', '(', '?', '!'] ++ (bracket wordRanges ++ [')', ')']))))))) := by
  rw [wordRanges_eq]
  exact String.toList_ofList

/-- An escape stays, or is spelled out to a text without an intersection. -/
theorem spellEscape_eq (inClass : Bool) (c : Char) :
    spellEscape inClass c = ['\\', c] ∨ '&' ∉ spellEscape inClass c := by
  unfold spellEscape
  split
  case h_9 => exact .inl rfl
  all_goals
    right
    simp only [boundary_eq, noBoundary_eq, wordRanges_eq, digitRanges_eq]
    decide

theorem head?_spellEscape (inClass : Bool) (c : Char) :
    (spellEscape inClass c).head?.any (['[', '\\', '(', '0'].contains ·) := by
  unfold spellEscape
  split
  case h_9 => rfl
  all_goals
    simp only [boundary_eq, noBoundary_eq, wordRanges_eq, digitRanges_eq]
    rfl

/-! ### Patterns -/

variable {depth : Nat} {atStart : Bool} {cs : List Char}

theorem spellOut_atStart (h : cs.head? ≠ some ']') :
    spellOut depth true cs = spellOut depth false cs := by
  unfold spellOut
  split <;> first | rfl | exact absurd rfl h

theorem head?_of_spellOut {c : Char} (h : (spellOut depth atStart cs).head? = some c)
    (hc : c ∉ ['[', '\\', '(', '0']) : cs.head? = some c := by
  revert h
  fun_cases spellOut depth atStart cs with
  | case3 d rest =>
    intro h
    have hEscape := head?_spellEscape (decide (depth > 0)) d
    have hNe : spellEscape (decide (depth > 0)) d ≠ [] := by
      rintro hNil
      rw [hNil] at hEscape
      cases hEscape
    rw [List.head?_append_of_ne_nil _ hNe] at h
    rw [h] at hEscape
    simp_all
  | _ => simp_all

theorem spellOut_append_of_plain (h : ∀ c ∈ cs, c ∉ ['\\', '[', ']']) (depth : Nat)
    (rest : List Char) : spellOut depth false (cs ++ rest) = cs ++ spellOut depth false rest := by
  induction cs with
  | nil => rfl
  | cons c cs ih =>
    obtain ⟨hHere, hRest⟩ := List.forall_mem_cons.1 h
    rw [List.cons_append, spellOut, ih hRest]
    · rfl
    all_goals simp_all

end Highlighter.Pattern
