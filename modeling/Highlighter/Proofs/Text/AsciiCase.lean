import Highlighter.Proofs.Text.Numeral
import Highlighter.Proofs.Text.Runs
import Highlighter.Text.Case
import Mathlib

/-! Texts that differ in the case of ASCII letters alone. Lower-casing makes them equal: whether a
letter has case, and how many bytes it takes, does not depend on the case it is in, so that a
capital sigma has the same surroundings in both. -/

namespace Highlighter.Text

/-- A text with the letters of ASCII in lower case, and all other characters as they are. -/
def asciiLower (s : String) : String := .ofList (s.toList.map Char.toLower)

/-- Texts that differ in the case of ASCII letters alone. -/
def SameLetters (s t : String) : Prop := asciiLower s = asciiLower t

instance (s t : String) : Decidable (SameLetters s t) := inferInstanceAs (Decidable (_ = _))

variable {s t : String}

@[simp] theorem toList_asciiLower (s : String) :
    (asciiLower s).toList = s.toList.map Char.toLower :=
  String.toList_ofList

theorem SameLetters.map_eq (h : SameLetters s t) :
    s.toList.map Char.toLower = t.toList.map Char.toLower := by
  rw [← toList_asciiLower, ← toList_asciiLower, h]

/-! ### Characters -/

theorem forall_isUpper {P : Char → Prop} (h : ∀ i : Fin 26, P (Char.ofNat (65 + i))) {c : Char}
    (hUpper : c.isUpper = true) : P c := by
  have hRange : 65 ≤ c.toNat ∧ c.toNat ≤ 90 := by
    simpa [Char.isUpper, UInt32.le_iff_toNat_le] using hUpper
  have hLetter := h ⟨c.toNat - 65, by omega⟩
  rwa [Nat.add_sub_cancel' hRange.1, Char.ofNat_toNat] at hLetter

/-- A function regards no case if it takes each of the capital letters as it takes the small one. -/
theorem apply_toLower {α : Type} (f : Char → α)
    (h : ∀ i : Fin 26, f (Char.ofNat (65 + i)).toLower = f (Char.ofNat (65 + i))) (c : Char) :
    f c.toLower = f c := by
  cases hUpper : c.isUpper with
  | false => rw [Char.toLower_eq_of_not_isUpper (Bool.eq_false_iff.1 hUpper)]
  | true => exact forall_isUpper (P := fun c => f c.toLower = f c) h hUpper

theorem utf8Size_toLower (c : Char) : c.toLower.utf8Size = c.utf8Size :=
  apply_toLower Char.utf8Size (by decide) c

theorem isCased_toLower (c : Char) : isCased c.toLower = isCased c :=
  apply_toLower isCased (by decide +kernel) c

theorem isCaseIgnorable_toLower (c : Char) : isCaseIgnorable c.toLower = isCaseIgnorable c :=
  apply_toLower isCaseIgnorable (by decide +kernel) c

theorem lowerChar_toLower (c : Char) : lowerChar c.toLower = lowerChar c :=
  apply_toLower lowerChar (by decide +kernel) c

theorem toLower_eq_sigma_iff (c : Char) : c.toLower = 'Σ' ↔ c = 'Σ' :=
  iff_of_eq (apply_toLower (· = 'Σ') (by decide) c)

/-! ### Texts -/

theorem casedAhead_map_toLower (cs : List Char) :
    casedAhead (cs.map Char.toLower) = casedAhead cs := by
  have hIgnored : isCaseIgnorable ∘ Char.toLower = isCaseIgnorable :=
    funext isCaseIgnorable_toLower
  rw [casedAhead, casedAhead, List.dropWhile_map, hIgnored]
  cases cs.dropWhile isCaseIgnorable with
  | nil => rfl
  | cons c rest => exact isCased_toLower c

theorem lowerAfter_map_toLower (before cs : List Char) :
    lowerAfter (before.map Char.toLower) (cs.map Char.toLower) = lowerAfter before cs := by
  induction cs generalizing before with
  | nil => rfl
  | cons c cs ih =>
    have hRest := ih (c :: before)
    rw [List.map_cons] at hRest
    simp only [List.map_cons, lowerAfter, toLower_eq_sigma_iff, casedAhead_map_toLower,
      lowerChar_toLower, hRest]

theorem lowercase_asciiLower (s : String) : lowercase (asciiLower s) = lowercase s := by
  rw [lowercase, toList_asciiLower]
  exact congrArg String.ofList (lowerAfter_map_toLower [] s.toList)

/-- The case of letters says nothing of numerals, which have none. -/
theorem isNumeral_map_toLower_iff {cs : List Char} {n : Nat} :
    IsNumeral (cs.map Char.toLower) n ↔ IsNumeral cs n := by
  let inNumeral (c : Char) : Bool := isAsciiDigit c || c == '+'
  have hLower : ∀ c, inNumeral c.toLower = inNumeral c := apply_toLower inNumeral (by decide)
  have hFixed : (∀ c ∈ cs, inNumeral c = true) → cs.map Char.toLower = cs := by
    intro hAll
    refine (List.map_congr_left fun c hc => Char.toLower_eq_of_not_isUpper fun hUpper => ?_).trans
      (List.map_id cs)
    have hNot : inNumeral c ≠ true :=
      forall_isUpper (P := fun c => inNumeral c ≠ true) (by decide) hUpper
    exact hNot (hAll c hc)
  have hAll : ∀ {ds : List Char}, IsNumeral ds n → ∀ c ∈ ds, inNumeral c = true := by
    rintro ds ⟨digits, hText, -, hDigits, -⟩ c hc
    have hDigit : ∀ c ∈ digits, inNumeral c = true := fun c hc => by
      simp [inNumeral, isAsciiDigit, hDigits c hc]
    rcases hText with rfl | rfl
    · exact hDigit c hc
    · have hSigned : ∀ c ∈ '+' :: digits, inNumeral c = true :=
        List.forall_mem_cons.2 ⟨by decide, hDigit⟩
      exact hSigned c hc
  constructor
  · intro h
    rwa [hFixed fun c hc => (hLower c).symm.trans (hAll h _ (List.mem_map_of_mem hc))] at h
  · intro h
    rwa [hFixed (hAll h)]

/-- The runs of characters of a kind that regards no case. -/
theorem runs_map_toLower {p : Char → Bool} (hp : ∀ c, p c.toLower = p c) (n : Nat)
    (text : List Char) :
    runs p n (text.map Char.toLower) =
      (runs p n text).map fun run => ⟨run.start, run.chars.map Char.toLower⟩ :=
  runs_map hp utf8Size_toLower n text

end Highlighter.Text
