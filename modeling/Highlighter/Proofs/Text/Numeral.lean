import Highlighter.Text.Numeral
import Mathlib.Data.Nat.Digits.Lemmas
import Mathlib.Tactic.Ring

/-! Numbers read from decimal digits. A numeral is one or more ASCII digits after an optional plus
sign, and stands for the number that has these digits in base ten. -/

namespace Highlighter.Text

def digitValue (c : Char) : Nat := c.toNat - '0'.toNat

/-- A text is a numeral of a number. -/
def IsNumeral (cs : List Char) (n : Nat) : Prop :=
  ∃ digits, (cs = digits ∨ cs = '+' :: digits) ∧ digits ≠ [] ∧
    (∀ c ∈ digits, '0' ≤ c ∧ c ≤ '9') ∧
    n = Nat.ofDigits 10 (digits.reverse.map digitValue)

variable {cs : List Char} {n : Nat}

theorem isAsciiDigit_iff {c : Char} : isAsciiDigit c = true ↔ '0' ≤ c ∧ c ≤ '9' := by
  simp [isAsciiDigit]

theorem digitsValue_cons (acc : Nat) (c : Char) (cs : List Char) :
    digitsValue acc (c :: cs) = digitsValue (acc * 10 + digitValue c) cs := by
  with_unfolding_all rfl

theorem digitsValue_eq (acc : Nat) (cs : List Char) :
    digitsValue acc cs = acc * 10 ^ cs.length + Nat.ofDigits 10 (cs.reverse.map digitValue) := by
  induction cs generalizing acc with
  | nil => exact (Nat.mul_one acc).symm
  | cons c cs ih =>
    rw [digitsValue_cons, ih, List.reverse_cons, List.map_append, List.map_singleton,
      Nat.ofDigits_append, Nat.ofDigits_singleton, List.length_map, List.length_reverse,
      List.length_cons]
    ring

theorem natural?_eq_some_iff : natural? cs = some n ↔
    cs ≠ [] ∧ (∀ c ∈ cs, '0' ≤ c ∧ c ≤ '9') ∧
      n = Nat.ofDigits 10 (cs.reverse.map digitValue) := by
  have hValue : digitsValue 0 cs = Nat.ofDigits 10 (cs.reverse.map digitValue) := by
    rw [digitsValue_eq, Nat.zero_mul, Nat.zero_add]
  simp only [natural?, hValue, Option.ite_none_right_eq_some, Bool.and_eq_true, Bool.not_eq_true',
    List.isEmpty_eq_false_iff, List.all_eq_true, isAsciiDigit_iff, Option.some.injEq, and_assoc,
    eq_comm (a := n)]

/-- A number is read if it is written in digits, with or without a sign, and is below the bound. -/
theorem unsigned?_eq_some_iff {bound : Nat} {s : String} :
    unsigned? bound s = some n ↔ IsNumeral s.toList n ∧ n < bound := by
  have hPlus : ¬ ('0' ≤ '+' ∧ '+' ≤ '9') := by decide
  rw [unsigned?, Option.filter_eq_some_iff, decide_eq_true_eq, natural?_eq_some_iff]
  refine and_congr_left fun _ => ?_
  generalize s.toList = cs
  constructor
  · split
    · next digits => exact fun h => ⟨digits, .inr rfl, h⟩
    · exact fun h => ⟨cs, .inl rfl, h⟩
  · rintro ⟨digits, rfl | rfl, hNumeral⟩
    · split
      · next rest => exact absurd (hNumeral.2.1 '+' List.mem_cons_self) hPlus
      · exact hNumeral
    · exact hNumeral

example : unsigned? 256 "+0255" = some 255 := by decide +kernel

end Highlighter.Text
