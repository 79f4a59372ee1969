/-! Numbers in decimal digits. The further a number lies from zero, the longer it is. -/

namespace Highlighter.Text

/-- A number is written in digits, after a hyphen if it is negative. -/
theorem isDigit_or_eq_of_mem_toString {n : Int} {c : Char} (h : c ∈ (toString n).toList) :
    c.isDigit ∨ c = '-' := by
  have hDigits : ∀ k : Nat, c ∈ k.repr.toList → c.isDigit := fun k hMem => by
    rw [Nat.toList_repr] at hMem
    exact Nat.isDigit_of_mem_toDigits (by decide) (by decide) hMem
  cases n with
  | ofNat k => exact .inl (hDigits k h)
  | negSucc k =>
    have hWrite : toString (Int.negSucc k) = "-" ++ (k + 1).repr := rfl
    rw [hWrite, String.toList_append, List.mem_append] at h
    exact h.symm.imp (hDigits (k + 1)) (by simp)

theorem length_repr_le {m n : Nat} (h : m ≤ n) : m.repr.length ≤ n.repr.length := by
  have hPos : 0 < n.repr.length := Nat.length_repr_pos
  have hLt : n < 10 ^ n.repr.length := (Nat.length_repr_le_iff hPos).1 (Nat.le_refl _)
  exact (Nat.length_repr_le_iff hPos).2 (Nat.lt_of_le_of_lt h hLt)

theorem length_toString_le_of_nonneg {a b : Int} (hNonneg : 0 ≤ a) (h : a ≤ b) :
    (toString a).length ≤ (toString b).length := by
  obtain ⟨m, rfl⟩ := Int.eq_ofNat_of_zero_le hNonneg
  obtain ⟨n, rfl⟩ := Int.eq_ofNat_of_zero_le (Int.le_trans hNonneg h)
  exact length_repr_le (Int.ofNat_le.1 h)

theorem length_toString_le_of_neg {a b : Int} (hNeg : b < 0) (h : a ≤ b) :
    (toString b).length ≤ (toString a).length := by
  obtain ⟨m, rfl⟩ := Int.eq_negSucc_of_lt_zero (Int.lt_of_le_of_lt h hNeg)
  obtain ⟨n, rfl⟩ := Int.eq_negSucc_of_lt_zero hNeg
  have hWrite :
      ∀ k : Nat, (toString (Int.negSucc k)).length = 1 + (k + 1).repr.length := fun k => by
    rw [show toString (Int.negSucc k) = "-" ++ (k + 1).repr from rfl, String.length_append]
    rfl
  have hLe := length_repr_le (m := n + 1) (n := m + 1) (by omega)
  rw [hWrite, hWrite]
  omega

end Highlighter.Text
