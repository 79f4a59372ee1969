import Mathlib.Tactic.SplitIfs

/-! The order of texts by their bytes. Texts are compared character by character; since the
encoding of a greater character has a greater byte where the two first differ, comparing the
bytes comes to the same. -/

namespace Highlighter.Text

def bytes (s : String) : List UInt8 := s.toByteArray.data.toList

theorem bytes_eq (s : String) : bytes s = s.toList.flatMap String.utf8EncodeChar := by
  rw [bytes, ← String.utf8Encode_toList, List.utf8Encode, List.data_toByteArray]

theorem ofNat_lt_ofNat_iff {a b : Nat} (ha : a < 256) (hb : b < 256) :
    UInt8.ofNat a < UInt8.ofNat b ↔ a < b := by
  rw [UInt8.lt_iff_toNat_lt, UInt8.toNat_ofNat', UInt8.toNat_ofNat', Nat.mod_eq_of_lt ha,
    Nat.mod_eq_of_lt hb]

theorem ofNat_eq_ofNat_iff {a b : Nat} (ha : a < 256) (hb : b < 256) :
    UInt8.ofNat a = UInt8.ofNat b ↔ a = b := by
  rw [← UInt8.toNat_inj, UInt8.toNat_ofNat', UInt8.toNat_ofNat', Nat.mod_eq_of_lt ha,
    Nat.mod_eq_of_lt hb]

/-- A greater character has greater bytes, whatever follows. -/
theorem encodeChar_append_lt {c d : Char} (h : c < d) (xs ys : List UInt8) :
    String.utf8EncodeChar c ++ xs < String.utf8EncodeChar d ++ ys := by
  have hLt : c.val.toNat < d.val.toNat := h
  have hMax : d.val.toNat < 1114112 := d.valid.elim (fun h => by omega) (fun h => h.2)
  unfold String.utf8EncodeChar
  dsimp only
  generalize c.val.toNat = m at *
  generalize d.val.toNat = n at *
  have hLast : m / 64 < n / 64 ∨ m / 64 = n / 64 ∧ m % 64 < n % 64 := by omega
  have hThird : m / 64 < n / 64 →
      m / 4096 < n / 4096 ∨ m / 4096 = n / 4096 ∧ m / 64 % 64 < n / 64 % 64 := by omega
  have hSecond : m / 4096 < n / 4096 → m / 262144 < n / 262144 ∨
      m / 262144 = n / 262144 ∧ m / 4096 % 64 < n / 4096 % 64 := by
    omega
  have hFirst : m / 262144 % 8 = m / 262144 ∧ n / 262144 % 8 = n / 262144 := by omega
  -- The first byte tells how many there are, and is greater where there are more.
  split_ifs <;> simp (disch := omega) only [List.cons_append, List.nil_append,
    List.cons_lt_cons_iff, ofNat_lt_ofNat_iff, ofNat_eq_ofNat_iff] <;> omega

theorem flatMap_encodeChar_lt {cs ds : List Char} (h : cs < ds) :
    cs.flatMap String.utf8EncodeChar < ds.flatMap String.utf8EncodeChar := by
  induction cs generalizing ds with
  | nil =>
    cases ds with
    | nil => exact absurd h (List.lt_irrefl _)
    | cons d ds =>
      obtain ⟨byte, rest, hBytes⟩ :=
        List.exists_cons_of_ne_nil (String.utf8EncodeChar_ne_nil (c := d))
      rw [List.flatMap_cons, hBytes]
      exact List.nil_lt_cons _ _
  | cons c cs ih =>
    cases ds with
    | nil => cases h
    | cons d ds =>
      rw [List.flatMap_cons, List.flatMap_cons]
      rcases List.cons_lt_cons_iff.1 h with hFirst | ⟨rfl, hRest⟩
      · exact encodeChar_append_lt hFirst _ _
      · exact List.append_left_lt (ih hRest)

theorem bytes_lt_iff {s t : String} : bytes s < bytes t ↔ s < t := by
  have hLt : ∀ {a b : String}, a < b → bytes a < bytes b := fun h => by
    rw [bytes_eq, bytes_eq]
    exact flatMap_encodeChar_lt (String.lt_iff.1 h)
  refine ⟨fun h => ?_, hLt⟩
  rcases Std.lt_trichotomy s t with hEarlier | rfl | hLater
  · exact hEarlier
  · exact absurd h (List.lt_irrefl _)
  · exact absurd h (List.lt_asymm (hLt hLater))

theorem bytes_le_iff {s t : String} : bytes s ≤ bytes t ↔ s ≤ t := by
  rw [← String.not_lt, ← bytes_lt_iff]
  exact List.not_lt.symm

end Highlighter.Text
