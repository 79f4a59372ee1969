import Highlighter.Text.Case

/-! Lower-casing a text twice is lower-casing it once. No character that a run of the table leads to
is one that a run leads from, so that lower-cased characters stay as they are, and none of them is a
capital sigma, the only character whose lower case depends on its neighbours. -/

namespace Highlighter.Text

namespace CaseRun

/-- The code points of a run. -/
def codes (run : CaseRun) : List Nat :=
  (List.range ((run.last - run.first) / run.step + 1)).map fun i => run.first + run.step * i

/-- The images of the code points of a run. -/
def images (run : CaseRun) : List Nat :=
  (List.range ((run.last - run.first) / run.step + 1)).map fun i => run.image + run.step * i

theorem mem_of_imageOf? {run : CaseRun} {code image : Nat} (h : run.imageOf? code = some image) :
    code ∈ run.codes ∧ image ∈ run.images := by
  unfold imageOf? at h
  split at h
  · next hRun =>
    obtain ⟨hFirst, hLast, hStep⟩ := hRun
    have hEq : run.step * ((code - run.first) / run.step) = code - run.first :=
      Nat.mul_div_cancel' (Nat.dvd_of_mod_eq_zero hStep)
    have hIndex :
        (code - run.first) / run.step ∈ List.range ((run.last - run.first) / run.step + 1) :=
      List.mem_range.2 (Nat.lt_succ_of_le (Nat.div_le_div_right (Nat.sub_le_sub_right hLast _)))
    refine ⟨List.mem_map.2 ⟨_, hIndex, ?_⟩, List.mem_map.2 ⟨_, hIndex, ?_⟩⟩
    · omega
    · rw [hEq]
      exact Option.some.inj h
  · cases h

end CaseRun

/-- The number whose bits are those at the given places. Two lists of numbers are compared at once
by it. -/
def bits (places : List Nat) : Nat := places.foldr (fun place rest => 1 <<< place ||| rest) 0

theorem testBit_bits {places : List Nat} {place : Nat} :
    (bits places).testBit place = true ↔ place ∈ places := by
  induction places with
  | nil => simp [bits]
  | cons first places ih =>
    show (1 <<< first ||| bits places).testBit place = true ↔ _
    rw [Nat.testBit_or, Bool.or_eq_true, ih, List.mem_cons, Nat.one_shiftLeft, Nat.testBit_two_pow,
      decide_eq_true_iff, eq_comm]

theorem not_mem_of_land_bits {xs ys : List Nat} (h : bits xs &&& bits ys = 0) {place : Nat}
    (hx : place ∈ xs) : place ∉ ys := by
  intro hy
  have hBit : (bits xs &&& bits ys).testBit place = true := by
    rw [Nat.testBit_and, testBit_bits.2 hx, testBit_bits.2 hy]
    rfl
  rw [h, Nat.zero_testBit] at hBit
  cases hBit

/-- All code points up to the last capital letter of ASCII, that of the one capital letter whose
lower case has two characters, and those that the table maps. -/
def unsettled : List Nat :=
  List.range ('Z'.toNat + 1) ++ 0x130 :: lowercaseRuns.flatMap (·.codes)

theorem lowerChar_sigma : lowerChar 'Σ' = ['σ'] := by rfl

/-- What the dotted capital I and the capital sigma turn into is in lower case. -/
theorem lowerChar_special : ∀ c ∈ ['i', Char.ofNat 0x307, 'ς', 'σ'], lowerChar c = [c] := by
  intro c hMem
  simp only [List.mem_cons, List.not_mem_nil, or_false] at hMem
  rcases hMem with rfl | rfl | rfl | rfl <;> rfl

theorem lowerChar_ascii : ∀ n : Fin 128,
    lowerChar (Char.ofNat n).toLower = [(Char.ofNat n).toLower] ∧
      ('Z'.toNat < n.val → lowerChar (Char.ofNat n) = [Char.ofNat n]) := by
  decide +kernel

theorem land_bits_unsettled : bits (lowercaseRuns.flatMap (·.images)) &&& bits unsettled = 0 := by
  decide +kernel

theorem lowerChar_image {run : CaseRun} (hRun : run ∈ lowercaseRuns) {code image : Nat}
    (hImage : run.imageOf? code = some image) :
    lowerChar (Char.ofNat image) = [Char.ofNat image] := by
  have hSettled : image ∉ unsettled := not_mem_of_land_bits land_bits_unsettled
    (List.mem_flatMap.2 ⟨run, hRun, (CaseRun.mem_of_imageOf? hImage).2⟩)
  simp only [unsettled, List.mem_append, List.mem_cons, List.mem_range, List.mem_flatMap,
    not_or] at hSettled
  obtain ⟨hAbove, hNe, hCodes⟩ := hSettled
  by_cases hAscii : image < 128
  · exact (lowerChar_ascii ⟨image, hAscii⟩).2 (by show _ < image; omega)
  by_cases hValid : image.isValidChar
  · have hNat : (Char.ofNat image).toNat = image := by
      rw [Char.ofNat, dif_pos hValid]
      rfl
    have hNone : lowercaseRuns.findSome? (·.imageOf? image) = none := by
      refine List.findSome?_eq_none_iff.2 fun other hOther => Option.eq_none_iff_forall_ne_some.2 ?_
      exact fun next hNext => hCodes ⟨other, hOther, (CaseRun.mem_of_imageOf? hNext).1⟩
    simp [lowerChar, isAscii, hNat, hAscii, hNone, hNe]
  · rw [Char.ofNat, dif_neg hValid]
    decide

theorem lowerChar_of_mem {c d : Char} (h : d ∈ lowerChar c) : lowerChar d = [d] := by
  unfold lowerChar at h
  split at h
  · next hAscii =>
    rw [List.mem_singleton.1 h, ← Char.ofNat_toNat c]
    exact (lowerChar_ascii ⟨c.toNat, of_decide_eq_true hAscii⟩).1
  · next hAscii =>
    split at h
    · apply lowerChar_special
      exact List.mem_append_left ['ς', 'σ'] h
    · next hDotted =>
      split at h
      · next code hCode =>
        obtain ⟨run, hRun, hImage⟩ := List.exists_of_findSome?_eq_some hCode
        rw [List.mem_singleton.1 h]
        exact lowerChar_image hRun hImage
      · next hNone =>
        rw [List.mem_singleton.1 h, lowerChar, if_neg hAscii, if_neg hDotted, hNone]

theorem lowerAfter_of_forall {before cs : List Char} (h : ∀ c ∈ cs, lowerChar c = [c]) :
    lowerAfter before cs = cs := by
  induction cs generalizing before with
  | nil => rfl
  | cons c cs ih =>
    have hLower := h c List.mem_cons_self
    have hNe : c ≠ 'Σ' := by
      rintro rfl
      rw [lowerChar_sigma] at hLower
      cases hLower
    rw [lowerAfter, if_neg hNe, hLower, ih fun d hd => h d (List.mem_cons_of_mem _ hd)]
    rfl

theorem lowerChar_of_mem_lowerAfter {before cs : List Char} {d : Char}
    (h : d ∈ lowerAfter before cs) : lowerChar d = [d] := by
  induction cs generalizing before with
  | nil => cases h
  | cons c cs ih =>
    rw [lowerAfter] at h
    rcases List.mem_append.1 h with hHere | hRest
    · split at hHere
      · rw [List.mem_singleton.1 hHere]
        apply lowerChar_special
        split <;> simp
      · exact lowerChar_of_mem hHere
    · exact ih hRest

/-- Lower-casing a lower-cased text changes nothing. -/
theorem lowercase_lowercase (s : String) : lowercase (lowercase s) = lowercase s := by
  have hFixed : lowerAfter [] (lowerAfter [] s.toList) = lowerAfter [] s.toList := by
    apply lowerAfter_of_forall
    exact fun d hd => lowerChar_of_mem_lowerAfter hd
  rw [lowercase, lowercase, String.toList_ofList, hFixed]

example : lowercase (lowercase "ΟΣ") = "ος" := by decide +kernel

end Highlighter.Text
