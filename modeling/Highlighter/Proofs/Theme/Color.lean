import Highlighter.Theme.Color
import Mathlib.Data.List.Forall2
import Mathlib.Data.List.TakeWhile
import Mathlib.Tactic.IntervalCases

/-! Colours read from hexadecimal digits, and written in them. A colour has three or four
components, each of which is a pair of digits, or one digit that stands for two of its kind. In a
pair, a plus sign is read as a leading zero; apart from this, nothing but digits is read. What is
written is read as the colour that it has been written for. -/

namespace Highlighter.Color

open Text

def components (c : Color) : List UInt8 := [c.red, c.green, c.blue, c.alpha]

/-- A text of three, four, six or eight hexadecimal digits. -/
structure IsHexDigits (text : List Char) : Prop where
  length : text.length ∈ [3, 4, 6, 8]
  digits : ∀ c ∈ text, isHexDigit c = true

/-- Two digits for each of the four components: single digits are doubled, and opacity
is full if it is left out. -/
def fullDigits (digits : List Char) : List Char :=
  let pairs := if digits.length < 6 then digits.flatMap fun d => [d, d] else digits
  if pairs.length < 8 then pairs ++ ['F', 'F'] else pairs

/-- The numbers that have these digits in base sixteen, two each. -/
def byteValues : List Char → List Nat
  | d :: e :: rest => (digitValue d * 16 + digitValue e) :: byteValues rest
  | [_] | [] => []

/-- The numbers of all four components. -/
def withOpacity (ns : List Nat) : List Nat := if ns.length = 3 then ns ++ [255] else ns

/-- Zero for a plus sign. -/
def unsignDigit (d : Char) : Char := if d = '+' then '0' else d

/-- The digits with zeros for plus signs that stand first in a pair. -/
def unsignPairs : List Char → List Char
  | d :: e :: rest => unsignDigit d :: e :: unsignPairs rest
  | text => text

/-- The digits that a text is read as. Only in texts of pairs are there signs. -/
def unsigned (text : List Char) : List Char :=
  if text.length = 6 ∨ text.length = 8 then unsignPairs text else text

section

variable {text : List Char}

theorem length_unsignPairs (text : List Char) : (unsignPairs text).length = text.length := by
  fun_induction unsignPairs text <;> simp_all

theorem length_unsigned (text : List Char) : (unsigned text).length = text.length := by
  unfold unsigned
  split
  · exact length_unsignPairs text
  · rfl

theorem unsignPairs_of_not_mem (h : '+' ∉ text) : unsignPairs text = text := by
  fun_induction unsignPairs text with
  | case1 d e rest ih =>
    simp only [List.mem_cons, not_or] at h
    rw [ih h.2.2, unsignDigit, if_neg (Ne.symm h.1)]
  | case2 => rfl

theorem unsigned_of_not_mem (h : '+' ∉ text) : unsigned text = text := by
  unfold unsigned
  split
  · exact unsignPairs_of_not_mem h
  · rfl

/-! ### Digits -/

theorem isHexDigit_iff {c : Char} : isHexDigit c = true ↔
    48 ≤ c.toNat ∧ c.toNat ≤ 57 ∨ 97 ≤ c.toNat ∧ c.toNat ≤ 102 ∨
      65 ≤ c.toNat ∧ c.toNat ≤ 70 := by
  simp [isHexDigit, isAsciiDigit, Char.le_def, UInt32.le_iff_toNat_le, or_assoc]

theorem digitValue_lt {c : Char} (h : isHexDigit c = true) : digitValue c < 16 := by
  rw [isHexDigit_iff] at h
  simp only [digitValue, isAsciiDigit, Bool.and_eq_true, decide_eq_true_eq, Char.le_def,
    UInt32.le_iff_toNat_le, Char.reduceVal, UInt32.reduceToNat, Char.toNat_val, Char.reduceToNat]
  split
  · omega
  · split <;> omega

theorem isAscii_of_isHexDigit {c : Char} (h : isHexDigit c = true) : isAscii c = true := by
  rw [isHexDigit_iff] at h
  rw [isAscii, decide_eq_true_eq]
  omega

theorem isHexDigit_hexDigit {n : Nat} (h : n < 16) : isHexDigit (hexDigit n) = true := by
  interval_cases n <;> decide

theorem digitValue_hexDigit {n : Nat} (h : n < 16) : digitValue (hexDigit n) = n := by
  interval_cases n <;> decide

theorem hexDigit_ne_sign {n : Nat} (h : n < 16) : hexDigit n ≠ '#' ∧ hexDigit n ≠ '+' := by
  interval_cases n <;> decide

/-! ### Components -/

theorem component?_single (d : Char) :
    component? [d] = if isHexDigit d then some (digitValue d) else none := rfl

theorem component?_pair (d e : Char) : component? [d, e] =
    if isHexDigit (unsignDigit d) && isHexDigit e then
      some (digitValue (unsignDigit d) * 16 + digitValue e)
    else none := by
  by_cases hd : d = '+'
  · subst hd
    have hZero : isHexDigit '0' = true ∧ digitValue '0' = 0 := by decide
    simp [component?, unsignDigit, hZero]
  · rw [unsignDigit, if_neg hd, component?]
    exact hd

/-- A component is read from each group. -/
def ReadAs (groups : List (List Char)) (ns : List Nat) : Prop :=
  List.Forall₂ (fun group n => component? group = some n) groups ns

theorem readAs_singles (h : ∀ c ∈ text, isHexDigit c = true) :
    ReadAs (text.map ([·])) (text.map digitValue) := by
  induction text with
  | nil => exact .nil
  | cons d text ih =>
    obtain ⟨hHere, hRest⟩ := List.forall_mem_cons.1 h
    refine .cons ?_ (ih hRest)
    rw [component?_single, if_pos hHere]

theorem readAs_pairs (hEven : 2 ∣ text.length)
    (h : ∀ c ∈ unsignPairs text, isHexDigit c = true) :
    ReadAs (pairs text) (byteValues (unsignPairs text)) := by
  fun_induction pairs text with
  | case1 d e rest ih =>
    simp only [unsignPairs, List.forall_mem_cons] at h
    obtain ⟨hFirst, hSecond, hRest⟩ := h
    refine .cons ?_ (ih (by simpa using hEven) hRest)
    rw [component?_pair, hFirst, hSecond]
    rfl
  | case2 d => simp at hEven
  | case3 => exact .nil

theorem exists_single_eq_none (h : ¬ ∀ c ∈ text, isHexDigit c = true) :
    ∃ group ∈ text.map ([·]), component? group = none := by
  push Not at h
  obtain ⟨d, hd, hNone⟩ := h
  refine ⟨[d], List.mem_map_of_mem hd, ?_⟩
  rw [component?_single, if_neg hNone]

theorem exists_pair_eq_none (hEven : 2 ∣ text.length)
    (h : ¬ ∀ c ∈ unsignPairs text, isHexDigit c = true) :
    ∃ group ∈ pairs text, component? group = none := by
  fun_induction pairs text with
  | case1 d e rest ih =>
    by_cases hHere : isHexDigit (unsignDigit d) = true ∧ isHexDigit e = true
    · simp only [unsignPairs, List.forall_mem_cons, hHere, true_and] at h
      obtain ⟨group, hGroup, hNone⟩ := ih (by simpa using hEven) h
      exact ⟨group, List.mem_cons_of_mem _ hGroup, hNone⟩
    · refine ⟨[d, e], List.mem_cons_self, ?_⟩
      rw [component?_pair, if_neg (by simpa using hHere)]
  | case2 d => simp at hEven
  | case3 => exact absurd (List.forall_mem_nil _) h

/-! ### Reading components -/

/-- Reads a component, multiplied by `factor`. -/
def readGroup (value : String) (factor : Nat) (group : List Char) : Except Error Nat :=
  match component? group with
  | some n => .ok (n * factor)
  | none => .error (.invalidColor value ("invalid hex component '" ++ String.ofList group ++ "'"))

variable {value : String} {factor : Nat} {groups : List (List Char)} {ns : List Nat}

theorem readComponents_eq (value : String) (factor : Nat) (groups : List (List Char)) :
    readComponents value factor groups = (groups.mapM (readGroup value factor)).bind fun ns =>
      match ofComponents? ns with
      | some color => .ok color
      | none => .error (.invalidColor value ("invalid length " ++ toString groups.length)) := rfl

theorem ReadAs.mapM_eq (h : ReadAs groups ns) :
    groups.mapM (readGroup value factor) = .ok (ns.map (· * factor)) := by
  induction h with
  | nil => rfl
  | cons hHere _ ih =>
    rw [List.mapM_cons, readGroup, hHere, ih]
    rfl

theorem exists_mapM_eq_error (h : ∃ group ∈ groups, component? group = none) :
    ∃ reason, groups.mapM (readGroup value factor) = .error (.invalidColor value reason) := by
  induction groups with
  | nil => simp at h
  | cons group groups ih =>
    rw [List.mapM_cons, readGroup]
    cases hHere : component? group with
    | none => exact ⟨_, rfl⟩
    | some n =>
      obtain ⟨bad, hBad, hNone⟩ := h
      have hOther : bad ∈ groups := by
        refine (List.mem_cons.1 hBad).resolve_left fun hEq => ?_
        rw [← hEq, hNone] at hHere
        cases hHere
      obtain ⟨reason, hError⟩ := ih ⟨bad, hOther, hNone⟩
      rw [hError]
      exact ⟨reason, rfl⟩

theorem exists_readComponents_eq_error (h : ∃ group ∈ groups, component? group = none) :
    ∃ reason, readComponents value factor groups = .error (.invalidColor value reason) := by
  obtain ⟨reason, hError⟩ :
      ∃ reason, groups.mapM (readGroup value factor) = .error (.invalidColor value reason) :=
    exists_mapM_eq_error h
  refine ⟨reason, ?_⟩
  rw [readComponents_eq, hError]
  rfl

theorem exists_ofComponents?_eq_some (hLength : ns.length = 3 ∨ ns.length = 4)
    (hBytes : ∀ n ∈ ns, n < 256) :
    ∃ c, ofComponents? ns = some c ∧ c.components.map (·.toNat) = withOpacity ns := by
  have hToNat : ∀ n ∈ ns, (UInt8.ofNat n).toNat = n :=
    fun n hn => UInt8.toNat_ofNat_of_lt' (hBytes n hn)
  match ns, hLength with
  | [r, g, b], _ => exact ⟨_, rfl, by simp_all [components, rgb, withOpacity]⟩
  | [r, g, b, a], _ => exact ⟨_, rfl, by simp_all [components, withOpacity]⟩

theorem ReadAs.exists_readComponents_eq_ok (h : ReadAs groups ns)
    (hLength : ns.length = 3 ∨ ns.length = 4) (hBytes : ∀ n ∈ ns, n * factor < 256) :
    ∃ c, readComponents value factor groups = .ok c ∧
      c.components.map (·.toNat) = withOpacity (ns.map (· * factor)) := by
  have hLength' : (ns.map (· * factor)).length = 3 ∨ (ns.map (· * factor)).length = 4 := by
    simpa using hLength
  obtain ⟨c, hSome, hComponents⟩ :=
    exists_ofComponents?_eq_some hLength' (by simpa using hBytes)
  refine ⟨c, ?_, hComponents⟩
  rw [readComponents_eq, h.mapM_eq]
  show (match ofComponents? (ns.map (· * factor)) with | some color => _ | none => _) = _
  rw [hSome]

/-! ### The numbers of digits -/

theorem length_byteValues (text : List Char) : (byteValues text).length = text.length / 2 := by
  fun_induction byteValues text with
  | case1 d e rest ih =>
    simp only [List.length_cons, ih]
    omega
  | case2 | case3 => simp

theorem byteValues_append {left : List Char} (h : 2 ∣ left.length) (right : List Char) :
    byteValues (left ++ right) = byteValues left ++ byteValues right := by
  fun_induction byteValues left with
  | case1 d e rest ih =>
    rw [List.cons_append, List.cons_append, byteValues, ih (by simpa using h), List.cons_append]
  | case2 => simp at h
  | case3 => rfl

theorem byteValues_double (text : List Char) :
    byteValues (text.flatMap fun d => [d, d]) = (text.map digitValue).map (· * 17) := by
  induction text with
  | nil => rfl
  | cons d text ih =>
    simp only [List.flatMap_cons, List.cons_append, List.nil_append, byteValues, ih, List.map_cons,
      List.cons.injEq, and_true]
    omega

theorem byteValues_lt (h : ∀ c ∈ text, isHexDigit c = true) :
    ∀ n ∈ byteValues text, n < 256 := by
  fun_induction byteValues text with
  | case1 d e rest ih =>
    simp only [List.forall_mem_cons] at h
    have hFirst := digitValue_lt h.1
    have hSecond := digitValue_lt h.2.1
    exact List.forall_mem_cons.2 ⟨by omega, ih h.2.2⟩
  | case2 | case3 => exact List.forall_mem_nil _

theorem byteValues_flatMap_writeComponent (ns : List UInt8) :
    byteValues (ns.flatMap writeComponent) = ns.map (·.toNat) := by
  induction ns with
  | nil => rfl
  | cons n ns ih =>
    have hLt := n.toNat_lt
    have hHigh := digitValue_hexDigit (n := n.toNat / 16) (by omega)
    have hLow := digitValue_hexDigit (n := n.toNat % 16) (by omega)
    simp only [List.flatMap_cons, writeComponent, List.cons_append, List.nil_append, byteValues, ih,
      hHigh, hLow, List.map_cons, List.cons.injEq, and_true]
    omega

theorem byteValues_fullDigits (h : text.length ∈ [3, 4, 6, 8]) : byteValues (fullDigits text) =
    withOpacity
      (if text.length < 6 then (text.map digitValue).map (· * 17) else byteValues text) := by
  have hOpaque : byteValues ['F', 'F'] = [255] := by decide
  have hDouble : (text.flatMap fun d => [d, d]).length = text.length * 2 := by
    simp [List.length_flatMap]
  have hLength := length_byteValues text
  simp only [List.mem_cons, List.not_mem_nil, or_false] at h
  unfold fullDigits withOpacity
  by_cases hShort : text.length < 6
  · simp only [hShort, if_true, hDouble, List.length_map]
    rcases h with h | h | h | h
    · rw [if_pos (by omega), if_pos h, byteValues_append (by omega), byteValues_double, hOpaque]
    · rw [if_neg (by omega), if_neg (by omega), byteValues_double]
    all_goals omega
  · simp only [hShort, if_false, hLength]
    rcases h with h | h | h | h
    · omega
    · omega
    · rw [if_pos (by omega), if_pos (by omega), byteValues_append (by omega), hOpaque]
    · rw [if_neg (by omega), if_neg (by omega)]

/-! ### Reading colours -/

def behindHashes (value : String) : List Char := value.toList.dropWhile (· == '#')

theorem ofHex_eq (value : String) : ofHex value =
    if behindHashes value = "white".toList then .ok white
    else if behindHashes value = "black".toList then .ok black
    else if ¬ (behindHashes value).all isAscii then .error (.invalidColor value "not ascii")
    else if (behindHashes value).length = 3 ∨ (behindHashes value).length = 4 then
      readComponents value 17 ((behindHashes value).map ([·]))
    else if (behindHashes value).length = 6 ∨ (behindHashes value).length = 8 then
      readComponents value 1 (pairs (behindHashes value))
    else .error (.invalidColor value
        ("invalid length " ++ toString (behindHashes value).length)) := by
  unfold ofHex behindHashes
  dsimp only
  generalize value.toList.dropWhile (· == '#') = text
  split
  · rfl
  · split
    · rfl
    · cases hAscii : text.all isAscii with
      | false => rfl
      | true =>
        simp only [Bool.not_true, Bool.false_eq_true, if_false]
        split <;> simp_all

theorem mem_unsignPairs (text : List Char) :
    ∀ c ∈ text, c = '+' ∨ c ∈ unsignPairs text := by
  fun_induction unsignPairs text with
  | case1 d e rest ih =>
    simp only [List.forall_mem_cons]
    refine ⟨?_, .inr (by simp), fun c hc => (ih c hc).imp_right fun hRest => by simp [hRest]⟩
    unfold unsignDigit
    split <;> simp_all
  | case2 text => exact fun c hc => .inr hc

theorem mem_unsigned {c : Char} (hc : c ∈ text) : c = '+' ∨ c ∈ unsigned text := by
  unfold unsigned
  split
  · exact mem_unsignPairs text c hc
  · exact .inr hc

theorem all_isAscii_of_unsigned (h : ∀ c ∈ unsigned text, isHexDigit c = true) :
    text.all isAscii = true := by
  rw [List.all_eq_true]
  intro c hc
  rcases mem_unsigned hc with rfl | hDigit
  · decide
  · exact isAscii_of_isHexDigit (h c hDigit)

theorem IsHexDigits.ne_name (h : IsHexDigits (unsigned text)) :
    text ≠ "white".toList ∧ text ≠ "black".toList := by
  have hLength := h.length
  rw [length_unsigned] at hLength
  constructor
  · rintro rfl
    revert hLength
    decide
  · rintro rfl
    revert hLength
    decide

theorem exists_ofHex_eq_ok (h : IsHexDigits (unsigned (behindHashes value))) :
    ∃ c, ofHex value = .ok c ∧
      c.components.map (·.toNat) = byteValues (fullDigits (unsigned (behindHashes value))) := by
  obtain ⟨hWhite, hBlack⟩ := h.ne_name
  have hAscii := all_isAscii_of_unsigned h.digits
  obtain ⟨hLength, hDigits⟩ := h
  rw [ofHex_eq, if_neg hWhite, if_neg hBlack, if_neg (not_not.2 hAscii),
    byteValues_fullDigits hLength]
  rw [length_unsigned] at hLength ⊢
  generalize behindHashes value = text at hLength hDigits ⊢
  simp only [List.mem_cons, List.not_mem_nil, or_false] at hLength
  by_cases hSingles : text.length = 3 ∨ text.length = 4
  · have hUnsigned : unsigned text = text := if_neg (by omega)
    rw [hUnsigned] at hDigits ⊢
    rw [if_pos hSingles, if_pos (by omega)]
    refine (readAs_singles hDigits).exists_readComponents_eq_ok (by simpa using hSingles)
      fun n hn => ?_
    obtain ⟨d, hd, rfl⟩ := List.mem_map.1 hn
    have hLt := digitValue_lt (hDigits d hd)
    omega
  · have hPairs : text.length = 6 ∨ text.length = 8 := by omega
    have hUnsigned : unsigned text = unsignPairs text := if_pos hPairs
    rw [hUnsigned] at hDigits ⊢
    rw [if_neg hSingles, if_pos hPairs, if_neg (by omega)]
    have hRead := readAs_pairs (by omega) hDigits
    have hCount := length_byteValues (unsignPairs text)
    rw [length_unsignPairs] at hCount
    have hBytes : ∀ n ∈ byteValues (unsignPairs text), n * 1 < 256 := by
      simpa using byteValues_lt hDigits
    simpa using hRead.exists_readComponents_eq_ok (by omega) hBytes

theorem exists_ofHex_eq_error (hWhite : behindHashes value ≠ "white".toList)
    (hBlack : behindHashes value ≠ "black".toList)
    (h : ¬ IsHexDigits (unsigned (behindHashes value))) :
    ∃ reason, ofHex value = .error (.invalidColor value reason) := by
  rw [ofHex_eq, if_neg hWhite, if_neg hBlack]
  generalize behindHashes value = text at h ⊢
  have hDigits : text.length ∈ [3, 4, 6, 8] → ¬ ∀ c ∈ unsigned text, isHexDigit c = true :=
    fun hLength hAll => h ⟨(length_unsigned text).symm ▸ hLength, hAll⟩
  split
  · exact ⟨_, rfl⟩
  · split
    · next hSingles =>
      have hNone := hDigits (by rcases hSingles with hLength | hLength <;> simp [hLength])
      rw [unsigned, if_neg (by omega)] at hNone
      exact exists_readComponents_eq_error (exists_single_eq_none hNone)
    · split
      · next hPairs =>
        have hNone := hDigits (by rcases hPairs with hLength | hLength <;> simp [hLength])
        rw [unsigned, if_pos hPairs] at hNone
        exact exists_readComponents_eq_error (exists_pair_eq_none (by omega) hNone)
      · exact ⟨_, rfl⟩

/-! ### Writing colours -/

theorem components_injective {c d : Color}
    (h : c.components.map (·.toNat) = d.components.map (·.toNat)) : c = d := by
  cases c
  cases d
  simp only [components, List.map_cons, List.map_nil, List.cons.injEq, and_true,
    UInt8.toNat_inj] at h
  simp only [h]

/-- The components that are written. -/
def written (c : Color) : List UInt8 :=
  [c.red, c.green, c.blue] ++ if c.alpha < 255 then [c.alpha] else []

theorem withOpacity_written (c : Color) :
    withOpacity (c.written.map (·.toNat)) = c.components.map (·.toNat) := by
  unfold written withOpacity components
  split
  · rfl
  · next hFull =>
    have hAlpha : c.alpha.toNat = 255 := by
      have hLt := c.alpha.toNat_lt
      rw [UInt8.lt_iff_toNat_lt] at hFull
      simp only [UInt8.reduceToNat] at hFull
      omega
    simp [hAlpha]

theorem mem_flatMap_writeComponent {ns : List UInt8} {d : Char}
    (h : d ∈ ns.flatMap writeComponent) : ∃ n < 16, d = hexDigit n := by
  obtain ⟨n, -, hd⟩ := List.mem_flatMap.1 h
  have hLt := n.toNat_lt
  simp only [writeComponent, List.mem_cons, List.not_mem_nil, or_false] at hd
  rcases hd with rfl | rfl
  · exact ⟨n.toNat / 16, by omega, rfl⟩
  · exact ⟨n.toNat % 16, by omega, rfl⟩

theorem behindHashes_toHex (c : Color) :
    behindHashes c.toHex = c.written.flatMap writeComponent := by
  have hHead : ∀ d ∈ c.written.flatMap writeComponent, d ≠ '#' := by
    intro d hd
    obtain ⟨n, hLt, rfl⟩ := mem_flatMap_writeComponent hd
    exact (hexDigit_ne_sign hLt).1
  unfold behindHashes toHex
  rw [String.toList_ofList, List.dropWhile_cons_of_pos rfl]
  show List.dropWhile _ (c.written.flatMap writeComponent) = _
  rw [List.dropWhile_eq_self_iff]
  intro hPos
  simpa using hHead _ (List.getElem_mem hPos)

theorem ofHex_toHex (c : Color) : ofHex c.toHex = .ok c := by
  have hText := behindHashes_toHex c
  have hUnsigned : unsigned (behindHashes c.toHex) = c.written.flatMap writeComponent := by
    rw [hText]
    refine unsigned_of_not_mem fun hMem => ?_
    obtain ⟨n, hLt, hEq⟩ := mem_flatMap_writeComponent hMem
    exact (hexDigit_ne_sign hLt).2 hEq.symm
  have hLength : (c.written.flatMap writeComponent).length = 6 ∨
      (c.written.flatMap writeComponent).length = 8 := by
    unfold written
    split
    · exact .inr rfl
    · exact .inl rfl
  have hDigits : IsHexDigits (unsigned (behindHashes c.toHex)) := by
    rw [hUnsigned]
    refine ⟨by rcases hLength with h | h <;> simp [h], fun d hd => ?_⟩
    obtain ⟨n, hLt, rfl⟩ := mem_flatMap_writeComponent hd
    exact isHexDigit_hexDigit hLt
  obtain ⟨c', hOk, hComponents⟩ := exists_ofHex_eq_ok hDigits
  rw [byteValues_fullDigits hDigits.length, hUnsigned, if_neg (by omega),
    byteValues_flatMap_writeComponent, withOpacity_written] at hComponents
  rw [hOk, components_injective hComponents]

/-- A colour is read from a name or from hexadecimal digits, where a plus sign may stand for a zero
that comes first in a pair, and from nothing else. Its components are the numbers that the digits
have, without overflow; anything else is refused. A text without plus signs is read as it stands. A
colour that is written is read again. -/
theorem ofHex_digits (value : String) :
    let text := behindHashes value
    let digits := unsigned text
    ((∃ c, ofHex value = .ok c) ↔
      text = "white".toList ∨ text = "black".toList ∨ IsHexDigits digits) ∧
    (text = "white".toList → ofHex value = .ok white) ∧
    (text = "black".toList → ofHex value = .ok black) ∧
    (IsHexDigits digits → ∃ c, ofHex value = .ok c ∧
      c.components.map (·.toNat) = byteValues (fullDigits digits)) ∧
    ((∀ c, ofHex value ≠ .ok c) →
      ∃ reason, ofHex value = .error (.invalidColor value reason)) ∧
    ('+' ∉ text → digits = text) ∧
    ∀ c : Color, ofHex c.toHex = .ok c := by
  intro text digits
  have hWhite : text = "white".toList → ofHex value = .ok white := fun hName => by
    rw [ofHex_eq, if_pos hName]
  have hBlack : text = "black".toList → ofHex value = .ok black := by
    intro hName
    have hNe : text ≠ "white".toList := by
      rw [hName]
      decide
    rw [ofHex_eq, if_neg hNe, if_pos hName]
  -- Nothing but names and digits is read, and the refusal quotes the text as it was given.
  have hRefused : text ≠ "white".toList → text ≠ "black".toList → ¬ IsHexDigits digits →
      ∃ reason, ofHex value = .error (.invalidColor value reason) := exists_ofHex_eq_error
  refine ⟨⟨?_, ?_⟩, hWhite, hBlack, exists_ofHex_eq_ok, fun hNone => ?_, unsigned_of_not_mem,
    ofHex_toHex⟩
  · rintro ⟨c, hOk⟩
    by_contra hOther
    push Not at hOther
    obtain ⟨reason, hError⟩ := hRefused hOther.1 hOther.2.1 hOther.2.2
    rw [hOk] at hError
    cases hError
  · rintro (hName | hName | hDigits)
    · exact ⟨white, hWhite hName⟩
    · exact ⟨black, hBlack hName⟩
    · obtain ⟨c, hOk, -⟩ := exists_ofHex_eq_ok hDigits
      exact ⟨c, hOk⟩
  · refine hRefused (fun hName => hNone _ (hWhite hName)) (fun hName => hNone _ (hBlack hName))
      fun hDigits => ?_
    obtain ⟨c, hOk, -⟩ := exists_ofHex_eq_ok hDigits
    exact hNone c hOk

/-- Four digits are doubled, whatever their case; a plus sign that stands for no
digit of a pair is refused. -/
theorem ofHex_digits_short :
    (IsHexDigits (unsigned (behindHashes "##aF08")) ∧ '+' ∉ behindHashes "##aF08" ∧
      ∃ c, ofHex "##aF08" = .ok c ∧ c.components.map (·.toNat) = [170, 255, 0, 136]) ∧
    ((∀ c, ofHex "#+FF" ≠ .ok c) ∧
      ∃ reason, ofHex "#+FF" = .error (.invalidColor "#+FF" reason)) ∧
    behindHashes "white" = "white".toList ∧ ofHex "white" = .ok white ∧
    behindHashes "#black" = "black".toList ∧ ofHex "#black" = .ok black := by
  have hPlus : '+' ∉ behindHashes "##aF08" := by decide +kernel
  obtain ⟨-, -, -, hDigits, -, hSame, -⟩ := ofHex_digits "##aF08"
  have hHex : IsHexDigits (unsigned (behindHashes "##aF08")) := by
    rw [hSame hPlus]
    exact ⟨by decide +kernel, List.all_eq_true.1 (by decide +kernel)⟩
  have hNone : ∀ c, ofHex "#+FF" ≠ .ok c := by
    intro c hOk
    have hEmpty : (ofHex "#+FF").toOption = none := by decide +kernel
    rw [hOk] at hEmpty
    cases hEmpty
  have hWhite : behindHashes "white" = "white".toList := by decide +kernel
  have hBlack : behindHashes "#black" = "black".toList := by decide +kernel
  obtain ⟨c, hOk, hComponents⟩ := hDigits hHex
  refine ⟨⟨hHex, hPlus, c, hOk, ?_⟩, ⟨hNone, (ofHex_digits "#+FF").2.2.2.2.1 hNone⟩,
    hWhite, (ofHex_digits "white").2.1 hWhite, hBlack, (ofHex_digits "#black").2.2.1 hBlack⟩
  rw [hComponents]
  decide +kernel

/-- A text that is not of hexadecimal digits may be read as a colour: here a plus sign
stands first in each pair. -/
theorem not_forall_isHexDigits : ¬ ∀ value : String, (∃ c, ofHex value = .ok c) ↔
    behindHashes value = "white".toList ∨ behindHashes value = "black".toList ∨
      IsHexDigits (behindHashes value) := by
  intro hAll
  have hOk : ofHex "#+F+F+F" = .ok (rgb 15 15 15) := by decide +kernel
  have hText : behindHashes "#+F+F+F" = "+F+F+F".toList := by decide +kernel
  have hHex := (hAll "#+F+F+F").1 ⟨_, hOk⟩
  rw [hText] at hHex
  rcases hHex with hWhite | hBlack | hDigits
  · revert hWhite
    decide
  · revert hBlack
    decide
  · have hPlus : isHexDigit '+' = true := hDigits.digits '+' List.mem_cons_self
    revert hPlus
    decide

end

end Highlighter.Color
