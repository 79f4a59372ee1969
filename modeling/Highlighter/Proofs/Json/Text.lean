import Highlighter.Json.Printer
import Highlighter.Json.Reader
import Highlighter.Proofs.Json.Schema
import Highlighter.Proofs.Text.Decimal

/-! A document is read from the text on one line that it is written as. The reader takes the text of
each value within the document to the state after that value, whatever is open around it. -/

namespace Highlighter.Json

open Text

mutual

/-- A document has neither fractions nor exponents in it, and nothing that is unreadable. -/
def isPlain : Json → Bool
  | .decimal .. => false
  | .unreadable => false
  | .array items => allPlain items
  | .object members => membersPlain members
  | _ => true

def allPlain : List Json → Bool
  | [] => true
  | v :: rest => isPlain v && allPlain rest

def membersPlain : List (String × Json) → Bool
  | [] => true
  | (_, v) :: rest => isPlain v && membersPlain rest

end

theorem allPlain_iff {items : List Json} : allPlain items ↔ ∀ v ∈ items, v.isPlain := by
  induction items with
  | nil => simp [allPlain]
  | cons v items ih => simp [allPlain, ih]

theorem membersPlain_iff {members : List (String × Json)} :
    membersPlain members ↔ ∀ m ∈ members, m.2.isPlain := by
  induction members with
  | nil => simp [membersPlain]
  | cons m members ih => simp [membersPlain, ih]

theorem Simple.isPlain {j : Json} (h : j.Simple) : j.isPlain := by
  induction h with
  | string s => rfl
  | bool b => rfl
  | nat hn => rfl
  | array h ih => exact allPlain_iff.2 ih
  | object h ih => exact membersPlain_iff.2 ih

namespace Reader

variable {stack : List Container} {result : Option Json}

theorem run?_cons (r : Reader) (c : Char) (cs : List Char) :
    r.run? (c :: cs) = (r.step? c).bind (run? · cs) := rfl

theorem run?_append (r : Reader) (cs ds : List Char) :
    r.run? (cs ++ ds) = (r.run? cs).bind (run? · ds) := by
  induction cs generalizing r with
  | nil => rfl
  | cons c cs ih =>
    rw [List.cons_append, run?_cons, run?_cons]
    cases r.step? c with
    | none => rfl
    | some next => exact ih next

/-- Taking in a value does not depend on what has been expected. -/
theorem complete_mk (e : Expecting) (v : Json) :
    complete ⟨e, stack, result⟩ v = complete ⟨.value, stack, result⟩ v := by
  cases stack with
  | nil => rfl
  | cons container stack => cases container <;> rfl

/-- After a value there is a separator or the end of what is around it. -/
theorem step?_complete (v : Json) (c : Char) :
    (complete ⟨.value, stack, result⟩ v).step? c =
      (complete ⟨.value, stack, result⟩ v).stepPlain? c := by
  cases stack with
  | nil => rfl
  | cons container stack => cases container <;> rfl

/-! ### Strings -/

/-- A character below the blank is written in four hexadecimal digits, of which the first two are
zeros. -/
theorem controlEscape_ofNat : ∀ n < 0x20, controlEscape (Char.ofNat n) =
    ['\\', 'u', '0', '0', Nat.digitChar (n / 16), Nat.digitChar (n % 16)] ∧
      hexDigit? (Nat.digitChar (n / 16)) = some (n / 16) ∧
      hexDigit? (Nat.digitChar (n % 16)) = some (n % 16) := by
  decide +kernel

theorem run?_controlEscape {c : Char} (h : c.toNat < 0x20) (isKey : Bool) (text rest : List Char) :
    run? ⟨.quoted isKey (some text) .plain, stack, result⟩ (controlEscape c ++ rest) =
      run? ⟨.quoted isKey (some (c :: text)) .plain, stack, result⟩ rest := by
  obtain ⟨hEscape, hHigh, hLow⟩ := controlEscape_ofNat c.toNat h
  rw [Char.ofNat_toNat] at hEscape
  have hStart : run? ⟨.quoted isKey (some text) .plain, stack, result⟩ ['\\', 'u', '0', '0'] =
      some ⟨.quoted isKey (some text) (.unicode 2 0 none), stack, result⟩ := rfl
  have hUnit : unit (some text) c.toNat none = (some (c :: text), .plain) := by
    rw [unit, if_neg (by omega), if_neg (by omega), Char.ofNat_toNat]
    rfl
  have hDigits : c.toNat / 16 * 16 + c.toNat % 16 = c.toNat := by omega
  have hEnd : run? ⟨.quoted isKey (some text) (.unicode 2 0 none), stack, result⟩
      [Nat.digitChar (c.toNat / 16), Nat.digitChar (c.toNat % 16)] =
        some ⟨.quoted isKey (some (c :: text)) .plain, stack, result⟩ := by
    simp [run?, step?, stepString?, hHigh, hLow, hDigits, hUnit]
  have hAll : run? ⟨.quoted isKey (some text) .plain, stack, result⟩ (controlEscape c) =
      some ⟨.quoted isKey (some (c :: text)) .plain, stack, result⟩ := by
    rw [hEscape, ← hEnd]
    exact (run?_append _ ['\\', 'u', '0', '0'] _).trans (by rw [hStart]; rfl)
  rw [run?_append, hAll]
  rfl

/-- A character of a string is read from what it is written as. -/
theorem run?_writeChar (isKey : Bool) (c : Char) (text rest : List Char) :
    run? ⟨.quoted isKey (some text) .plain, stack, result⟩ (writeChar c ++ rest) =
      run? ⟨.quoted isKey (some (c :: text)) .plain, stack, result⟩ rest := by
  unfold writeChar
  split
  · rfl
  · rfl
  · rfl
  · rfl
  · rfl
  · rfl
  · rfl
  · next hQuote hBackslash _ _ _ _ _ =>
    split
    · next hControl => exact run?_controlEscape hControl isKey text rest
    · next hControl =>
      change (stepPlainQuote? _ isKey (some text) c).bind _ = _
      rw [stepPlainQuote?, if_neg hQuote, if_neg hBackslash, if_neg hControl]
      rfl

theorem run?_flatMap_writeChar (isKey : Bool) (cs text rest : List Char) :
    run? ⟨.quoted isKey (some text) .plain, stack, result⟩ (cs.flatMap writeChar ++ rest) =
      run? ⟨.quoted isKey (some (cs.reverse ++ text)) .plain, stack, result⟩ rest := by
  induction cs generalizing text with
  | nil => rfl
  | cons c cs ih =>
    rw [List.flatMap_cons, List.append_assoc, run?_writeChar, ih]
    simp

theorem toList_writeString_append (s : String) (rest : List Char) :
    (writeString s).toList ++ rest = '"' :: (s.toList.flatMap writeChar ++ '"' :: rest) := by
  simp [writeString]

theorem run?_writeString (s : String) (rest : List Char) :
    run? ⟨.value, stack, result⟩ ((writeString s).toList ++ rest) =
      run? (complete ⟨.value, stack, result⟩ (.string s)) rest := by
  rw [toList_writeString_append]
  change run? ⟨.quoted false (some []) .plain, stack, result⟩ _ = _
  rw [run?_flatMap_writeChar,
    ← complete_mk (.quoted false (some (s.toList.reverse ++ [])) .plain)]
  change run? (complete _ (.string (.ofList (s.toList.reverse ++ []).reverse))) rest = _
  simp

theorem run?_key (members : List (String × Json)) (key : String) (rest : List Char) :
    run? ⟨.key, .object members "" true :: stack, result⟩ ((writeString key).toList ++ rest) =
      run? ⟨.colon, .object members key true :: stack, result⟩ rest := by
  rw [toList_writeString_append]
  change run? ⟨.quoted true (some []) .plain, .object members "" true :: stack, result⟩ _ = _
  rw [run?_flatMap_writeChar]
  change run? ⟨.colon, .object members (.ofList (key.toList.reverse ++ []).reverse) _ :: stack,
    result⟩ rest = _
  simp

/-! ### Numbers -/

theorem isAsciiDigit_digitChar :
    ∀ d < 10, isAsciiDigit d.digitChar ∧ d.digitChar.toNat - '0'.toNat = d := by
  decide

/-- The digits of a number are read one after another if the first one starts a number. -/
theorem run?_toDigits {r : Reader} {negative : Bool} (hFirst : ∀ d, 0 < d → d < 10 →
      r.step? d.digitChar = some ⟨.number (.start .whole negative d), stack, result⟩)
    {n : Nat} (hPos : 0 < n) :
    r.run? (Nat.toDigits 10 n) = some ⟨.number (.start .whole negative n), stack, result⟩ := by
  -- The last digit comes after the digits of what is left without it.
  induction n using Nat.strongRecOn with
  | ind n ih =>
    by_cases hLt : n < 10
    · rw [Nat.toDigits_of_lt_base hLt, run?_cons, hFirst n hPos hLt]
      rfl
    · obtain ⟨hDigit, hValue⟩ := isAsciiDigit_digitChar (n % 10) (Nat.mod_lt n (by decide))
      have hPush : (Numeral.start .whole negative (n / 10)).push? (n % 10).digitChar =
          some (.start .whole negative n) := by
        simp only [Numeral.push?, Numeral.start, hDigit, hValue]
        congr 2
        omega
      rw [Nat.toDigits_of_base_le (by decide) (by omega), run?_append,
        ih (n / 10) (by omega) (by omega), Option.bind_some, run?_cons]
      simp only [step?, hPush]
      rfl

/-- A whole number is read to its last digit. -/
theorem run?_toString (n : Int) : ∃ numeral : Numeral,
    run? ⟨.value, stack, result⟩ (toString n).toList =
        some ⟨.number numeral, stack, result⟩ ∧
      numeral.value? = some (.integer n) ∧ (numeral.part = .zero ∨ numeral.part = .whole) := by
  have hDigit : ∀ d, 0 < d → d < 10 → d = 1 ∨ d = 2 ∨ d = 3 ∨ d = 4 ∨ d = 5 ∨
      d = 6 ∨ d = 7 ∨ d = 8 ∨ d = 9 := by omega
  cases n with
  | ofNat n =>
    have hWrite : (toString (Int.ofNat n)).toList = Nat.toDigits 10 n := Nat.toList_repr
    rw [hWrite]
    cases n with
    | zero => exact ⟨.start .zero false 0, rfl, rfl, .inl rfl⟩
    | succ n =>
      refine ⟨.start .whole false (n + 1), run?_toDigits (fun d hPos hLt => ?_) n.succ_pos,
        rfl, .inr rfl⟩
      rcases hDigit d hPos hLt with rfl | rfl | rfl | rfl | rfl | rfl | rfl | rfl | rfl <;> rfl
  | negSucc n =>
    have hWrite : (toString (Int.negSucc n)).toList = '-' :: Nat.toDigits 10 (n + 1) := by
      change ("-" ++ (n + 1).repr).toList = _
      rw [String.toList_append, Nat.toList_repr]
      rfl
    rw [hWrite]
    refine ⟨.start .whole true (n + 1), ?_, rfl, .inr rfl⟩
    refine run?_toDigits (r := ⟨.number (.start .minus true 0), stack, result⟩)
      (fun d hPos hLt => ?_) n.succ_pos
    rcases hDigit d hPos hLt with rfl | rfl | rfl | rfl | rfl | rfl | rfl | rfl | rfl <;> rfl

def valueEnds : List Char := [',', ']', '\x7d']

theorem run?_integer (n : Int) {c : Char} (hc : c ∈ valueEnds) (rest : List Char) :
    run? ⟨.value, stack, result⟩ ((toString n).toList ++ c :: rest) =
      run? (complete ⟨.value, stack, result⟩ (.integer n)) (c :: rest) := by
  obtain ⟨numeral, hRun, hValue, hPart⟩ := run?_toString n
  have hPush : numeral.push? c = none := by
    have hNot : isAsciiDigit c = false ∧ c ≠ '.' ∧ c ≠ 'e' ∧ c ≠ 'E' := by
      simp only [valueEnds, List.mem_cons, List.not_mem_nil, or_false] at hc
      rcases hc with rfl | rfl | rfl <;> decide
    rcases hPart with hPart | hPart <;> simp [Numeral.push?, hPart, hNot]
  rw [run?_append, hRun, Option.bind_some, run?_cons, run?_cons, step?_complete]
  simp only [step?, hPush, hValue, Option.bind_some, complete_mk (.number numeral)]

/-! ### Values -/

theorem openValue?_mk (e : Expecting) (c : Char) :
    openValue? ⟨e, stack, result⟩ c = openValue? ⟨.value, stack, result⟩ c := rfl

theorem exists_toString_eq_cons (n : Int) : ∃ c cs, (toString n).toList = c :: cs := by
  refine List.exists_cons_of_ne_nil fun hNil => ?_
  cases n with
  | ofNat n =>
    have hDigits : Nat.toDigits 10 n = [] := Nat.toList_repr.symm.trans hNil
    rw [Nat.toDigits_eq_if (by decide)] at hDigits
    split at hDigits <;> simp at hDigits
  | negSucc n =>
    change ("-" ++ (n + 1).repr).toList = [] at hNil
    simp at hNil

/-- No value starts with a blank or with the end of an array. -/
theorem exists_compress_eq_cons {j : Json} (h : j.isPlain) :
    ∃ c cs, j.compress.toList = c :: cs ∧ isBlank c = false ∧ c ≠ ']' := by
  cases j with
  | null => exact ⟨_, _, rfl, rfl, by decide⟩
  | bool b => cases b <;> exact ⟨_, _, rfl, rfl, by decide⟩
  | integer n =>
    obtain ⟨c, cs, hText⟩ := exists_toString_eq_cons n
    have hDigit : c.isDigit ∨ c = '-' :=
      isDigit_or_eq_of_mem_toString (hText ▸ List.mem_cons_self)
    have hOther : ∀ d ∈ [' ', '\t', '\n', '\r', ']'], c ≠ d := by
      rintro d hd rfl
      revert hDigit
      simp only [List.mem_cons, List.not_mem_nil, or_false] at hd
      rcases hd with rfl | rfl | rfl | rfl | rfl <;> decide
    refine ⟨c, cs, hText, ?_, hOther ']' (by decide)⟩
    simp [isBlank, hOther]
  | decimal negative digits exponent => cases h
  | string s => exact ⟨'"', _, by simp [compress, writeString]; rfl, rfl, by decide⟩
  | array items => exact ⟨'[', _, by simp [compress]; rfl, rfl, by decide⟩
  | object members => exact ⟨'\x7b', _, by simp [compress]; rfl, rfl, by decide⟩
  | unreadable => cases h

theorem run?_firstItem {j : Json} (h : j.isPlain) (rest : List Char) :
    run? ⟨.firstItem, stack, result⟩ (j.compress.toList ++ rest) =
      run? ⟨.value, stack, result⟩ (j.compress.toList ++ rest) := by
  obtain ⟨c, cs, hText, hBlank, hEnd⟩ := exists_compress_eq_cons h
  rw [hText, List.cons_append, run?_cons, run?_cons]
  simp only [step?, stepPlain?, hBlank, hEnd, if_false, openValue?_mk .firstItem,
    Bool.false_eq_true]

theorem run?_firstKey (s : String) (rest : List Char) :
    run? ⟨.firstKey, stack, result⟩ ((writeString s).toList ++ rest) =
      run? ⟨.key, stack, result⟩ ((writeString s).toList ++ rest) := by
  rw [toList_writeString_append]
  rfl

theorem intercalate_cons (separator first : List Char) (texts : List (List Char)) :
    separator.intercalate (first :: texts) = first ++ texts.flatMap (separator ++ ·) := by
  induction texts generalizing first with
  | nil => simp
  | cons next texts ih => rw [List.intercalate_cons_of_ne_nil (by simp), ih]; simp

def writeItems (items : List Json) : List Char := items.flatMap fun v => ',' :: v.compress.toList

/-- A member of an object as it is written. -/
def writeMember (m : String × Json) : List Char :=
  (writeString m.1).toList ++ ':' :: m.2.compress.toList

def writeMembers (members : List (String × Json)) : List Char :=
  members.flatMap fun m => ',' :: writeMember m

theorem compressItems_eq (items : List Json) : compressItems items = items.map compress := by
  induction items with
  | nil => rfl
  | cons v items ih => rw [compressItems, ih, List.map_cons]

theorem compressMembers_eq (members : List (String × Json)) :
    (compressMembers members).map String.toList = members.map writeMember := by
  induction members with
  | nil => rfl
  | cons m members ih =>
    rw [compressMembers, List.map_cons, ih, List.map_cons]
    simp [writeMember]

theorem toList_compress_array (v : Json) (items : List Json) (rest : List Char) :
    (compress (.array (v :: items))).toList ++ rest =
      '[' :: (v.compress.toList ++ (writeItems items ++ ']' :: rest)) := by
  rw [compress, String.toList_append, String.toList_append, String.toList_intercalate,
    compressItems_eq, List.map_map, List.map_cons, intercalate_cons]
  simp [writeItems, List.flatMap_map]

theorem toList_compress_object (m : String × Json) (members : List (String × Json))
    (rest : List Char) :
    (compress (.object (m :: members))).toList ++ rest =
      '\x7b' :: (writeMember m ++ (writeMembers members ++ '\x7d' :: rest)) := by
  rw [compress, String.toList_append, String.toList_append, String.toList_intercalate,
    compressMembers_eq, List.map_cons, intercalate_cons]
  simp [writeMembers, List.flatMap_map]

theorem exists_writeItems_eq_cons (items : List Json) (rest : List Char) :
    ∃ c ∈ valueEnds, ∃ cs, writeItems items ++ ']' :: rest = c :: cs := by
  cases items with
  | nil => exact ⟨']', by decide, _, rfl⟩
  | cons v items => exact ⟨',', by decide, _, rfl⟩

theorem exists_writeMembers_eq_cons (members : List (String × Json)) (rest : List Char) :
    ∃ c ∈ valueEnds, ∃ cs, writeMembers members ++ '\x7d' :: rest = c :: cs := by
  cases members with
  | nil => exact ⟨'\x7d', by decide, _, rfl⟩
  | cons m members => exact ⟨',', by decide, _, rfl⟩

theorem complete_array (done : List Json) (v : Json) :
    complete ⟨.value, .array done :: stack, result⟩ v =
      ⟨.separator, .array (v :: done) :: stack, result⟩ := rfl

theorem complete_object (done : List (String × Json)) (key : String) (v : Json) :
    complete ⟨.value, .object done key true :: stack, result⟩ v =
      ⟨.separator, .object ((key, v) :: done) "" true :: stack, result⟩ := rfl

theorem run?_writeItems_cons (done : List Json) (v : Json) (items : List Json) (rest : List Char) :
    run? ⟨.separator, .array done :: stack, result⟩ (writeItems (v :: items) ++ rest) =
      run? ⟨.value, .array done :: stack, result⟩
        (v.compress.toList ++ (writeItems items ++ rest)) := by
  rw [writeItems, List.flatMap_cons, List.append_assoc]
  rfl

theorem run?_writeMember (done : List (String × Json)) (key : String) (v : Json)
    (rest : List Char) :
    run? ⟨.key, .object done "" true :: stack, result⟩ (writeMember (key, v) ++ rest) =
      run? ⟨.value, .object done key true :: stack, result⟩ (v.compress.toList ++ rest) := by
  rw [writeMember, List.append_assoc, run?_key]
  rfl

theorem run?_comma (done : List (String × Json)) (cs : List Char) :
    run? ⟨.separator, .object done "" true :: stack, result⟩ (',' :: cs) =
      run? ⟨.key, .object done "" true :: stack, result⟩ cs := rfl

theorem run?_writeMembers_cons (done : List (String × Json)) (key : String) (v : Json)
    (members : List (String × Json)) (rest : List Char) :
    run? ⟨.separator, .object done "" true :: stack, result⟩
        (writeMembers ((key, v) :: members) ++ rest) =
      run? ⟨.value, .object done key true :: stack, result⟩
        (v.compress.toList ++ (writeMembers members ++ rest)) := by
  rw [writeMembers, List.flatMap_cons, List.append_assoc, List.cons_append, run?_comma,
    run?_writeMember]
  rfl

theorem run?_compress_array {v : Json} (h : v.isPlain) (items : List Json) (rest : List Char) :
    run? ⟨.value, stack, result⟩ ((compress (.array (v :: items))).toList ++ rest) =
      run? ⟨.value, .array [] :: stack, result⟩
        (v.compress.toList ++ (writeItems items ++ ']' :: rest)) := by
  rw [toList_compress_array, ← run?_firstItem h]
  rfl

theorem run?_brace (cs : List Char) :
    run? ⟨.value, stack, result⟩ ('\x7b' :: cs) =
      run? ⟨.firstKey, .object [] "" true :: stack, result⟩ cs := rfl

theorem run?_compress_object (key : String) (v : Json) (members : List (String × Json))
    (rest : List Char) :
    run? ⟨.value, stack, result⟩ ((compress (.object ((key, v) :: members))).toList ++ rest) =
      run? ⟨.value, .object [] key true :: stack, result⟩
        (v.compress.toList ++ (writeMembers members ++ '\x7d' :: rest)) := by
  rw [toList_compress_object, ← run?_writeMember, writeMember, List.append_assoc,
    ← run?_firstKey]
  exact run?_brace _

mutual

/-- A value is read from what it is written as. Where it is a number, something has to follow that
ends it. -/
theorem run?_compress (j : Json) (hPlain : j.isPlain) (stack : List Container) (rest : List Char)
    (hEnd : ∀ n, j = .integer n → ∃ c ∈ valueEnds, ∃ cs, rest = c :: cs) :
    run? ⟨.value, stack, result⟩ (j.compress.toList ++ rest) =
      run? (complete ⟨.value, stack, result⟩ j) rest := by
  match j with
  | .null =>
    rw [← complete_mk (.word ['l'] .null)]
    rfl
  | .bool true =>
    rw [← complete_mk (.word ['e'] (.bool true))]
    rfl
  | .bool false =>
    rw [← complete_mk (.word ['e'] (.bool false))]
    rfl
  | .integer n =>
    obtain ⟨c, hc, cs, rfl⟩ := hEnd n rfl
    exact run?_integer n hc cs
  | .string s => exact run?_writeString s rest
  | .array [] =>
    rw [← complete_mk .firstItem]
    rfl
  | .array (v :: items) =>
    -- After an item comes a comma or the bracket, so the item may be a number.
    obtain ⟨hFirst, hRest⟩ := Bool.and_eq_true_iff.1 hPlain
    have hEnds := exists_writeItems_eq_cons items rest
    rw [run?_compress_array hFirst, run?_compress v hFirst _ _ fun _ _ => hEnds, complete_array,
      run?_writeItems items hRest]
    rfl
  | .object [] =>
    rw [← complete_mk .firstKey]
    rfl
  | .object ((key, v) :: members) =>
    obtain ⟨hFirst, hRest⟩ := Bool.and_eq_true_iff.1 hPlain
    have hEnds := exists_writeMembers_eq_cons members rest
    rw [run?_compress_object, run?_compress v hFirst _ _ fun _ _ => hEnds, complete_object,
      run?_writeMembers members hRest]
    rfl

/-- The items after the first one are read up to the end of the array. -/
theorem run?_writeItems (items : List Json) (hPlain : allPlain items) (done : List Json)
    (stack : List Container) (rest : List Char) :
    run? ⟨.separator, .array done :: stack, result⟩ (writeItems items ++ ']' :: rest) =
      run? (complete ⟨.value, stack, result⟩ (.array (done.reverse ++ items))) rest := by
  match items with
  | [] =>
    rw [← complete_mk .separator, List.append_nil]
    rfl
  | v :: items =>
    obtain ⟨hFirst, hRest⟩ := Bool.and_eq_true_iff.1 hPlain
    have hEnds := exists_writeItems_eq_cons items rest
    rw [run?_writeItems_cons, run?_compress v hFirst _ _ fun _ _ => hEnds, complete_array,
      run?_writeItems items hRest, List.reverse_cons, List.append_assoc, List.singleton_append]

theorem run?_writeMembers (members : List (String × Json)) (hPlain : membersPlain members)
    (done : List (String × Json)) (stack : List Container) (rest : List Char) :
    run? ⟨.separator, .object done "" true :: stack, result⟩
        (writeMembers members ++ '\x7d' :: rest) =
      run? (complete ⟨.value, stack, result⟩ (.object (done.reverse ++ members))) rest := by
  match members with
  | [] =>
    rw [← complete_mk .separator, List.append_nil]
    rfl
  | (key, v) :: members =>
    obtain ⟨hFirst, hRest⟩ := Bool.and_eq_true_iff.1 hPlain
    have hEnds := exists_writeMembers_eq_cons members rest
    rw [run?_writeMembers_cons, run?_compress v hFirst _ _ fun _ _ => hEnds, complete_object,
      run?_writeMembers members hRest, List.reverse_cons, List.append_assoc, List.singleton_append]

end

end Reader

/-- A plain document is read from the text that it is written as. -/
theorem parse?_compress {j : Json} (h : j.isPlain) : parse? j.compress = some j := by
  unfold parse? Reader.start
  -- A number that stands alone ends with the text, and not where a delimiter follows.
  by_cases hInteger : ∃ n, j = .integer n
  · obtain ⟨n, rfl⟩ := hInteger
    obtain ⟨numeral, hRun, hValue, -⟩ := @Reader.run?_toString [] none n
    rw [compress, hRun]
    exact hValue
  · have hRun : Reader.run? ⟨.value, [], none⟩ (j.compress.toList ++ []) = _ :=
      Reader.run?_compress j h [] [] fun n hEq => absurd ⟨n, hEq⟩ hInteger
    rw [List.append_nil] at hRun
    rw [hRun]
    rfl

end Highlighter.Json
