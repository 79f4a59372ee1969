import Highlighter.Proofs.Pattern.ClassItems

/-! What is left to read is the end of what there was to read, whether it is a number, an escape, an
item of a class or a class that has been read. -/

namespace Highlighter.Pattern

open Highlighter.Text

variable {cs rest : List Char}

/-! ### Escapes -/

theorem takeDigits_suffix (digit : Char → Bool) (limit : Nat) (cs : List Char) :
    (takeDigits digit limit cs).2 <:+ cs :=
  List.drop_suffix _ cs

theorem suffix_of_byteEscape? {byte : Nat} (h : byteEscape? cs = some (byte, rest)) :
    rest <:+ cs := by
  unfold byteEscape? at h
  split at h
  · cases h
  · cases h
  · next digits =>
    cases h
    exact (takeDigits_suffix _ _ _).trans ⟨['\\', 'x'], rfl⟩
  · cases h

theorem suffix_of_moreBytes {n : Nat} {bytes : List Nat} (h : moreBytes n cs = .ok (bytes, rest)) :
    rest <:+ cs := by
  induction n generalizing cs bytes with
  | zero =>
    cases h
    exact List.suffix_refl _
  | succ n ih =>
    unfold moreBytes at h
    split at h
    · cases h
    · next byte after hByte =>
      split at h
      · cases h
      · next more left hMore =>
        cases h
        exact (ih hMore).trans (suffix_of_byteEscape? hByte)

theorem suffix_of_characterFrom {byte code : Nat} (h : characterFrom byte cs = .ok (code, rest)) :
    rest <:+ cs := by
  unfold characterFrom at h
  split at h
  · cases h
  · next hMore =>
    split at h
    · cases h
      exact suffix_of_moreBytes hMore
    · cases h

theorem suffix_of_octalCharacter {limit code : Nat}
    (h : octalCharacter limit cs = .ok (code, rest)) : rest <:+ cs := by
  unfold octalCharacter at h
  dsimp only at h
  split at h
  · cases h
  · exact (suffix_of_characterFrom h).trans (takeDigits_suffix _ _ _)

theorem rest_eq_of_map {α : Type} {x : Except PatternError α} {a : α} {left : List Char}
    (h : x.map (·, left) = .ok (a, rest)) : rest = left := by
  obtain ⟨a, -, hEq⟩ := exists_of_map_eq_ok h
  cases hEq
  rfl

theorem suffix_of_escapedCharacter {c : Char} {code : Nat}
    (h : escapedCharacter c cs = .ok (code, rest)) : rest <:+ cs := by
  unfold escapedCharacter at h
  split at h
  · next inner =>
    dsimp only at h
    split at h
    · next after hAfter =>
      split at h
      · cases h
      · split at h
        · have hInner := takeDigits_suffix isHexDigit 8 inner
          rw [hAfter] at hInner
          rw [rest_eq_of_map h]
          exact ((List.suffix_cons _ _).trans hInner).trans (List.suffix_cons _ _)
        · cases h
          exact List.suffix_refl _
    · cases h
      exact List.suffix_refl _
  · cases h
    exact List.suffix_refl _
  · exact (suffix_of_characterFrom h).trans (takeDigits_suffix _ _ _)
  · cases h
    exact List.suffix_refl _
  · dsimp only at h
    split at h
    · cases h
    · rw [rest_eq_of_map h]
      exact takeDigits_suffix _ _ _
  · cases h
  · cases h
    exact List.suffix_cons _ _
  · cases h
    exact List.suffix_refl _

theorem suffix_of_propertyName {name : List Char} (h : propertyName cs = .ok (name, rest)) :
    rest <:+ cs := by
  have hGo : ∀ cs sofar, propertyName.go sofar cs = .ok (name, rest) → rest <:+ cs := by
    intro cs
    induction cs with
    | nil => exact fun _ h => nomatch h
    | cons c cs ih =>
      intro sofar h
      unfold propertyName.go at h
      split at h
      · cases h
        exact List.suffix_cons _ _
      · split at h
        · cases h
        · exact (ih _ h).trans (List.suffix_cons _ _)
  exact hGo cs [] h

theorem suffix_of_readProperty {negated : Bool} {set : CharSet}
    (h : readProperty negated cs = .ok (set, rest)) : rest <:+ cs := by
  have hNamed : ∀ {negated cs}, namedSet negated cs = .ok (set, rest) → rest <:+ cs := by
    intro negated cs h
    unfold namedSet at h
    split at h
    · cases h
    · next hName =>
      split at h
      · cases h
        exact suffix_of_propertyName hName
      · cases h
  by_cases hCaret : cs.head? = some '^'
  · obtain ⟨cs, rfl⟩ := List.head?_eq_some_iff.1 hCaret
    rw [readProperty_negated] at h
    exact (hNamed h).trans (List.suffix_cons _ _)
  · cases cs with
    | nil => cases h
    | cons c cs =>
      rw [readProperty_of_ne (by simpa using hCaret)] at h
      exact hNamed h

/-! ### Classes -/

theorem suffix_of_bracketName? {negated : Bool} {name : List Char}
    (h : bracketName? cs = some (negated, name, rest)) : rest <:+ cs := by
  have hEnd : ∀ {inverse cs}, nameEnd? inverse cs = some (negated, name, rest) →
      rest <:+ cs := by
    intro inverse cs h
    unfold nameEnd? at h
    split at h
    · next after hDrop =>
      split at h
      · cases h
        have hSuffix := List.drop_suffix (cs.takeWhile isAsciiLetter).length cs
        rw [hDrop] at hSuffix
        exact ((List.suffix_cons _ _).trans (List.suffix_cons _ _)).trans hSuffix
      · cases h
    · cases h
  by_cases hCaret : cs.head? = some '^'
  · obtain ⟨cs, rfl⟩ := List.head?_eq_some_iff.1 hCaret
    rw [bracketName?_negated] at h
    exact (hEnd h).trans (List.suffix_cons _ _)
  · rw [bracketName?_of_head hCaret] at h
    exact hEnd h

theorem suffix_of_classToken {token : ClassToken} (h : classToken cs = .ok (token, rest)) :
    rest <:+ cs := by
  unfold classToken at h
  split at h
  · cases h
    exact List.suffix_refl _
  · cases h
    exact List.suffix_cons _ _
  · cases h
    exact List.suffix_cons _ _
  · next after =>
    cases h
    exact ⟨['&', '&'], rfl⟩
  · next after =>
    split at h
    · cases h
      exact List.suffix_cons _ _
    · next hName =>
      split at h
      · cases h
        exact (suffix_of_bracketName? hName).trans ⟨['[', ':'], rfl⟩
      · cases h
  · cases h
    exact List.suffix_cons _ _
  · cases h
  iterate 4
    next after =>
      cases h
      exact ⟨['\\', _], rfl⟩
  iterate 2
    next after =>
      obtain ⟨_, hRead, hEq⟩ := exists_of_map_eq_ok h
      cases hEq
      exact (suffix_of_readProperty hRead).trans ⟨['\\', _, '\x7b'], rfl⟩
  · next c after _ _ _ _ _ _ =>
    split at h
    · obtain ⟨_, hRead, hEq⟩ := exists_of_map_eq_ok h
      cases hEq
      exact (suffix_of_octalCharacter hRead).trans (List.suffix_cons _ _)
    · obtain ⟨_, hRead, hEq⟩ := exists_of_map_eq_ok h
      cases hEq
      exact (suffix_of_escapedCharacter hRead).trans ⟨['\\', c], rfl⟩
  · cases h
    exact List.suffix_cons _ _

/-- The items of a class leave the end of what there was. -/
def ItemsLeave (fuel : Nat) : Prop :=
  ∀ ⦃depth negated state token cs k rest⦄,
    readItems depth fuel negated state token cs = .ok (k, rest) → rest <:+ cs

section

variable {depth fuel : Nat} {negated : Bool} {state : ClassState} {k : CharClass}

theorem suffix_of_nextItem (hItems : ItemsLeave fuel) {x : Except PatternError ClassState}
    (h : nextItem depth fuel negated x cs = .ok (k, rest)) : rest <:+ cs := by
  unfold nextItem at h
  split at h
  · cases h
  · cases h
  · next hToken => exact (hItems h).trans (suffix_of_classToken hToken)

theorem suffix_of_afterHyphen (hItems : ItemsLeave fuel) {next : ClassToken}
    (h : afterHyphen depth fuel negated state next cs = .ok (k, rest)) : rest <:+ cs := by
  unfold afterHyphen at h
  cases hLiteral : state.char '-'.toNat with
  | error e =>
    simp only [hLiteral] at h
    split at h <;> first | cases h | exact hItems h
  | ok state' =>
    simp only [hLiteral] at h
    split at h <;> first | cases h | exact hItems h

theorem suffix_of_firstItem (hItems : ItemsLeave fuel)
    (h : firstItem depth fuel negated cs = .ok (k, rest)) : rest <:+ cs := by
  unfold firstItem at h
  split at h
  · cases h
  · next hToken =>
    split at h
    · exact (hItems h).trans (suffix_of_classToken hToken)
    · cases h
  · next hToken => exact (hItems h).trans (suffix_of_classToken hToken)

theorem suffix_of_readClass_succ (hItems : ItemsLeave fuel)
    (h : readClass depth (fuel + 1) cs = .ok (k, rest)) : rest <:+ cs := by
  by_cases hCaret : cs.head? = some '^'
  · obtain ⟨cs, rfl⟩ := List.head?_eq_some_iff.1 hCaret
    rw [readClass_negated] at h
    split at h
    · cases h
    · exact (suffix_of_firstItem hItems h).trans (List.suffix_cons _ _)
  · rw [readClass_of_head hCaret] at h
    split at h
    · cases h
    · exact suffix_of_firstItem hItems h

/-- By strong induction on the number of items, as a nested class takes one for its opening
and one for its first item. -/
theorem itemsLeave (fuel : Nat) : ItemsLeave fuel := by
  induction fuel using Nat.strongRecOn with
  | ind fuel ih =>
    intro depth negated state token cs k rest h
    cases fuel with
    | zero =>
      rw [readItems_zero] at h
      cases h
    | succ fuel =>
      have hItems := ih fuel (Nat.lt_succ_self fuel)
      cases token with
      | char code => exact suffix_of_nextItem hItems (readItems_char code ▸ h)
      | set more => exact suffix_of_nextItem hItems (readItems_set more ▸ h)
      | conjunction => exact suffix_of_nextItem hItems (readItems_conjunction ▸ h)
      | closing =>
        rw [readItems_closing] at h
        cases h
        exact List.suffix_refl _
      | theEnd =>
        rw [readItems_theEnd] at h
        cases h
      -- The items of a nested class come with two items less of fuel.
      | opening =>
        rw [readItems_opening] at h
        split at h
        · cases h
        · next hClass =>
          cases fuel with
          | zero =>
            rw [readClass_zero] at hClass
            cases hClass
          | succ fuel =>
            have hInner := suffix_of_readClass_succ (ih fuel (by omega)) hClass
            exact (suffix_of_nextItem hItems h).trans hInner
      | hyphen =>
        by_cases hRange : ∃ low, state.waiting = .range low
        · obtain ⟨low, hRange⟩ := hRange
          exact suffix_of_nextItem hItems (readItems_hyphen_range hRange ▸ h)
        · rw [readItems_hyphen fun low hLow => hRange ⟨low, hLow⟩] at h
          split at h
          · cases h
          · next hToken =>
              exact (suffix_of_afterHyphen hItems h).trans (suffix_of_classToken hToken)

theorem suffix_of_readClass (h : readClass depth fuel cs = .ok (k, rest)) : rest <:+ cs := by
  cases fuel with
  | zero =>
    rw [readClass_zero] at h
    cases h
  | succ fuel => exact suffix_of_readClass_succ (itemsLeave fuel) h

end

end Highlighter.Pattern
