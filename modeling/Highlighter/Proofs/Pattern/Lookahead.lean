import Highlighter.Pattern.Compile
import Mathlib.Data.List.Basic

/-! How far ahead the parts of a pattern are read. A part that has been read to its end
is read the same where a closing parenthesis follows, unless it is an escape that its
missing digits have cut short. -/

namespace Highlighter.Pattern

open Highlighter.Text

theorem map_append_of_eq_ok {α : Type} {x : Except PatternError α} {a : α}
    {rest rest' : List Char} (h : x.map (·, rest) = .ok (a, rest')) (s : List Char) :
    x.map (·, rest ++ s) = .ok (a, rest' ++ s) := by
  cases x with
  | error e => cases h
  | ok a =>
    cases h
    rfl

theorem exists_of_map_eq_ok {α β : Type} {x : Except PatternError α} {f : α → β} {b : β}
    (h : x.map f = .ok b) : ∃ a, x = .ok a ∧ f a = b := by
  cases x with
  | error e => cases h
  | ok a => exact ⟨a, rfl, Except.ok.inj h⟩

/-- What follows a part of a pattern that stands in a group: nothing, or a closing parenthesis. -/
def Follows (s : List Char) : Prop := ∀ c ∈ s.head?, c = ')'

theorem follows_nil : Follows [] := nofun

theorem follows_cons (s : List Char) : Follows (')' :: s) := by
  intro c hc
  cases hc
  rfl

variable {s : List Char}

theorem Follows.take (h : Follows s) (n : Nat) : Follows (s.take n) := by
  cases n with
  | zero => exact follows_nil
  | succ n =>
    cases s with
    | nil => exact follows_nil
    | cons c s => exact h

theorem Follows.takeWhile_append (h : Follows s) {p : Char → Bool} (hp : p ')' = false)
    (cs : List Char) : (cs ++ s).takeWhile p = cs.takeWhile p := by
  induction cs with
  | nil =>
    cases s with
    | nil => rfl
    | cons c s =>
      obtain rfl := h c rfl
      simp [hp]
  | cons c cs ih => simp [List.takeWhile_cons, ih]

theorem Follows.head?_append_ne (h : Follows s) {p : Prop} {d : Char} (hd : d ≠ ')')
    {cs : List Char} (hHead : p → cs.head? ≠ some d) : p → (cs ++ s).head? ≠ some d := by
  intro hp
  cases cs with
  | nil =>
    intro hEq
    exact hd (h d hEq)
  | cons c cs => exact hHead hp

theorem Follows.takeDigits_append (h : Follows s) {digit : Char → Bool}
    (hDigit : digit ')' = false) (limit : Nat) (cs : List Char) :
    takeDigits digit limit (cs ++ s) =
      ((takeDigits digit limit cs).1, (takeDigits digit limit cs).2 ++ s) := by
  have hTake : ((cs ++ s).take limit).takeWhile digit = (cs.take limit).takeWhile digit := by
    rw [List.take_append]
    exact (h.take _).takeWhile_append hDigit _
  have hLe : ((cs.take limit).takeWhile digit).length ≤ cs.length :=
    Nat.le_trans (List.takeWhile_prefix digit).length_le (List.length_take_le' limit cs)
  simp only [takeDigits, hTake]
  rw [List.drop_append_of_le_length hLe]

theorem takeDigits_eq_of_length_le {digit : Char → Bool} {limit limit' : Nat} {cs : List Char}
    (h : cs.length ≤ limit) (h' : cs.length ≤ limit') :
    takeDigits digit limit cs = takeDigits digit limit' cs := by
  simp only [takeDigits, List.take_of_length_le h, List.take_of_length_le h']

theorem Follows.takeDigits_length_append (h : Follows s) {digit : Char → Bool}
    (hDigit : digit ')' = false) (cs : List Char) : takeDigits digit (cs ++ s).length (cs ++ s) =
      ((takeDigits digit cs.length cs).1, (takeDigits digit cs.length cs).2 ++ s) := by
  rw [h.takeDigits_append hDigit, takeDigits_eq_of_length_le (Nat.le_refl cs.length)]
  simp

/-! ### Characters by number -/

theorem byteEscape?_cons {x : Char} (hx : x ≠ '\x7b') (cs : List Char) :
    byteEscape? ('\\' :: 'x' :: x :: cs) =
      some (baseValue 16 (takeDigits isHexDigit 2 (x :: cs)).1,
        (takeDigits isHexDigit 2 (x :: cs)).2) := by
  unfold byteEscape?
  split
  · next hEq =>
    cases hEq
    exact absurd rfl hx
  · next hEq => cases hEq
  · next hEq =>
    cases hEq
    rfl
  · next hNone => exact absurd rfl (hNone (x :: cs))

theorem Follows.byteEscape?_append (h : Follows s) {cs rest : List Char} {byte : Nat}
    (hByte : byteEscape? cs = some (byte, rest)) :
    byteEscape? (cs ++ s) = some (byte, rest ++ s) := by
  unfold byteEscape? at hByte
  split at hByte
  · cases hByte
  · cases hByte
  · next rest' hBrace hEnd =>
    cases rest' with
    | nil => exact absurd rfl hEnd
    | cons x rest' =>
      have hx : x ≠ '\x7b' := fun hEq => hBrace rest' (by rw [hEq])
      cases hByte
      rw [List.cons_append, List.cons_append, List.cons_append, byteEscape?_cons hx,
        ← List.cons_append, h.takeDigits_append (by decide)]
      rfl
  · cases hByte

theorem Follows.moreBytes_append (h : Follows s) {n : Nat} {cs rest : List Char} {bytes : List Nat}
    (hBytes : moreBytes n cs = .ok (bytes, rest)) :
    moreBytes n (cs ++ s) = .ok (bytes, rest ++ s) := by
  induction n generalizing cs bytes with
  | zero =>
    cases hBytes
    rfl
  | succ n ih =>
    rw [moreBytes] at hBytes ⊢
    cases hByte : byteEscape? cs with
    | none =>
      rw [hByte] at hBytes
      cases hBytes
    | some x =>
      obtain ⟨byte, rest'⟩ := x
      rw [hByte] at hBytes
      rw [h.byteEscape?_append hByte]
      dsimp only at hBytes ⊢
      cases hMore : moreBytes n rest' with
      | error e =>
        rw [hMore] at hBytes
        cases hBytes
      | ok x =>
        obtain ⟨bytes', rest''⟩ := x
        rw [hMore] at hBytes
        cases hBytes
        rw [ih hMore]

theorem Follows.characterFrom_append (h : Follows s) {byte code : Nat} {cs rest : List Char}
    (hChar : characterFrom byte cs = .ok (code, rest)) :
    characterFrom byte (cs ++ s) = .ok (code, rest ++ s) := by
  unfold characterFrom at hChar ⊢
  cases hMore : moreBytes (leadLength byte - 1) cs with
  | error e =>
    rw [hMore] at hChar
    cases hChar
  | ok x =>
    obtain ⟨bytes, rest'⟩ := x
    rw [hMore] at hChar
    rw [h.moreBytes_append hMore]
    dsimp only at hChar ⊢
    split at hChar
    · cases hChar
      rfl
    · cases hChar

theorem Follows.octalCharacter_append (h : Follows s) {limit code : Nat} {cs rest : List Char}
    (hChar : octalCharacter limit cs = .ok (code, rest)) :
    octalCharacter limit (cs ++ s) = .ok (code, rest ++ s) := by
  unfold octalCharacter at hChar ⊢
  rw [h.takeDigits_append (by decide)]
  dsimp only at hChar ⊢
  split at hChar
  · cases hChar
  · next hFits =>
    rw [if_neg hFits]
    exact h.characterFrom_append hChar

/-- An escape of a character by number without its digits, at the end of a pattern. -/
def LacksDigits (c : Char) (rest : List Char) : Prop := rest = [] ∧ (c = 'x' ∨ c = 'u')

theorem escapedCharacter_of_ne {c : Char} (hx : c ≠ 'x') (hu : c ≠ 'u') (hc : c ≠ 'c')
    (cs : List Char) : escapedCharacter c cs = .ok (((letterEscape? c).getD c).toNat, cs) := by
  unfold escapedCharacter
  split <;> first | rfl | contradiction

theorem escapedCharacter_x {d : Char} (hd : d ≠ '\x7b') (cs : List Char) :
    escapedCharacter 'x' (d :: cs) =
      characterFrom (baseValue 16 (takeDigits isHexDigit 2 (d :: cs)).1)
      (takeDigits isHexDigit 2 (d :: cs)).2 := by
  unfold escapedCharacter
  split <;> first | rfl | simp_all

theorem Follows.bracedCode_append (h : Follows s) {inner rest : List Char} {code : Nat}
    (hChar : escapedCharacter 'x' ('\x7b' :: inner) = .ok (code, rest)) :
    escapedCharacter 'x' ('\x7b' :: (inner ++ s)) = .ok (code, rest ++ s) := by
  simp only [escapedCharacter] at hChar ⊢
  rw [h.takeDigits_append (by decide)]
  dsimp only
  cases hAfter : (takeDigits isHexDigit 8 inner).2 with
  | nil =>
    rw [hAfter] at hChar
    cases hChar
    rw [List.nil_append]
    cases s with
    | nil => simp
    | cons d s =>
      obtain rfl := h d rfl
      rfl
  | cons d after =>
    rw [hAfter] at hChar
    dsimp only [List.cons_append] at hChar ⊢
    split at hChar
    · cases hChar
    · next hDigit =>
      rw [if_neg hDigit]
      split at hChar
      · next hBrace =>
        rw [if_pos hBrace]
        exact map_append_of_eq_ok hChar s
      · next hBrace =>
        rw [if_neg hBrace]
        cases hChar
        rfl

theorem Follows.escapedCharacter_append (h : Follows s) {c : Char} {code : Nat}
    {cs rest : List Char} (hWhole : ¬ LacksDigits c cs)
    (hChar : escapedCharacter c cs = .ok (code, rest)) :
    escapedCharacter c (cs ++ s) = .ok (code, rest ++ s) := by
  cases cs with
  | nil =>
    have hx : c ≠ 'x' := fun hEq => hWhole ⟨rfl, .inl hEq⟩
    have hu : c ≠ 'u' := fun hEq => hWhole ⟨rfl, .inr hEq⟩
    have hc : c ≠ 'c' := by
      rintro rfl
      cases hChar
    rw [escapedCharacter_of_ne hx hu hc] at hChar ⊢
    cases hChar
    rfl
  | cons d cs =>
    rw [List.cons_append]
    by_cases hx : c = 'x'
    · subst hx
      by_cases hBrace : d = '\x7b'
      · subst hBrace
        exact h.bracedCode_append hChar
      · rw [escapedCharacter_x hBrace] at hChar ⊢
        rw [← List.cons_append, h.takeDigits_append (by decide)]
        exact h.characterFrom_append hChar
    · by_cases hu : c = 'u'
      · subst hu
        simp only [escapedCharacter] at hChar ⊢
        rw [← List.cons_append, h.takeDigits_append (by decide)]
        dsimp only
        split at hChar
        · cases hChar
        · next hFour =>
          rw [if_neg hFour]
          exact map_append_of_eq_ok hChar s
      · by_cases hc : c = 'c'
        · subst hc
          cases hChar
          rfl
        · rw [escapedCharacter_of_ne hx hu hc] at hChar ⊢
          cases hChar
          rfl

/-! ### Properties -/

theorem propertyName_go_append {name cs found rest : List Char}
    (h : propertyName.go name cs = .ok (found, rest)) (s : List Char) :
    propertyName.go name (cs ++ s) = .ok (found, rest ++ s) := by
  induction cs generalizing name with
  | nil => cases h
  | cons c cs ih =>
    rw [List.cons_append]
    unfold propertyName.go at h ⊢
    split at h
    · next hEnd =>
      rw [if_pos hEnd]
      cases h
      rfl
    · next hEnd =>
      rw [if_neg hEnd]
      split at h
      · cases h
      · next hName =>
        rw [if_neg hName]
        exact ih h

/-- Reads `name}` of a property or, if `negated`, of its complement. -/
def namedSet (negated : Bool) (cs : List Char) : Reading CharSet :=
  match propertyName cs with
  | .error e => .error e
  | .ok (name, rest) =>
    match Property.ofName? name with
    | some p => .ok (propertySet p negated, rest)
    | none => .error (.unknownProperty (String.ofList name))

theorem readProperty_negated (negated : Bool) (cs : List Char) :
    readProperty negated ('^' :: cs) = namedSet (!negated) cs := rfl

theorem readProperty_of_ne {c : Char} (hc : c ≠ '^') (negated : Bool) (cs : List Char) :
    readProperty negated (c :: cs) = namedSet negated (c :: cs) := by
  unfold readProperty
  split
  next negated' cs' hEq =>
  split at hEq
  · next hHead =>
    cases hHead
    exact absurd rfl hc
  · cases hEq
    rfl

theorem namedSet_append {negated : Bool} {cs rest : List Char} {set : CharSet}
    (h : namedSet negated cs = .ok (set, rest)) (s : List Char) :
    namedSet negated (cs ++ s) = .ok (set, rest ++ s) := by
  unfold namedSet at h ⊢
  cases hName : propertyName cs with
  | error e =>
    rw [hName] at h
    cases h
  | ok x =>
    obtain ⟨name, rest'⟩ := x
    have hMore : propertyName (cs ++ s) = .ok (name, rest' ++ s) := propertyName_go_append hName s
    rw [hName] at h
    rw [hMore]
    dsimp only at h ⊢
    split at h
    · cases h
      rfl
    · cases h

theorem readProperty_append {negated : Bool} {cs rest : List Char} {set : CharSet}
    (h : readProperty negated cs = .ok (set, rest)) (s : List Char) :
    readProperty negated (cs ++ s) = .ok (set, rest ++ s) := by
  cases cs with
  | nil => cases h
  | cons c cs =>
    by_cases hc : c = '^'
    · subst hc
      rw [List.cons_append, readProperty_negated] at *
      exact namedSet_append h s
    · rw [List.cons_append, readProperty_of_ne hc] at *
      exact namedSet_append h s

end Highlighter.Pattern
