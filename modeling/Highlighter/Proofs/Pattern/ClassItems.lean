import Highlighter.Pattern.Reader
import Highlighter.Proofs.Pattern.Lookahead

/-! How far ahead classes are read. Each item of a class but the last one has something of the class
after it, so that the class is read the same whatever follows it. Classes nest, and what stands
around one may leave it too deep. -/

namespace Highlighter.Pattern

open Highlighter.Text

variable {s : List Char}

def nameEnd? (negated : Bool) (cs : List Char) : Option (Bool × List Char × List Char) :=
  match cs.drop (cs.takeWhile isAsciiLetter).length with
  | ':' :: ']' :: rest =>
    if (cs.takeWhile isAsciiLetter).length ≤ 20 then
      some (negated, cs.takeWhile isAsciiLetter, rest)
    else none
  | _ => none

theorem bracketName?_negated (cs : List Char) : bracketName? ('^' :: cs) = nameEnd? true cs := rfl

theorem bracketName?_of_head {cs : List Char} (h : cs.head? ≠ some '^') :
    bracketName? cs = nameEnd? false cs := by
  unfold bracketName?
  split
  next negated cs' hEq =>
  split at hEq
  · exact absurd rfl h
  · cases hEq
    rfl

theorem Follows.nameEnd?_append (h : Follows s) (negated : Bool) (cs : List Char) :
    nameEnd? negated (cs ++ s) = (nameEnd? negated cs).map fun x => (x.1, x.2.1, x.2.2 ++ s) := by
  have hLe : (cs.takeWhile isAsciiLetter).length ≤ cs.length :=
    (List.takeWhile_prefix isAsciiLetter).length_le
  unfold nameEnd?
  rw [h.takeWhile_append (by decide), List.drop_append_of_le_length hLe]
  generalize cs.drop (cs.takeWhile isAsciiLetter).length = after
  match after with
  | [] =>
    cases s with
    | nil => rfl
    | cons c s =>
      obtain rfl := h c rfl
      rfl
  | [c] =>
    cases s with
    | nil => simp
    | cons d s =>
      obtain rfl := h d rfl
      simp
  | c :: d :: after =>
    by_cases hEnd : c = ':' ∧ d = ']'
    · obtain ⟨rfl, rfl⟩ := hEnd
      by_cases hShort : (cs.takeWhile isAsciiLetter).length ≤ 20
      · simp [hShort]
      · simp [hShort]
    · dsimp only [List.cons_append]
      split <;> split <;> simp_all

theorem Follows.bracketName?_append (h : Follows s) (cs : List Char) : bracketName? (cs ++ s) =
    (bracketName? cs).map fun x => (x.1, x.2.1, x.2.2 ++ s) := by
  cases cs with
  | nil =>
    cases s with
    | nil => rfl
    | cons c s =>
      obtain rfl := h c rfl
      rfl
  | cons c cs =>
    by_cases hc : c = '^'
    · subst hc
      rw [List.cons_append, bracketName?_negated, bracketName?_negated, h.nameEnd?_append]
    · have hHead : (c :: cs).head? ≠ some '^' := by simpa using hc
      have hHead' : (c :: cs ++ s).head? ≠ some '^' := by simpa using hc
      rw [bracketName?_of_head hHead, bracketName?_of_head hHead', h.nameEnd?_append]

theorem classToken_of_escape {c : Char} (hc : c ∉ ['s', 'S', 'h', 'H']) {cs : List Char}
    (hp : c = 'p' ∨ c = 'P' → cs.head? ≠ some '\x7b') : classToken ('\\' :: c :: cs) =
      if isOctalDigit c then (octalCharacter 3 (c :: cs)).map fun r => (.char r.1, r.2)
      else (escapedCharacter c cs).map fun r => (.char r.1, r.2) := by
  unfold classToken
  split <;> grind

theorem classToken_opening {cs : List Char} (hColon : cs.head? ≠ some ':') :
    classToken ('[' :: cs) = .ok (.opening, cs) := by
  unfold classToken
  split <;> grind

theorem classToken_of_char {c : Char} (hc : c ∉ [']', '-', '[', '\\']) {cs : List Char}
    (hAnd : c = '&' → cs.head? ≠ some '&') :
    classToken (c :: cs) = .ok (.char c.toNat, cs) := by
  unfold classToken
  split <;> simp_all

theorem Follows.bracketToken_append (h : Follows s) {cs rest : List Char} {token : ClassToken}
    (hToken : classToken ('[' :: ':' :: cs) = .ok (token, rest)) :
    classToken ('[' :: ':' :: (cs ++ s)) = .ok (token, rest ++ s) := by
  rw [classToken] at hToken ⊢
  rw [h.bracketName?_append]
  cases hName : bracketName? cs with
  | none =>
    rw [hName] at hToken
    cases hToken
    rfl
  | some x =>
    rw [hName] at hToken
    dsimp only [Option.map_some] at hToken ⊢
    cases hBracket : Property.ofBracket? x.2.1 with
    | none =>
      rw [hBracket] at hToken
      cases hToken
    | some property =>
      rw [hBracket] at hToken
      cases hToken
      rfl

theorem Follows.escapeToken_append (h : Follows s) {c : Char} (hc : c ∉ ['s', 'S', 'h', 'H'])
    {cs rest : List Char} (hp : c = 'p' ∨ c = 'P' → cs.head? ≠ some '\x7b')
    {token : ClassToken} (hToken : classToken ('\\' :: c :: cs) = .ok (token, rest))
    (hRest : rest ≠ []) : classToken ('\\' :: c :: (cs ++ s)) = .ok (token, rest ++ s) := by
  rw [classToken_of_escape hc hp] at hToken
  rw [classToken_of_escape hc (h.head?_append_ne (by decide) hp)]
  split at hToken
  · next hOctal =>
    rw [if_pos hOctal]
    obtain ⟨x, hx, hEq⟩ := exists_of_map_eq_ok hToken
    cases hEq
    rw [← List.cons_append, h.octalCharacter_append hx]
    rfl
  · next hOctal =>
    rw [if_neg hOctal]
    obtain ⟨x, hx, hEq⟩ := exists_of_map_eq_ok hToken
    cases hEq
    -- An escape that lacks its digits would leave nothing of the class.
    have hWhole : ¬ LacksDigits c cs := by
      rintro ⟨rfl, rfl | rfl⟩ <;> cases hx <;> exact hRest rfl
    rw [h.escapedCharacter_append hWhole hx]
    rfl

theorem classToken_property {c : Char} (hc : c = 'p' ∨ c = 'P') (cs : List Char) :
    classToken ('\\' :: c :: '\x7b' :: cs) =
      (readProperty (c = 'P') cs).map fun r => (.set r.1, r.2) := by
  rcases hc with rfl | rfl <;> rfl

theorem propertyToken_append {c : Char} (hc : c = 'p' ∨ c = 'P') {cs rest : List Char}
    {token : ClassToken} (hToken : classToken ('\\' :: c :: '\x7b' :: cs) = .ok (token, rest))
    (s : List Char) : classToken ('\\' :: c :: '\x7b' :: (cs ++ s)) = .ok (token, rest ++ s) := by
  rw [classToken_property hc] at hToken ⊢
  obtain ⟨x, hSet, hEq⟩ := exists_of_map_eq_ok hToken
  cases hEq
  rw [readProperty_append hSet]
  rfl

/-- An item of a class that is not the last one is read the same before a closing parenthesis. -/
theorem Follows.classToken_append (h : Follows s) {cs rest : List Char} {token : ClassToken}
    (hToken : classToken cs = .ok (token, rest)) (hMore : rest ≠ [] ∨ token = .closing) :
    classToken (cs ++ s) = .ok (token, rest ++ s) := by
  have hAll := hToken
  unfold classToken at hToken
  split at hToken
  · cases hToken
    simp at hMore
  · cases hToken; rfl
  · cases hToken; rfl
  · cases hToken; rfl
  · exact h.bracketToken_append hAll
  · next inner hColon =>
    cases hToken
    rw [List.cons_append, classToken_opening]
    rw [List.head?_append_of_ne_nil _ (by simpa using hMore)]
    intro hHead
    obtain ⟨tail, rfl⟩ := List.head?_eq_some_iff.1 hHead
    exact hColon tail rfl
  · cases hToken
  · cases hToken; rfl
  · cases hToken; rfl
  · cases hToken; rfl
  · cases hToken; rfl
  · exact propertyToken_append (.inl rfl) hAll s
  · exact propertyToken_append (.inr rfl) hAll s
  · next c inner hs hS hh hH hp hP =>
    have hLetter : c ∉ ['s', 'S', 'h', 'H'] := by grind
    have hBrace : c = 'p' ∨ c = 'P' → inner.head? ≠ some '\x7b' := by
      intro hc hHead
      obtain ⟨tail, rfl⟩ := List.head?_eq_some_iff.1 hHead
      rcases hc with rfl | rfl
      · exact hp tail rfl rfl
      · exact hP tail rfl rfl
    have hChar : token ≠ .closing := by
      rintro rfl
      split at hToken <;> obtain ⟨_, _, hEq⟩ := exists_of_map_eq_ok hToken <;> cases hEq
    exact h.escapeToken_append hLetter hBrace hAll (hMore.resolve_right hChar)
  · cases hToken
    obtain ⟨d, rest, rfl⟩ := List.exists_cons_of_ne_nil (by simpa using hMore : rest ≠ [])
    refine classToken_of_char (by grind) fun hAnd hHead => ?_
    obtain rfl := Option.some.inj hHead
    grind

/-- A class goes on with the next item. -/
def nextItem (depth fuel : Nat) (negated : Bool) (state : Except PatternError ClassState)
    (rest : List Char) : Reading CharClass :=
  match state, classToken rest with
  | .error e, _ => .error e
  | .ok _, .error e => .error e
  | .ok state, .ok (token, rest) => readItems depth fuel negated state token rest

/-- A hyphen between two items, of which `next` is the second one. -/
def afterHyphen (depth fuel : Nat) (negated : Bool) (state : ClassState) (next : ClassToken)
    (rest : List Char) : Reading CharClass :=
  let literal : Reading CharClass :=
    match state.char '-'.toNat with
    | .error e => .error e
    | .ok s => readItems depth fuel negated s next rest
  match state.waiting, next with
  | .char _, .closing | .char _, .conjunction => literal
  | .set, .closing | .set, .conjunction => literal
  | .char low, _ => readItems depth fuel negated { state with waiting := .range low } next rest
  | .set, _ => .error .unmatchedRange
  | _, _ => literal

variable {depth fuel : Nat} {negated : Bool} {state : ClassState} {rest : List Char}

theorem readItems_zero (token : ClassToken) :
    readItems depth 0 negated state token rest = .error .unclosedClass := rfl

theorem readItems_closing : readItems depth (fuel + 1) negated state .closing rest =
    .ok (⟨state.total, negated⟩, rest) := rfl

theorem readItems_char (code : Nat) : readItems depth (fuel + 1) negated state (.char code) rest =
    nextItem depth fuel negated (state.char code) rest := rfl

theorem readItems_set (more : CharSet) : readItems depth (fuel + 1) negated state (.set more) rest =
    nextItem depth fuel negated (state.set more) rest := rfl

theorem readItems_conjunction : readItems depth (fuel + 1) negated state .conjunction rest =
    nextItem depth fuel negated (.ok state.conjunction) rest := rfl

theorem readItems_opening : readItems depth (fuel + 1) negated state .opening rest =
    match readClass (depth + 1) fuel rest with
    | .error e => .error e
    | .ok (k, rest) => nextItem depth fuel negated (.ok (state.nested k)) rest := rfl

theorem readItems_hyphen_range {low : Nat} (h : state.waiting = .range low) :
    readItems depth (fuel + 1) negated state .hyphen rest =
      nextItem depth fuel negated (state.char '-'.toNat) rest := by
  obtain ⟨earlier, members, waiting⟩ := state
  subst h
  rfl

theorem readItems_hyphen (h : ∀ low, state.waiting ≠ .range low) :
    readItems depth (fuel + 1) negated state .hyphen rest =
      match classToken rest with
      | .error e => .error e
      | .ok (next, rest) => afterHyphen depth fuel negated state next rest := by
  obtain ⟨earlier, members, waiting⟩ := state
  cases waiting with
  | range low => exact absurd rfl (h low)
  | _ => rfl

/-- The first item of a class, where a closing bracket is literal if there is another one. -/
def firstItem (depth fuel : Nat) (negated : Bool) (cs : List Char) : Reading CharClass :=
  match classToken cs with
  | .error e => .error e
  | .ok (.closing, rest) =>
    if rest.contains ']' then readItems depth fuel negated .start (.char ']'.toNat) rest
    else .error .emptyClass
  | .ok (token, rest) => readItems depth fuel negated .start token rest

theorem readClass_zero (cs : List Char) : readClass depth 0 cs = .error .unclosedClass := rfl

theorem readClass_negated (cs : List Char) : readClass depth (fuel + 1) ('^' :: cs) =
    if depth ≥ depthLimit then .error .depthLimit else firstItem depth fuel true cs := rfl

theorem readClass_of_head {cs : List Char} (h : cs.head? ≠ some '^') :
    readClass depth (fuel + 1) cs =
      if depth ≥ depthLimit then .error .depthLimit else firstItem depth fuel false cs := by
  rw [readClass]
  · rfl
  · rintro rest rfl
    exact h rfl

theorem readItems_theEnd :
    readItems depth fuel negated state .theEnd rest = .error .unclosedClass := by
  cases fuel <;> rfl

theorem nextItem_nil_ne_ok {x : Except PatternError ClassState} {r : CharClass × List Char} :
    nextItem depth fuel negated x [] ≠ .ok r := by
  intro h
  cases x with
  | error e => cases h
  | ok state =>
    dsimp only [nextItem, classToken] at h
    rw [readItems_theEnd] at h
    cases h

theorem readClass_nil_ne_ok {r : CharClass × List Char} : readClass depth fuel [] ≠ .ok r := by
  intro h
  cases fuel with
  | zero =>
    rw [readClass_zero] at h
    cases h
  | succ fuel =>
    rw [readClass_of_head (by simp)] at h
    split at h
    · cases h
    · dsimp only [firstItem, classToken] at h
      rw [readItems_theEnd] at h
      cases h

theorem ne_nil_of_readItems {token : ClassToken} {r : CharClass × List Char}
    (h : readItems depth fuel negated state token rest = .ok r) :
    rest ≠ [] ∨ token = .closing := by
  refine Classical.or_iff_not_imp_left.2 fun hNil => ?_
  rw [Decidable.not_not] at hNil
  subst hNil
  cases fuel with
  | zero =>
    rw [readItems_zero] at h
    cases h
  | succ fuel =>
    cases token with
    | char code => exact absurd (readItems_char code ▸ h) nextItem_nil_ne_ok
    | set more => exact absurd (readItems_set more ▸ h) nextItem_nil_ne_ok
    | conjunction => exact absurd (readItems_conjunction ▸ h) nextItem_nil_ne_ok
    | closing => rfl
    | theEnd =>
      rw [readItems_theEnd] at h
      cases h
    | opening =>
      rw [readItems_opening] at h
      split at h
      · cases h
      · next hClass => exact absurd hClass readClass_nil_ne_ok
    | hyphen =>
      by_cases hRange : ∃ low, state.waiting = .range low
      · obtain ⟨low, hRange⟩ := hRange
        exact absurd (readItems_hyphen_range hRange ▸ h) nextItem_nil_ne_ok
      · rw [readItems_hyphen fun low hLow => hRange ⟨low, hLow⟩] at h
        dsimp only [classToken, afterHyphen] at h
        simp only [readItems_theEnd] at h
        repeat' split at h
        all_goals cases h

/-- A result that may be missed where the pattern is nested too deep. -/
def Yields {α : Type} (x : Except PatternError α) (a : α) : Prop :=
  x = .error .depthLimit ∨ x = .ok a

/-- The items of a class are read the same before what follows a part. -/
def ItemsStand (s : List Char) (fuel : Nat) : Prop :=
  ∀ ⦃depth depth' fuel' negated state token rest k rest'⦄, fuel ≤ fuel' →
    readItems depth fuel negated state token rest = .ok (k, rest') →
      Yields (readItems depth' fuel' negated state token (rest ++ s)) (k, rest' ++ s)

section

variable {rest' : List Char} {depth' fuel' : Nat} {k : CharClass}

theorem Follows.nextItem_append (h : Follows s) (hItems : ItemsStand s fuel)
    (hFuel : fuel ≤ fuel') {x : Except PatternError ClassState}
    (hNext : nextItem depth fuel negated x rest = .ok (k, rest')) :
    Yields (nextItem depth' fuel' negated x (rest ++ s)) (k, rest' ++ s) := by
  cases x with
  | error e => cases hNext
  | ok state =>
    unfold nextItem at hNext ⊢
    cases hToken : classToken rest with
    | error e =>
      rw [hToken] at hNext
      cases hNext
    | ok r =>
      rw [hToken] at hNext
      rw [h.classToken_append hToken (ne_nil_of_readItems hNext)]
      exact hItems hFuel hNext

theorem afterHyphen_append (hItems : ItemsStand s fuel) (hFuel : fuel ≤ fuel') {next : ClassToken}
    (hNext : afterHyphen depth fuel negated state next rest = .ok (k, rest')) :
    Yields (afterHyphen depth' fuel' negated state next (rest ++ s)) (k, rest' ++ s) := by
  unfold afterHyphen at hNext ⊢
  cases hLiteral : state.char '-'.toNat with
  | error e =>
    simp only [hLiteral] at hNext ⊢
    split at hNext <;> first | cases hNext | exact hItems hFuel hNext
  | ok state' =>
    simp only [hLiteral] at hNext ⊢
    split at hNext <;> first | cases hNext | exact hItems hFuel hNext

theorem ne_nil_of_afterHyphen {next : ClassToken} {r : CharClass × List Char}
    (hNext : afterHyphen depth fuel negated state next rest = .ok r) :
    rest ≠ [] ∨ next = .closing := by
  unfold afterHyphen at hNext
  cases hLiteral : state.char '-'.toNat with
  | error e =>
    simp only [hLiteral] at hNext
    split at hNext <;> first | cases hNext | exact ne_nil_of_readItems hNext
  | ok state' =>
    simp only [hLiteral] at hNext
    split at hNext <;> first | cases hNext | exact ne_nil_of_readItems hNext

theorem Follows.firstItem_append (h : Follows s) (hItems : ItemsStand s fuel)
    (hFuel : fuel ≤ fuel') {cs : List Char}
    (hFirst : firstItem depth fuel negated cs = .ok (k, rest')) :
    Yields (firstItem depth' fuel' negated (cs ++ s)) (k, rest' ++ s) := by
  unfold firstItem at hFirst ⊢
  split at hFirst
  · cases hFirst
  · next hToken =>
    rw [h.classToken_append hToken (.inr rfl)]
    split at hFirst
    · next hMore =>
      simp only [List.contains_iff_mem, List.mem_append] at hMore ⊢
      rw [if_pos (.inl hMore)]
      exact hItems hFuel hFirst
    · cases hFirst
  · next token rest hNot hToken =>
    rw [h.classToken_append hToken (ne_nil_of_readItems hFirst)]
    split
    · next hEq => cases hEq
    · next hEq =>
      cases hEq
      exact absurd rfl hNot
    · next hEq =>
      cases hEq
      exact hItems hFuel hFirst

theorem Follows.readClass_of_itemsStand (h : Follows s) (hItems : ItemsStand s fuel) (depth' : Nat)
    {cs : List Char} (hFuel : fuel + 1 ≤ fuel')
    (hClass : readClass depth (fuel + 1) cs = .ok (k, rest')) :
    Yields (readClass depth' fuel' (cs ++ s)) (k, rest' ++ s) := by
  obtain ⟨n, rfl⟩ := Nat.exists_eq_add_of_le' (Nat.le_trans (Nat.le_add_left 1 fuel) hFuel)
  by_cases hCaret : cs.head? = some '^'
  · obtain ⟨cs, rfl⟩ := List.head?_eq_some_iff.1 hCaret
    rw [readClass_negated] at hClass
    rw [List.cons_append, readClass_negated]
    split at hClass
    · cases hClass
    · split
      · exact .inl rfl
      · exact h.firstItem_append hItems (Nat.le_of_succ_le_succ hFuel) hClass
  · have hNone : (cs ++ s).head? ≠ some '^' :=
      h.head?_append_ne (by decide) (fun _ => hCaret) trivial
    rw [readClass_of_head hCaret] at hClass
    rw [readClass_of_head hNone]
    split at hClass
    · cases hClass
    · split
      · exact .inl rfl
      · exact h.firstItem_append hItems (Nat.le_of_succ_le_succ hFuel) hClass

/-- By induction on the number of items; nested classes come with fewer. -/
theorem Follows.itemsStand (h : Follows s) (fuel : Nat) : ItemsStand s fuel := by
  induction fuel using Nat.strongRecOn with
  | ind fuel ih =>
    intro depth depth' fuel' negated state token rest k rest' hFuel hItems
    cases fuel with
    | zero =>
      rw [readItems_zero] at hItems
      cases hItems
    | succ fuel =>
      obtain ⟨n, rfl⟩ := Nat.exists_eq_add_of_le' (Nat.le_trans (Nat.le_add_left 1 fuel) hFuel)
      have hLe : fuel ≤ n := Nat.le_of_succ_le_succ hFuel
      have hStand := ih fuel (Nat.lt_succ_self fuel)
      cases token with
      | char code =>
        rw [readItems_char] at hItems ⊢
        exact h.nextItem_append hStand hLe hItems
      | set more =>
        rw [readItems_set] at hItems ⊢
        exact h.nextItem_append hStand hLe hItems
      | conjunction =>
        rw [readItems_conjunction] at hItems ⊢
        exact h.nextItem_append hStand hLe hItems
      | closing =>
        rw [readItems_closing] at hItems ⊢
        cases hItems
        exact .inr rfl
      | theEnd =>
        rw [readItems_theEnd] at hItems
        cases hItems
      -- A nested class takes one item for its opening, so that its own items come with less fuel.
      | opening =>
        rw [readItems_opening] at hItems ⊢
        cases hClass : readClass (depth + 1) fuel rest with
        | error e =>
          rw [hClass] at hItems
          cases hItems
        | ok r =>
          rw [hClass] at hItems
          cases fuel with
          | zero =>
            rw [readClass_zero] at hClass
            cases hClass
          | succ fuel =>
            have hInner := ih fuel (by omega)
            rcases h.readClass_of_itemsStand hInner (depth' + 1) hLe hClass with hDeep | hInner
            · rw [hDeep]
              exact .inl rfl
            · rw [hInner]
              exact h.nextItem_append hStand hLe hItems
      | hyphen =>
        -- Behind the start of a range a hyphen is its sign; anywhere else the next item has
        -- to be looked at first.
        by_cases hRange : ∃ low, state.waiting = .range low
        · obtain ⟨low, hRange⟩ := hRange
          rw [readItems_hyphen_range hRange] at hItems ⊢
          exact h.nextItem_append hStand hLe hItems
        · have hOther : ∀ low, state.waiting ≠ .range low :=
            fun low hLow => hRange ⟨low, hLow⟩
          rw [readItems_hyphen hOther] at hItems ⊢
          cases hToken : classToken rest with
          | error e =>
            rw [hToken] at hItems
            cases hItems
          | ok r =>
            rw [hToken] at hItems
            rw [h.classToken_append hToken (ne_nil_of_afterHyphen hItems)]
            exact afterHyphen_append hStand hLe hItems

theorem Follows.readClass_append (h : Follows s) (depth' : Nat) {cs : List Char}
    (hFuel : fuel ≤ fuel') (hClass : readClass depth fuel cs = .ok (k, rest')) :
    Yields (readClass depth' fuel' (cs ++ s)) (k, rest' ++ s) := by
  cases fuel with
  | zero =>
    rw [readClass_zero] at hClass
    cases hClass
  | succ fuel => exact h.readClass_of_itemsStand (h.itemsStand fuel) depth' hFuel hClass

end

end Highlighter.Pattern
