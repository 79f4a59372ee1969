import Highlighter.Proofs.Pattern.Suffix

/-! Two classes of which one lists more than the other. Reading takes them along together, item by
item, so that in the end the one has the members of the other besides its own. This cannot be said
of intersections, which cut down what has been listed before them. -/

namespace Highlighter.Pattern

open Highlighter.Text

/-- A text without the sign of an intersection. -/
def NoAnd (cs : List Char) : Prop := ¬ ['&', '&'] <:+: cs

theorem NoAnd.suffix {cs rest : List Char} (h : NoAnd cs) (hSuffix : rest <:+ cs) : NoAnd rest :=
  fun hAnd => h (hAnd.trans hSuffix.isInfix)

/-- The signs that stand for themselves. -/
theorem eq_cons_of_classToken {cs rest : List Char} {token : ClassToken}
    (h : classToken cs = .ok (token, rest)) :
    (token = .conjunction → cs = '&' :: '&' :: rest) ∧
      (token = .closing → cs = ']' :: rest) ∧
      (token = .hyphen → cs = '-' :: rest) := by
  unfold classToken at h
  split at h
  case h_5 =>
    split at h
    · cases h
      simp
    · split at h <;> cases h
      simp
  case h_12 | h_13 =>
    obtain ⟨_, -, hEq⟩ := exists_of_map_eq_ok h
    cases hEq
    simp
  case h_14 =>
    split at h <;> obtain ⟨_, -, hEq⟩ := exists_of_map_eq_ok h <;> cases hEq <;> simp
  all_goals cases h <;> simp

theorem NoAnd.ne_conjunction {cs rest : List Char} {token : ClassToken} (h : NoAnd cs)
    (hToken : classToken cs = .ok (token, rest)) : token ≠ .conjunction := by
  rintro rfl
  obtain rfl := (eq_cons_of_classToken hToken).1 rfl
  exact h ⟨[], rest, rfl⟩

/-! ### Wider classes -/

namespace ClassState

theorem has_add (s : ClassState) (more : CharSet) (x : Char) :
    (s.add more).members.has x = (s.members.has x || more.has x) := by
  obtain ⟨earlier, members, waiting⟩ := s
  cases members <;> simp [add, CharSet.has]

@[simp] theorem waiting_add (s : ClassState) (more : CharSet) : (s.add more).waiting = s.waiting :=
  rfl

@[simp] theorem earlier_flush (s : ClassState) : s.flush.earlier = s.earlier := by
  unfold flush
  split <;> rfl

/-- What has been read of a class, and the same with other members besides. -/
structure Widened (more : Char → Bool) (s t : ClassState) : Prop where
  earlier : s.earlier = none
  earlier' : t.earlier = none
  waiting : t.waiting = s.waiting
  has : ∀ x, t.members.has x = (more x || s.members.has x)

variable {more : Char → Bool} {s t s' : ClassState}

theorem Widened.add (h : Widened more s t) (set : CharSet) :
    Widened more (s.add set) (t.add set) where
  earlier := h.earlier
  earlier' := h.earlier'
  waiting := h.waiting
  has x := by rw [has_add, has_add, h.has, Bool.or_assoc]

theorem Widened.wait (h : Widened more s t) (waiting : Waiting) :
    Widened more { s with waiting } { t with waiting } := ⟨h.earlier, h.earlier', rfl, h.has⟩

theorem Widened.flush (h : Widened more s t) : Widened more s.flush t.flush := by
  unfold ClassState.flush
  rw [h.waiting]
  split
  · exact h.add _
  · exact h

theorem Widened.total (h : Widened more s t) (x : Char) :
    t.total.has x = (more x || s.total.has x) := by
  unfold ClassState.total
  rw [h.earlier, h.earlier']
  exact h.flush.has x

theorem char_of_ne (h : ∀ low, s.waiting ≠ .range low) (code : Nat) :
    s.char code = .ok { s.flush with waiting := .char code } := by
  unfold ClassState.char
  split
  · next low hWaiting => exact absurd hWaiting (h low)
  · rfl

theorem Widened.char (h : Widened more s t) {code : Nat} (hChar : s.char code = .ok s') :
    ∃ t', t.char code = .ok t' ∧ Widened more s' t' := by
  unfold ClassState.char at hChar ⊢
  rw [h.waiting]
  split at hChar
  · split at hChar
    · cases hChar
    · next low hWaiting hLe =>
      cases hChar
      rw [if_neg hLe]
      exact ⟨_, rfl, (h.add _).wait .complete⟩
  · cases hChar
    exact ⟨_, rfl, h.flush.wait _⟩

theorem Widened.set (h : Widened more s t) {set : CharSet} (hSet : s.set set = .ok s') :
    ∃ t', t.set set = .ok t' ∧ Widened more s' t' := by
  unfold ClassState.set at hSet ⊢
  rw [h.waiting]
  split at hSet
  · cases hSet
  · cases hSet
    exact ⟨_, rfl, (h.add _).flush.wait _⟩

theorem Widened.nested (h : Widened more s t) (k : CharClass) :
    Widened more (s.nested k) (t.nested k) :=
  (h.flush.add _).wait _

/-- Some members have been read, of which the last one does not start a range yet. -/
structure Ready (more : Char → Bool) (t : ClassState) : Prop where
  earlier : t.earlier = none
  waiting : ∀ low, t.waiting ≠ .range low
  has : ∀ x, t.flush.members.has x = more x

theorem has_flush_add (t : ClassState) (set : CharSet) (x : Char) :
    (t.add set).flush.members.has x = (t.flush.members.has x || set.has x) := by
  unfold ClassState.flush
  rw [waiting_add]
  split
  -- The character that waits becomes a member before the set or after it.
  · simp only [has_add, Bool.or_assoc, Bool.or_comm]
  · exact has_add t set x

theorem waiting_start_ne (low : Nat) : start.waiting ≠ .range low := nofun

theorem Ready.wait (h : t.Ready more) (waiting : Waiting) :
    Widened more { start.flush with waiting } { t.flush with waiting } where
  earlier := rfl
  earlier' := (earlier_flush t).trans h.earlier
  waiting := rfl
  has x := (h.has x).trans (Bool.or_false _).symm

theorem Ready.char (h : t.Ready more) {code : Nat} (hChar : start.char code = .ok s') :
    ∃ t', t.char code = .ok t' ∧ Widened more s' t' := by
  cases hChar
  exact ⟨_, char_of_ne h.waiting code, h.wait _⟩

theorem Ready.set (h : t.Ready more) {set : CharSet} (hSet : start.set set = .ok s') :
    ∃ t', t.set set = .ok t' ∧ Widened more s' t' := by
  cases hSet
  have hTaken : t.set set = .ok { (t.add set).flush with waiting := .set } := by
    unfold ClassState.set
    split
    · next low hWaiting => exact absurd hWaiting (h.waiting low)
    · rfl
  exact ⟨_, hTaken, rfl, (earlier_flush _).trans h.earlier, rfl, fun x =>
    (has_flush_add t set x).trans (congrArg (· || set.has x) (h.has x))⟩

theorem Ready.nested (h : t.Ready more) (k : CharClass) :
    Widened more (start.nested k) (t.nested k) :=
  ⟨rfl, (earlier_flush t).trans h.earlier, rfl, fun x =>
    (has_add t.flush k.toSet x).trans (congrArg (· || k.toSet.has x) (h.has x))⟩

end ClassState

/-- Two classes as they are to be, negated or not, of which one has other members besides. -/
structure CharClass.Widens (negated : Bool) (more : Char → Bool) (k k' : CharClass) : Prop where
  negated_left : k.negated = negated
  negated_right : k'.negated = negated
  has : ∀ x, k'.members.has x = (more x || k.members.has x)

def ItemsWiden (more : Char → Bool) (fuel : Nat) : Prop :=
  ∀ ⦃depth negated s t token cs k rest⦄, ClassState.Widened more s t → NoAnd cs →
    token ≠ .conjunction → readItems depth fuel negated s token cs = .ok (k, rest) →
    ∃ k', readItems depth fuel negated t token cs = .ok (k', rest) ∧ k.Widens negated more k'

section

variable {more : Char → Bool} {depth fuel : Nat} {negated : Bool} {s t : ClassState}
  {k : CharClass} {cs rest : List Char}

theorem ItemsWiden.nextItem (hItems : ItemsWiden more fuel) {x y : Except PatternError ClassState}
    (h : ∀ s, x = .ok s → ∃ t, y = .ok t ∧ s.Widened more t) (hAnd : NoAnd cs)
    (hNext : nextItem depth fuel negated x cs = .ok (k, rest)) :
    ∃ k', nextItem depth fuel negated y cs = .ok (k', rest) ∧ k.Widens negated more k' := by
  cases x with
  | error e => cases hNext
  | ok s =>
    obtain ⟨t, rfl, hWidened⟩ := h s rfl
    unfold Pattern.nextItem at hNext ⊢
    cases hToken : classToken cs with
    | error e =>
      rw [hToken] at hNext
      cases hNext
    | ok r =>
      rw [hToken] at hNext
      exact hItems hWidened (hAnd.suffix (suffix_of_classToken hToken))
        (hAnd.ne_conjunction hToken) hNext

theorem ItemsWiden.opening (hItems : ItemsWiden more fuel)
    (h : ∀ inner, (s.nested inner).Widened more (t.nested inner)) (hAnd : NoAnd cs)
    (hRead : readItems depth (fuel + 1) negated s .opening cs = .ok (k, rest)) :
    ∃ k', readItems depth (fuel + 1) negated t .opening cs = .ok (k', rest) ∧
      k.Widens negated more k' := by
  rw [readItems_opening] at hRead ⊢
  cases hClass : readClass (depth + 1) fuel cs with
  | error e =>
    rw [hClass] at hRead
    cases hRead
  | ok r =>
    rw [hClass] at hRead
    refine hItems.nextItem (fun s' hNested => ⟨_, rfl, ?_⟩)
      (hAnd.suffix (suffix_of_readClass hClass)) hRead
    exact Except.ok.inj hNested ▸ h r.1

theorem ItemsWiden.afterHyphen (hItems : ItemsWiden more fuel) (h : s.Widened more t)
    (hAnd : NoAnd cs) (hOther : ∀ low, s.waiting ≠ .range low) {next : ClassToken}
    (hNext : next ≠ .conjunction)
    (hAfter : afterHyphen depth fuel negated s next cs = .ok (k, rest)) : ∃ k',
    afterHyphen depth fuel negated t next cs = .ok (k', rest) ∧ k.Widens negated more k' := by
  obtain ⟨t', hLiteral', hWidened⟩ := h.char (ClassState.char_of_ne hOther '-'.toNat)
  unfold Pattern.afterHyphen at hAfter ⊢
  simp only [ClassState.char_of_ne hOther, hLiteral', h.waiting] at hAfter ⊢
  split at hAfter
  iterate 4 exact hItems hWidened hAnd hNext hAfter
  · exact hItems (h.wait _) hAnd hNext hAfter
  · cases hAfter
  · exact hItems hWidened hAnd hNext hAfter

/-- By induction on the number of items. Nested classes are the same in both readings. -/
theorem itemsWiden (more : Char → Bool) (fuel : Nat) : ItemsWiden more fuel := by
  induction fuel with
  | zero =>
    intro depth negated s t token cs k rest _ _ _ hRead
    rw [readItems_zero] at hRead
    cases hRead
  | succ fuel ih =>
    intro depth negated s t token cs k rest h hAnd hToken hRead
    cases token with
    | char code =>
      rw [readItems_char] at hRead ⊢
      exact ih.nextItem (fun _ hChar => h.char hChar) hAnd hRead
    | set more =>
      rw [readItems_set] at hRead ⊢
      exact ih.nextItem (fun _ hSet => h.set hSet) hAnd hRead
    | conjunction => exact absurd rfl hToken
    | closing =>
      rw [readItems_closing] at hRead ⊢
      cases hRead
      exact ⟨_, rfl, rfl, rfl, h.total⟩
    | theEnd =>
      rw [readItems_theEnd] at hRead
      cases hRead
    | opening => exact ih.opening h.nested hAnd hRead
    | hyphen =>
      -- A hyphen is the end of a range, or the item behind it tells what it is.
      by_cases hRange : ∃ low, s.waiting = .range low
      · obtain ⟨low, hRange⟩ := hRange
        rw [readItems_hyphen_range hRange] at hRead
        rw [readItems_hyphen_range (h.waiting.trans hRange)]
        exact ih.nextItem (fun _ hChar => h.char hChar) hAnd hRead
      · have hOther : ∀ low, s.waiting ≠ .range low := fun low hLow => hRange ⟨low, hLow⟩
        rw [readItems_hyphen hOther] at hRead
        rw [readItems_hyphen (h.waiting ▸ hOther)]
        cases hNext : classToken cs with
        | error e =>
          rw [hNext] at hRead
          cases hRead
        | ok r =>
          rw [hNext] at hRead
          exact ih.afterHyphen h (hAnd.suffix (suffix_of_classToken hNext)) hOther
            (hAnd.ne_conjunction hNext) hRead

/-! ### The first item -/

/-- A hyphen that starts or ends a class, or stands behind a range, is literal. -/
theorem afterHyphen_literal (h : ∀ low, s.waiting ≠ .range low) {next : ClassToken}
    (hLiteral : s.waiting = .start ∨ s.waiting = .complete ∨ next = .closing) :
    afterHyphen depth fuel negated s next cs =
      readItems depth fuel negated { s.flush with waiting := .char '-'.toNat } next cs := by
  unfold afterHyphen
  simp only [ClassState.char_of_ne h]
  split
  iterate 4 rfl
  · simp_all
  · simp_all
  · rfl

theorem exists_widens_of_hyphen (h : t.Ready more) (hAnd : NoAnd cs)
    (hAlone : t.waiting = .complete ∨ cs = [']'])
    (hRead : readItems depth (fuel + 1) negated .start .hyphen cs = .ok (k, rest)) :
    ∃ k', readItems depth (fuel + 1) negated t .hyphen cs = .ok (k', rest) ∧
      k.Widens negated more k' := by
  rw [readItems_hyphen ClassState.waiting_start_ne] at hRead
  rw [readItems_hyphen h.waiting]
  cases hNext : classToken cs with
  | error e =>
    rw [hNext] at hRead
    cases hRead
  | ok r =>
    rw [hNext] at hRead
    have hLiteral : t.waiting = .complete ∨ r.1 = .closing := by
      refine hAlone.imp_right fun hEq => ?_
      subst hEq
      cases hNext
      rfl
    dsimp only at hRead ⊢
    rw [afterHyphen_literal ClassState.waiting_start_ne (.inl rfl)] at hRead
    rw [afterHyphen_literal h.waiting (.inr hLiteral)]
    exact itemsWiden more fuel (h.wait _) (hAnd.suffix (suffix_of_classToken hNext))
      (hAnd.ne_conjunction hNext) hRead

/-- A class with some items in front of its first one has their members besides, unless the first
one is a hyphen that makes a range with the item before it. -/
theorem exists_widens_of_firstItem (h : t.Ready more) (hHead : cs.head? ≠ some ']')
    (hAnd : NoAnd cs)
    (hHyphen : t.waiting = .complete ∨ cs.head? ≠ some '-' ∨ cs = ['-', ']'])
    (hFirst : firstItem depth (fuel + 1) negated cs = .ok (k, rest)) :
    ∃ k', nextItem depth (fuel + 1) negated (.ok t) cs = .ok (k', rest) ∧
      k.Widens negated more k' := by
  unfold firstItem at hFirst
  unfold nextItem
  cases hToken : classToken cs with
  | error e =>
    rw [hToken] at hFirst
    cases hFirst
  | ok r =>
    obtain ⟨token, after⟩ := r
    have hAfter : NoAnd after := hAnd.suffix (suffix_of_classToken hToken)
    rw [hToken] at hFirst
    cases token with
    | char code => exact (itemsWiden more fuel).nextItem (fun _ hChar => h.char hChar) hAfter hFirst
    | set set => exact (itemsWiden more fuel).nextItem (fun _ hSet => h.set hSet) hAfter hFirst
    | conjunction => exact absurd rfl (hAnd.ne_conjunction hToken)
    | closing =>
      obtain rfl := (eq_cons_of_classToken hToken).2.1 rfl
      exact absurd rfl hHead
    | theEnd => cases hFirst
    | opening => exact (itemsWiden more fuel).opening h.nested hAfter hFirst
    | hyphen =>
      obtain rfl := (eq_cons_of_classToken hToken).2.2 rfl
      refine exists_widens_of_hyphen h hAfter (hHyphen.imp_right fun hAlone => ?_) hFirst
      exact List.tail_eq_of_cons_eq (hAlone.resolve_left (not_not_intro rfl))

end

end Highlighter.Pattern
