import Highlighter.Proofs.Pattern.ClassUnion
import Highlighter.Proofs.Pattern.Joining
import Highlighter.Proofs.Pattern.Runs
import Highlighter.Proofs.Pattern.Spelling
import Mathlib

/-! Classes that list all word characters or all digits. These are spelled out in front of what else
the class lists, and then read together with it. -/

namespace Highlighter.Pattern

open Highlighter.Text

/-! ### Intersections -/

section

variable {depth : Nat} {atStart : Bool} {cs : List Char}

theorem noAnd_cons_iff {c : Char} :
    NoAnd (c :: cs) ↔ ¬ (c = '&' ∧ cs.head? = some '&') ∧ NoAnd cs := by
  have hPrefix : ['&', '&'] <+: c :: cs ↔ c = '&' ∧ cs.head? = some '&' := by
    cases cs <;> simp [List.cons_prefix_cons, eq_comm]
  rw [NoAnd, List.infix_cons_iff, not_or, hPrefix]
  rfl

theorem NoAnd.append {ds : List Char} (h : NoAnd cs) (hds : '&' ∉ ds) : NoAnd (ds ++ cs) := by
  induction ds with
  | nil => exact h
  | cons d ds ih =>
    obtain ⟨hHere, hRest⟩ := List.ne_and_not_mem_of_not_mem_cons hds
    exact noAnd_cons_iff.2 ⟨fun hAnd => hHere hAnd.1.symm, ih hRest⟩

theorem NoAnd.cons_spellOut {c : Char} (h : NoAnd (c :: cs))
    (hSpelled : NoAnd (spellOut depth atStart cs)) : NoAnd (c :: spellOut depth atStart cs) :=
  noAnd_cons_iff.2 ⟨fun hAnd =>
    (noAnd_cons_iff.1 h).1 ⟨hAnd.1, head?_of_spellOut hAnd.2 (by decide)⟩, hSpelled⟩

theorem NoAnd.concat (h : NoAnd cs) : NoAnd (cs ++ [']']) := by
  rw [NoAnd, List.infix_concat_iff, not_or]
  refine ⟨fun hSuffix => ?_, h⟩
  obtain ⟨front, hEq⟩ := hSuffix
  have hLast := congrArg List.getLast? hEq
  simp at hLast

theorem NoAnd.spellOut (h : NoAnd cs) (depth : Nat) (atStart : Bool) :
    NoAnd (spellOut depth atStart cs) := by
  fun_induction Pattern.spellOut depth atStart cs with
  | case1 | case2 => exact h
  | case3 depth atStart c cs ih =>
    have hCons : NoAnd (c :: cs) := (noAnd_cons_iff.1 h).2
    have hSpelled := ih (noAnd_cons_iff.1 hCons).2
    -- An escaped sign may have another one behind it; what other escapes come to has none.
    rcases spellEscape_eq (decide (depth > 0)) c with hEq | hNone
    · rw [hEq]
      exact (hCons.cons_spellOut hSpelled).append (by decide : '&' ∉ ['\\'])
    · exact hSpelled.append hNone
  | case4 depth atStart cs ih =>
    have hSpelled := ih (noAnd_cons_iff.1 (noAnd_cons_iff.1 h).2).2
    exact hSpelled.append (by decide : '&' ∉ ['[', '^'])
  | case5 depth atStart cs _ ih | case6 depth atStart cs _ ih | case7 depth atStart cs _ ih
  | case8 depth atStart c cs _ _ _ _ _ ih => exact h.cons_spellOut (ih (noAnd_cons_iff.1 h).2)

end

instance (cs : List Char) : Decidable (NoAnd cs) := inferInstanceAs (Decidable (¬ _))

/-! ### Single classes -/

/-- The class that a text in brackets is, if it is one class of a pattern: once it is spelled out,
its first bracket opens a class that its last bracket closes. -/
def bracketClass? (body : List Char) : Option CharClass :=
  match spellOut 0 false (bracket body) with
  | '[' :: cs =>
    match readClass 1 (cs.length + 2) cs with
    | .ok (k, []) => some k
    | _ => none
  | _ => none

theorem bracketClass?_eq_some_iff {body : List Char} {k : CharClass} :
    bracketClass? body = some k ↔
      ∃ cs, spellOut 0 false (bracket body) = '[' :: cs ∧
        readClass 1 (cs.length + 2) cs = .ok (k, []) := by
  constructor
  · intro h
    unfold bracketClass? at h
    split at h
    · next cs hSpelled =>
      split at h
      · next hClass =>
        cases h
        exact ⟨cs, hSpelled, hClass⟩
      · cases h
    · cases h
  · rintro ⟨cs, hSpelled, hClass⟩
    simp only [bracketClass?, hSpelled, hClass]

theorem compile_of_bracketClass? {body : List Char} {k : CharClass}
    (h : bracketClass? body = some k) (captureAll : Bool) :
    compile ⟨false, captureAll⟩ (spellOut 0 false (bracket body)) =
      .ok (.test (.ofClass k)) := by
  obtain ⟨cs, hSpelled, hClass⟩ := bracketClass?_eq_some_iff.1 h
  have hRun : Reader.run ('[' :: cs).length (.start ⟨false, false, false⟩) ('[' :: cs) =
      .ok ((Reader.start ⟨false, false, false⟩).pushClass k) := by
    have hStep : (Reader.start ⟨false, false, false⟩).step '[' cs =
        .ok ((Reader.start ⟨false, false, false⟩).pushClass k, []) := by
      have hDepth : (Reader.start ⟨false, false, false⟩).depth = 1 := rfl
      rw [Reader.step_bracket, hDepth, hClass]
    rw [List.length_cons, Reader.run, hStep]
    exact Reader.run_nil _ _
  have hTree : readTree ⟨false, captureAll⟩ ('[' :: cs) = .ok (.test (.ofClass k)) :=
    readTree_of_references ⟨false, captureAll⟩ hRun rfl rfl rfl
  rw [hSpelled, compile_of_groups hTree rfl]
  rfl

/-! ### Classes that list all word characters or all digits -/

def ClassState.digits : ClassState := ⟨none, .range 48 57, .complete⟩

/-- The word characters have been read. The last one may start a range. -/
def ClassState.words : ClassState :=
  ⟨none, .union (.union (.range 48 57) (.range 65 90)) (.range 97 122), .char 95⟩

theorem ClassState.ready_digits : digits.Ready isAsciiDigit where
  earlier := rfl
  waiting := nofun
  has x := by
    simp [digits, flush, CharSet.has, isAsciiDigit, Char.le_def, UInt32.le_iff_toNat_le]

theorem ClassState.ready_words : words.Ready isWordChar where
  earlier := rfl
  waiting := nofun
  has x := by
    rw [← has_wordChar]
    exact (Bool.bne_false _).symm

theorem ClassState.widened_words :
    Widened (fun x => isAsciiLetter x || isAsciiDigit x) ⟨none, .empty, .char 95⟩ words where
  earlier := rfl
  earlier' := rfl
  waiting := rfl
  has x := by
    rw [Bool.eq_iff_iff]
    simp only [words, CharSet.has, isAsciiLetter, Char.isAlpha, Char.isUpper, Char.isLower,
      isAsciiDigit, Bool.or_eq_true, Bool.and_eq_true, Bool.or_false, decide_eq_true_eq,
      Char.le_def, UInt32.le_iff_toNat_le, ge_iff_le, Char.reduceVal, UInt32.reduceToNat,
      Char.toNat_val]
    omega

/-- What follows the first item of a class with this body, once it is spelled out. -/
def spelledRest (body : List Char) : List Char := spellOut 1 false (body ++ [']'])

/-- Behind items that have led to `t`, a class is completed by this body. -/
def ClassState.Completes (t : ClassState) (body : List Char) (k : CharClass) : Prop :=
  nextItem 1 ((spelledRest body).length + 1) false (.ok t) (spelledRest body) = .ok (k, [])

section

variable {body : List Char} {k : CharClass}

theorem ClassState.Completes.digits (h : ClassState.digits.Completes body k) :
    bracketClass? ('\\' :: 'd' :: body) = some k := by
  refine bracketClass?_eq_some_iff.2 ⟨'0' :: '-' :: '9' :: spelledRest body, rfl, ?_⟩
  rw [readClass_of_head (by simp), if_neg (by decide)]
  exact h

theorem ClassState.Completes.words (h : ClassState.words.Completes body k) :
    bracketClass? ('\\' :: 'w' :: body) = some k := by
  refine bracketClass?_eq_some_iff.2
    ⟨'0' :: '-' :: '9' :: 'A' :: '-' :: 'Z' :: 'a' :: '-' :: 'z' :: '_' :: spelledRest body, rfl,
      ?_⟩
  rw [readClass_of_head (by simp), if_neg (by decide)]
  exact h

theorem spellOut_bracket (hFilled : body ≠ [])
    (hHead : ∀ c ∈ body.head?, c ≠ '^' ∧ c ≠ ']') :
    spellOut 0 false (bracket body) = '[' :: spelledRest body := by
  obtain ⟨c, rest, rfl⟩ := List.exists_cons_of_ne_nil hFilled
  obtain ⟨hCaret, hClosing⟩ := hHead c rfl
  show spellOut 0 false ('[' :: (c :: rest ++ [']'])) = _
  rw [spellOut, spellOut_atStart (by simpa using hClosing)]
  · rfl
  · rintro after hEq
    cases hEq
    exact hCaret rfl

theorem NoAnd.spelledRest (h : NoAnd body) : NoAnd (spelledRest body) := h.concat.spellOut 1 false

/-- A class that starts with all digits, or with all word characters, has these besides. -/
theorem ClassState.Ready.exists_completes {t : ClassState} {more : Char → Bool}
    (hReady : t.Ready more) (h : bracketClass? body = some k) (hFilled : body ≠ [])
    (hHead : ∀ c ∈ body.head?, c ≠ '^' ∧ c ≠ ']') (hAnd : NoAnd body)
    (hHyphen : t.waiting = .complete ∨ (body.head? = some '-' → body = ['-'])) :
    ∃ k', t.Completes body k' ∧ k.Widens false more k' := by
  obtain ⟨cs, hText, hClass⟩ := bracketClass?_eq_some_iff.1 h
  rw [spellOut_bracket hFilled hHead] at hText
  cases hText
  -- A caret, a bracket or a hyphen in front of the spelled-out text is in front of the body.
  have hFirst : ∀ c ∉ ['[', '\\', '(', '0'], (spelledRest body).head? = some c →
      body.head? = some c := by
    intro c hc hSome
    have hBody := head?_of_spellOut hSome hc
    rwa [List.head?_append_of_ne_nil _ hFilled] at hBody
  have hCaret : (spelledRest body).head? ≠ some '^' := fun hSome =>
    (hHead '^' (hFirst '^' (by decide) hSome)).1 rfl
  have hClosing : (spelledRest body).head? ≠ some ']' := fun hSome =>
    (hHead ']' (hFirst ']' (by decide) hSome)).2 rfl
  rw [readClass_of_head hCaret, if_neg (by decide)] at hClass
  refine exists_widens_of_firstItem hReady hClosing hAnd.spelledRest ?_ hClass
  refine hHyphen.imp_right fun hAlone => Classical.or_iff_not_imp_left.2 fun hSome => ?_
  obtain rfl := hAlone (hFirst '-' (by decide) (not_not.1 hSome))
  rfl

theorem exists_completes_words (h : bracketClass? ('_' :: body) = some k) (hAnd : NoAnd body) :
    ∃ k', ClassState.words.Completes body k' ∧
      k.Widens false (fun x => isAsciiLetter x || isAsciiDigit x) k' := by
  obtain ⟨cs, hText, hClass⟩ := bracketClass?_eq_some_iff.1 h
  rw [spellOut_bracket (List.cons_ne_nil _ _) (by simp)] at hText
  cases hText
  have hSpelled : spelledRest ('_' :: body) = '_' :: spelledRest body := rfl
  rw [hSpelled, readClass_of_head (by simp), if_neg (by decide)] at hClass
  exact (itemsWiden _ _).nextItem (fun s hStart =>
    ⟨_, rfl, Except.ok.inj hStart ▸ ClassState.widened_words⟩) hAnd.spelledRest hClass

end

end Highlighter.Pattern

namespace Highlighter

open Text Pattern

theorem Pattern.CharClass.Widens.has_eq {more : Char → Bool} {k k' : CharClass}
    (h : k.Widens false more k') :
    (CharTest.ofClass k').has = fun x => more x || (CharTest.ofClass k).has x := by
  funext x
  simp only [CharTest.has, h.negated_left, h.negated_right, Bool.bne_false, h.has]

/-- The regular expression compiles, and matches a single character that passes `p` and nothing
else. -/
structure Regex.MatchesOne (r : Regex) (p : Char → Bool) : Prop where
  fault?_eq : r.fault? = none
  matchAt?_eq : ∀ c, r.matchAt? c = (c.next?.filter p).map fun _ => c.advance

def Regex.ofClass (body : List Char) : Regex := ofPattern (String.ofList (bracket body)) false

theorem Regex.matchesOne_of_bracketClass? {body : List Char} {k : CharClass}
    (h : bracketClass? body = some k) :
    (Regex.ofClass body).MatchesOne (CharTest.ofClass k).has := by
  have hProgram : (Regex.ofClass body).program = .ok (.test (.ofClass k)) := by
    rw [← compile_of_bracketClass? h false, (Regex.ofClass body).program_eq, toList_asciiClasses]
    exact congrArg (fun cs => compile ⟨false, false⟩ (spellOut 0 false cs)) String.toList_ofList
  constructor
  · rw [Regex.fault?, hProgram]
  · intro c
    rw [Regex.matchAt?, hProgram]
    show ((Program.test _).run ⟨c, []⟩ some).map _ = _
    rw [Program.run]
    dsimp only
    cases hNext : c.next? with
    | none => rfl
    | some x => cases hHas : (CharTest.ofClass k).has x <;> simp [hHas, Option.filter]

/-- Listing all digits, or all word characters, in front of what else a class lists makes these
match besides. This holds of the word characters unless a hyphen follows them that does not end the
class. In any case, what follows them goes on from their last one, the underscore. -/
theorem Regex.matchesOne_ofClass {body : List Char} (hFilled : body ≠ [])
    (hHead : ∀ c ∈ body.head?, c ≠ '^' ∧ c ≠ ']') (hAnd : NoAnd body)
    (hClass : (bracketClass? body).isSome) :
    ∃ p, (Regex.ofClass body).MatchesOne p ∧
      (Regex.ofClass ('\\' :: 'd' :: body)).MatchesOne (fun x => isAsciiDigit x || p x) ∧
      ((body.head? = some '-' → body = ['-']) →
        (Regex.ofClass ('\\' :: 'w' :: body)).MatchesOne fun x => isWordChar x || p x) ∧
      ((bracketClass? ('_' :: body)).isSome →
          ∃ q, (Regex.ofClass ('_' :: body)).MatchesOne q ∧
        (Regex.ofClass ('\\' :: 'w' :: body)).MatchesOne fun x =>
          isAsciiLetter x || isAsciiDigit x || q x) := by
  obtain ⟨k, hBody⟩ := Option.isSome_iff_exists.1 hClass
  refine ⟨_, matchesOne_of_bracketClass? hBody, ?_, fun hHyphen => ?_, fun hUnderscore => ?_⟩
  · obtain ⟨k', hUnion, hWidens⟩ :=
      ClassState.ready_digits.exists_completes hBody hFilled hHead hAnd (.inl rfl)
    exact hWidens.has_eq ▸ matchesOne_of_bracketClass? hUnion.digits
  · obtain ⟨k', hUnion, hWidens⟩ :=
      ClassState.ready_words.exists_completes hBody hFilled hHead hAnd (.inr hHyphen)
    exact hWidens.has_eq ▸ matchesOne_of_bracketClass? hUnion.words
  · obtain ⟨k, hBody⟩ := Option.isSome_iff_exists.1 hUnderscore
    obtain ⟨k', hUnion, hWidens⟩ := exists_completes_words hBody hAnd
    exact ⟨_, matchesOne_of_bracketClass? hBody,
      hWidens.has_eq ▸ matchesOne_of_bracketClass? hUnion.words⟩

/-- A hyphen stands for itself behind the word characters if it ends the class, and what a class
within this one lists is listed besides. -/
theorem Regex.matchesOne_nested :
    let body := "[b-d\\s]é-".toList
    body ≠ [] ∧ (∀ c ∈ body.head?, c ≠ '^' ∧ c ≠ ']') ∧ NoAnd body ∧
      (bracketClass? body).isSome ∧
      ∃ p, (Regex.ofClass body).MatchesOne p ∧
        (Regex.ofClass ('\\' :: 'd' :: body)).MatchesOne (fun x => isAsciiDigit x || p x) ∧
        (Regex.ofClass ('\\' :: 'w' :: body)).MatchesOne fun x => isWordChar x || p x := by
  have hHead : ∀ c ∈ "[b-d\\s]é-".toList.head?, c ≠ '^' ∧ c ≠ ']' := by
    rintro c ⟨⟩
    decide
  have hAnd : NoAnd "[b-d\\s]é-".toList := by decide +kernel
  have hClass : (bracketClass? "[b-d\\s]é-".toList).isSome := by decide +kernel
  obtain ⟨p, hBody, hDigits, hWords, -⟩ :=
    Regex.matchesOne_ofClass (by decide) hHead hAnd hClass
  exact ⟨by decide, hHead, hAnd, hClass, p, hBody, hDigits, hWords (by decide)⟩

/-- The hyphen that starts `-a` makes a range with the last of the word characters, so that
it is no longer matched. -/
theorem Regex.not_forall_matchesOne_words :
    ¬ ∀ body : List Char, body ≠ [] → (∀ c ∈ body.head?, c ≠ '^' ∧ c ≠ ']') →
      NoAnd body →
      (bracketClass? body).isSome → ∃ p, (Regex.ofClass body).MatchesOne p ∧
        (Regex.ofClass ('\\' :: 'w' :: body)).MatchesOne fun x => isWordChar x || p x := by
  intro hAll
  have hHead : ∀ c ∈ ['-', 'a'].head?, c ≠ '^' ∧ c ≠ ']' := by
    rintro c ⟨⟩
    decide
  obtain ⟨p, hBody, hWords⟩ :=
    hAll ['-', 'a'] nofun hHead (by decide +kernel) (by decide +kernel)
  have hAlone : ((Regex.ofClass ['-', 'a']).matchAt? (.start ['-'])).isSome := by decide +kernel
  have hTogether : ((Regex.ofClass ['\\', 'w', '-', 'a']).matchAt? (.start ['-'])).isNone := by
    decide +kernel
  rw [hBody.matchAt?_eq] at hAlone
  rw [hWords.matchAt?_eq] at hTogether
  cases hHyphen : p '-' <;> simp_all [Cursor.next?, Cursor.start, Option.filter]

end Highlighter
