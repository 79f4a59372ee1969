import Highlighter.Proofs.Scan.Found

/-! What goes wrong with a pattern only where all of its groups capture. Reading such a pattern
goes well if it does where unnamed groups may be passed over, so all that is left is a look-behind
that cannot be made ready. -/

namespace Highlighter.Pattern

namespace Tree

variable {group : Nat → Width} {e : PatternError}

theorem oneBehind_eq_error {used negated : Bool} {t : Tree}
    (h : oneBehind group used negated t = .error e) : e = .variableLookBehind := by
  unfold oneBehind at h
  dsimp only at h
  split at h
  · cases h
    rfl
  · split at h
    · cases h
    · split at h
      · cases h
      · cases h
        rfl

theorem map_eq_error {α β : Type} {f : α → β} {x : Except PatternError α}
    (h : x.map f = .error e) : x = .error e := by
  cases x with
  | error e' =>
    cases h
    rfl
  | ok a => cases h

theorem arrangeBehind_eq_error {used negated : Bool} {body : Tree}
    (h : arrangeBehind group used negated body = .error e) : e = .variableLookBehind := by
  unfold arrangeBehind at h
  dsimp only at h
  split at h
  · exact oneBehind_eq_error h
  · split at h
    · cases h
      rfl
    · split at h
      · cases h
      · split at h
        · cases h
        · obtain ⟨t, -, hFails⟩ := exists_of_mapM_eq_error (map_eq_error h)
          exact oneBehind_eq_error hFails

mutual

theorem arrange_eq_error {referenced : List Nat} {t : Tree}
    (h : t.arrange group referenced = .error e) : e = .variableLookBehind := by
  cases t with
  | literal chars fold => cases h
  | test t => cases h
  | anchor a => cases h
  | backreference groups byName fold => cases h
  | capture index named body => exact arrange_eq_error (t := body) (map_eq_error h)
  | atomic body => exact arrange_eq_error (t := body) (map_eq_error h)
  | scope body => exact arrange_eq_error (t := body) (map_eq_error h)
  | look behind negated body =>
    cases behind with
    | false => exact arrange_eq_error (t := body) (map_eq_error h)
    | true =>
      rw [arrange] at h
      split at h
      · cases h
        rfl
      · cases hBody : body.arrange group referenced with
        | error e' =>
          rw [hBody] at h
          cases h
          exact arrange_eq_error (t := body) hBody
        | ok body' =>
          rw [hBody] at h
          exact arrangeBehind_eq_error h
  | repeated q body => exact arrange_eq_error (t := body) (map_eq_error h)
  | sequence ts => exact arrangeAll_eq_error ts (map_eq_error h)
  | alternatives ts => exact arrangeAll_eq_error ts (map_eq_error h)

theorem arrangeAll_eq_error {referenced : List Nat} (ts : List Tree)
    (h : arrangeAll group referenced ts = .error e) : e = .variableLookBehind := by
  cases ts with
  | nil => cases h
  | cons t ts =>
    rw [arrangeAll] at h
    cases hHead : t.arrange group referenced with
    | error e' =>
      rw [hHead] at h
      cases h
      exact arrange_eq_error (t := t) hHead
    | ok t' =>
      rw [hHead] at h
      cases hTail : arrangeAll group referenced ts with
      | error e' =>
        rw [hTail] at h
        cases h
        exact arrangeAll_eq_error ts hTail
      | ok ts' =>
        rw [hTail] at h
        cases h

end

end Tree

/-- A pattern that can be read can also be read with all of its groups capturing. -/
theorem exists_readTree_of_eq_ok {ignoreCase : Bool} {pattern : List Char} {tree : Tree}
    (h : readTree ⟨ignoreCase, false⟩ pattern = .ok tree) :
    ∃ tree', readTree ⟨ignoreCase, true⟩ pattern = .ok tree' := by
  unfold readTree at h ⊢
  cases hRun : (Reader.start ⟨ignoreCase, false, false⟩).run pattern.length pattern with
  | error e =>
    rw [hRun] at h
    cases h
  | ok reader =>
    rw [hRun] at h
    cases hFinish : reader.finish with
    | error e =>
      simp only [bind, Except.bind, hFinish] at h
      cases h
    | ok read =>
      simp only [bind, Except.bind, hFinish, Bool.not_true, Bool.and_false, Bool.false_and,
        Bool.false_eq_true, if_false] at h ⊢
      -- References by number are checked in the same way in both cases.
      split at h
      · cases h
      · split
        · next hUnknown =>
          simp only [hUnknown, if_true] at h
          cases h
        · exact ⟨_, rfl⟩

/-- Where all groups capture, a pattern can only come to a look-behind that is not ready. -/
theorem compile_captureAll_eq_error {ignoreCase : Bool} {pattern : List Char} {program : Program}
    {e : PatternError} (hOk : compile ⟨ignoreCase, false⟩ pattern = .ok program)
    (hError : compile ⟨ignoreCase, true⟩ pattern = .error e) : e = .variableLookBehind := by
  unfold compile at hOk hError
  cases hTree : readTree ⟨ignoreCase, false⟩ pattern with
  | error e' =>
    rw [hTree] at hOk
    cases hOk
  | ok tree =>
    obtain ⟨tree', hTree'⟩ := exists_readTree_of_eq_ok hTree
    rw [hTree'] at hError
    simp only [bind, Except.bind] at hError
    split at hError
    · next hArrange =>
      cases hError
      exact Tree.arrange_eq_error hArrange
    · cases hError

end Highlighter.Pattern
