import Highlighter.Proofs.Scan.Loops
import Highlighter.Proofs.Scan.Settled

/-! What a scan comes to, apart from how long that takes. `Scan.Gives` runs a scan on as if each
terminator were the first one, which no patience is too small for; where no scan runs away, that is
what a tokenizer answers. One scan leads to another if both give the same. -/

namespace Highlighter

open Text

namespace TerminatorSet

variable {set : TerminatorSet} {c : Cursor}

/-- Where nothing matches right at a place, the search goes on one character later. -/
theorem find?_advance (hNone : matchAt? c set = none) (hEnd : c.atEnd = false) :
    set.find? c = set.find? c.advance := by
  obtain ⟨before, _ | ⟨x, after⟩, offset, hOffset⟩ := c
  · cases hEnd
  · rw [find?, search.eq_def]
    dsimp only
    rw [hNone]
    rfl

theorem find?_atEnd (hNone : matchAt? c set = none) (hEnd : c.atEnd = true) :
    set.find? c = none := by
  obtain ⟨before, _ | ⟨x, after⟩, offset, hOffset⟩ := c
  · rw [find?, search.eq_def]
    dsimp only
    rw [hNone]
  · cases hEnd

end TerminatorSet

namespace Scan

variable {m : Machine} {s s' s'' : Scan} {set : TerminatorSet} {found : Span}
variable {answer : Except TokenizeError Tokens}

/-- A scan ends with an answer if its patience is never tried. -/
inductive Gives (m : Machine) : Scan → Except TokenizeError Tokens → Prop
  | ends {s final : Scan} (h : s.step m 0 = .ends final) : Gives m s (.ok (final.finish m))
  | fails {s : Scan} {e : TokenizeError} (h : s.step m 0 = .fails e) : Gives m s (.error e)
  | goesOn {s s' : Scan} {answer : Except TokenizeError Tokens} (h : s.step m 0 = .goesOn s')
    (hRest : Gives m s' answer) : Gives m s answer

/-- What a scan gives is what a later one gives. -/
def LeadsTo (m : Machine) (s s' : Scan) : Prop := ∀ answer, Gives m s answer ↔ Gives m s' answer

theorem LeadsTo.refl (s : Scan) : LeadsTo m s s := fun _ => Iff.rfl

theorem LeadsTo.trans (h : LeadsTo m s s') (h' : LeadsTo m s' s'') : LeadsTo m s s'' :=
  fun answer => (h answer).trans (h' answer)

theorem leadsTo_of_step (hStep : s.step m 0 = .goesOn s') : LeadsTo m s s' := by
  refine fun answer => ⟨fun h => ?_, .goesOn hStep⟩
  cases h with
  | ends h | fails h =>
    rw [hStep] at h
    cases h
  | goesOn h hRest =>
    rw [hStep] at h
    cases h
    exact hRest

theorem Gives.unique {answer' : Except TokenizeError Tokens} (h : Gives m s answer)
    (h' : Gives m s answer') : answer = answer' := by
  induction h with
  | ends hEnds =>
    cases h' with
    | ends hStep =>
      rw [hEnds] at hStep
      cases hStep
      rfl
    | fails hStep | goesOn hStep _ =>
      rw [hEnds] at hStep
      cases hStep
  | fails hFails =>
    cases h' with
    | fails hStep =>
      rw [hFails] at hStep
      cases hStep
      rfl
    | ends hStep | goesOn hStep _ =>
      rw [hFails] at hStep
      cases hStep
  | goesOn hGoesOn _ ih => exact ih ((leadsTo_of_step hGoesOn _).1 h')

/-- The first terminator is never one too many. -/
theorem take_zero (m : Machine) (found : Match) (s : Scan) : s.take m 0 found =
    match found.terminator with
    | .opening id => .goesOn { openMode m id found.span { s with lastOpening := none } with
        lastOpening := some found.span.start.offset }
    | .illegal => .fails (.illegal found.span.start.offset found.span.text)
    | .closing => { s with lastOpening := none }.close m found.span s.lastOpening := by
  rw [take]
  exact if_neg fun hMany => Nat.not_lt_zero patience hMany.1

theorem step_eq_or_runaway (m : Machine) (count : Nat) (s : Scan) :
    s.step m count = s.step m 0 ∨ ∃ p, s.step m count = .fails (.runaway p) := by
  unfold step
  cases m.setOf (s.top.mode, s.top.closing) with
  | error e => exact .inl rfl
  | ok set =>
    dsimp only
    cases set.find? s.place with
    | none => exact .inl rfl
    | some found =>
      dsimp only
      rw [take_zero]
      by_cases hMany : count > patience ∧ count > found.span.start.offset * 3
      · exact .inr ⟨found.span.start.offset, if_pos hMany⟩
      · exact .inl (if_neg hMany)

/-- A scan that does not run away gives what its loop is left with. -/
theorem gives_of_loops {st : Nat × Scan} {n : Nat} (h : Loops (turn m) st n answer)
    (hPatient : ∀ p, answer ≠ .error (.runaway p)) : Gives m st.2 answer := by
  induction h with
  | @leave st answer hTurn =>
    obtain ⟨count, s⟩ := st
    rcases s.step_eq_or_runaway m count with hStep | ⟨p, hRunaway⟩
    · cases answer with
      | ok tokens =>
        obtain ⟨final, hEnds, rfl⟩ := turn_eq_ok hTurn
        exact .ends (hStep ▸ hEnds)
      | error e => exact .fails (hStep ▸ turn_eq_error hTurn)
    · have hAnswer : turn m (count, s) = .inr (.error (.runaway p)) := by simp [turn, hRunaway]
      rw [hAnswer] at hTurn
      exact absurd (Sum.inr.inj hTurn).symm (hPatient p)
  | @again st next n answer hTurn _ ih =>
    obtain ⟨count, s⟩ := st
    obtain ⟨-, hGoesOn⟩ := turn_eq_inl hTurn
    rcases s.step_eq_or_runaway m count with hStep | ⟨p, hRunaway⟩
    · exact .goesOn (hStep ▸ hGoesOn) (ih hPatient)
    · rw [hRunaway] at hGoesOn
      cases hGoesOn

/-! ### Single steps -/

section Steps

variable (hSet : m.setOf (s.top.mode, s.top.closing) = .ok set)
include hSet

theorem step_of_setOf (count : Nat) : s.step m count =
    match set.find? s.place with
    | none => .ends s
    | some found => s.take m count found := by
  cases hFound : set.find? s.place with
  | none => simp only [step, hSet, hFound]
  | some found => simp only [step, hSet, hFound]

theorem leadsTo_openMode {id : Nat} (hFound : set.find? s.place = some ⟨.opening id, found⟩) :
    LeadsTo m s { openMode m id found { s with lastOpening := none } with
      lastOpening := some found.start.offset } := by
  refine leadsTo_of_step ?_
  rw [step_of_setOf hSet, hFound]
  exact take_zero m _ s

theorem leadsTo_closeModes {closed kept : List Frame}
    (hFound : set.find? s.place = some ⟨.closing, found⟩)
    (hMoved : ¬ (s.lastOpening = some found.start.offset ∧ found.isEmpty))
    (hParts : m.partAt? found.start s.frames = some (closed, kept)) :
    LeadsTo m s (closeModes m closed kept found { s with lastOpening := none }) := by
  refine leadsTo_of_step ?_
  rw [step_of_setOf hSet, hFound]
  dsimp only
  rw [take_zero]
  dsimp only
  rw [close, if_neg hMoved]
  dsimp only
  rw [hParts]

theorem gives_illegal (hFound : set.find? s.place = some ⟨.illegal, found⟩) :
    Gives m s (.error (.illegal found.start.offset found.text)) := by
  refine .fails ?_
  rw [step_of_setOf hSet, hFound]
  exact take_zero m _ s

theorem gives_finish (hNone : set.find? s.place = none) : Gives m s (.ok (s.finish m)) := by
  refine .ends ?_
  rw [step_of_setOf hSet, hNone]

end Steps

/-! ### Places -/

theorem flush_place (m : Machine) (id : Nat) (stop place : Cursor) (s : Scan) :
    { s with place }.flush m id stop = { s.flush m id stop with place } := by
  unfold flush
  split <;> rfl

theorem openMode_place (m : Machine) (id : Nat) (found : Span) (place : Cursor) (s : Scan) :
    { s with place }.openMode m id found = s.openMode m id found := by
  simp only [openMode, flush_place]
  rfl

theorem closeModes_place (m : Machine) (closed kept : List Frame) (found : Span)
    (place : Cursor) (s : Scan) :
    { s with place }.closeModes m closed kept found = s.closeModes m closed kept found := by
  simp only [closeModes, flush_place]
  rfl

theorem finish_place (m : Machine) (place : Cursor) (s : Scan) :
    { s with place }.finish m = s.finish m := by
  simp only [finish, flush_place]
  rfl

/-- An outcome where a scan that ends is back at a place. -/
def backAt (place : Cursor) : Outcome → Outcome
  | .ends s => .ends { s with place }
  | o => o

theorem pass_place (found : Span) (place : Cursor) (s : Scan) :
    s.pass found = backAt s.place ({ s with place }.pass found) := by
  unfold pass
  split
  · rfl
  · split <;> rfl

theorem take_place (m : Machine) (found : Match) (place : Cursor) (s : Scan) :
    s.take m 0 found = backAt s.place ({ s with place }.take m 0 found) := by
  let forgotten : Scan := { s with lastOpening := none }
  rw [take_zero, take_zero]
  cases found.terminator with
  | opening id =>
    have hOpened := openMode_place m id found.span place forgotten
    exact congrArg (fun opened : Scan =>
      Outcome.goesOn { opened with lastOpening := some found.span.start.offset }) hOpened.symm
  | illegal => rfl
  | closing =>
    dsimp only [close]
    split
    · exact pass_place found.span place forgotten
    · split
      · next closed kept _ =>
        exact congrArg Outcome.goesOn
          (closeModes_place m closed kept found.span place forgotten).symm
      · exact pass_place found.span place forgotten

theorem gives_of_find?_eq (hSet : m.setOf (s.top.mode, s.top.closing) = .ok set) {place : Cursor}
    (hFind : set.find? s.place = set.find? place) (h : Gives m { s with place } answer) :
    Gives m s answer := by
  have hStep : s.step m 0 = backAt s.place ({ s with place }.step m 0) := by
    have hSet' : m.setOf ({ s with place }.top.mode, { s with place }.top.closing) = .ok set := hSet
    rw [step_of_setOf hSet, step_of_setOf hSet', hFind]
    cases set.find? place with
    | none => rfl
    | some found => exact take_place m found place s
  cases h with
  | ends hEnds =>
    rw [hEnds] at hStep
    have hGives := Gives.ends hStep
    rwa [finish_place] at hGives
  | fails hFails =>
    rw [hFails] at hStep
    exact .fails hStep
  | goesOn hGoesOn hRest =>
    rw [hGoesOn] at hStep
    exact .goesOn hStep hRest

/-- A scan may as well search from a place where it comes upon the same. -/
theorem leadsTo_of_find?_eq (hSet : m.setOf (s.top.mode, s.top.closing) = .ok set) {place : Cursor}
    (hFind : set.find? s.place = set.find? place) : LeadsTo m s { s with place } :=
  fun _ =>
    ⟨gives_of_find?_eq (s := { s with place }) hSet hFind.symm, gives_of_find?_eq hSet hFind⟩

theorem Settled.head?_of_gives {text : List Char} {region : Region} {tokens : Tokens}
    (h : s.Settled text 0 region) (hNonempty : region.start < region.stop)
    (hGives : Gives m s (.ok tokens)) : tokens.regions.head? = some region := by
  generalize hAnswer : Except.ok tokens = answer at hGives
  induction hGives with
  | @ends s final hEnds =>
    have hFinal := h.step (m := m) 0
    rw [hEnds] at hFinal
    cases hAnswer
    exact Settled.head?_finish hFinal hNonempty
  | fails _ => cases hAnswer
  | goesOn hGoesOn _ ih =>
    have hNext := h.step (m := m) 0
    rw [hGoesOn] at hNext
    exact ih hNext hAnswer

end Scan

namespace Tokenizer

variable {m : Machine}

theorem tokenize_of_gives {text : String} {answer : Except TokenizeError Tokens}
    (h : Scan.Gives m (.start text.toList) answer) (t : Tokenizer m)
    (hPatient : ∀ p, (t.tokenize text).1 ≠ .error (.runaway p)) :
    (t.tokenize text).1 = answer := by
  obtain ⟨n, -, hLoops, -⟩ := t.exists_loops_tokenize text
  exact (Scan.gives_of_loops hLoops hPatient).unique h

theorem gives_of_tokenize_eq_ok {text : String} {t : Tokenizer m} {tokens : Tokens}
    (h : (t.tokenize text).1 = .ok tokens) : Scan.Gives m (.start text.toList) (.ok tokens) := by
  obtain ⟨n, -, hLoops, -⟩ := t.exists_loops_tokenize text
  rw [h] at hLoops
  exact Scan.gives_of_loops hLoops nofun

end Tokenizer

end Highlighter
