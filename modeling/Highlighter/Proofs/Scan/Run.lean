import Highlighter.Proofs.Scan.Kept

/-! Runs of a scan. The terminator sets that a tokenizer keeps play no part in them: `Scan.step`
looks each one up afresh, and `Scan.Steps` says all that it may do. `Scan.Reachable` lists the scans
that a text leads to, and each answer of a tokenizer stems from one of them. -/

namespace Highlighter

open Text

def Outcome.Leads (p : Scan → Prop) : Outcome → Prop
  | .goesOn s => p s
  | .ends s => p s
  | .fails _ => True

namespace Scan

/-- One step of a scan, which searches for the `count`th terminator. -/
def step (m : Machine) (count : Nat) (s : Scan) : Outcome :=
  match m.setOf (s.top.mode, s.top.closing) with
  | .error e => .fails e
  | .ok set =>
    match set.find? s.place with
    | none => .ends s
    | some found => s.take m count found

/-- What a terminator may do to a scan. -/
inductive Takes (m : Machine) (found : Match) (s : Scan) : Outcome → Prop
  | opens {id : Nat} (hKind : found.terminator = .opening id) :
    Takes m found s (.goesOn { openMode m id found.span { s with lastOpening := none } with
      lastOpening := some found.span.start.offset })
  | illegal (hKind : found.terminator = .illegal) :
    Takes m found s (.fails (.illegal found.span.start.offset found.span.text))
  /-- An end closes modes unless it is empty right where one has opened. -/
  | closes {closed kept : List Frame} (hKind : found.terminator = .closing)
    (hMoved : ¬ (s.lastOpening = some found.span.start.offset ∧ found.span.isEmpty))
    (hParts : m.partAt? found.span.start s.frames = some (closed, kept)) :
    Takes m found s (.goesOn (closeModes m closed kept found.span { s with lastOpening := none }))
  | passes (hKind : found.terminator = .closing)
    (hLt : found.span.start.offset < found.span.stop.offset) :
    Takes m found s (.goesOn { s with lastOpening := none, place := found.span.stop })
  | passesNext (hKind : found.terminator = .closing)
    (hEmpty : ¬ found.span.start.offset < found.span.stop.offset)
    (hEnd : found.span.start.atEnd = false) :
    Takes m found s (.goesOn { s with lastOpening := none, place := found.span.start.advance })
  | passesEnd (hKind : found.terminator = .closing)
    (hEmpty : ¬ found.span.start.offset < found.span.stop.offset)
    (hEnd : found.span.start.atEnd = true) :
    Takes m found s (.ends { s with lastOpening := none })

/-- All that a step of a scan may do. -/
inductive Steps (m : Machine) (count : Nat) (s : Scan) : Outcome → Prop
  | broken {e : TokenizeError} (hSet : m.setOf (s.top.mode, s.top.closing) = .error e) :
    Steps m count s (.fails e)
  | none {set : TerminatorSet} (hSet : m.setOf (s.top.mode, s.top.closing) = .ok set)
    (hFound : set.find? s.place = .none) : Steps m count s (.ends s)
  | runaway {set : TerminatorSet} {found : Match}
    (hSet : m.setOf (s.top.mode, s.top.closing) = .ok set) (hFound : set.find? s.place = some found)
    (hMany : patience < count) (hFew : found.span.start.offset * 3 < count) :
    Steps m count s (.fails (.runaway found.span.start.offset))
  | found {set : TerminatorSet} {found : Match} {o : Outcome}
      (hSet : m.setOf (s.top.mode, s.top.closing) = .ok set)
      (hFound : set.find? s.place = some found)
      (hFits : count ≤ patience ∨ count ≤ found.span.start.offset * 3)
      (hTakes : Takes m found s o) : Steps m count s o

theorem takes_pass {m : Machine} {found : Match} {s : Scan} (hKind : found.terminator = .closing) :
    Takes m found s (pass found.span { s with lastOpening := none }) := by
  unfold pass
  split
  · next hLt => exact .passes hKind hLt
  · next hEmpty =>
    split
    · next hEnd => exact .passesEnd hKind hEmpty hEnd
    · next hEnd => exact .passesNext hKind hEmpty (Bool.not_eq_true _ ▸ hEnd)

theorem steps_step (m : Machine) (count : Nat) (s : Scan) : Steps m count s (s.step m count) := by
  unfold step
  cases hSet : m.setOf (s.top.mode, s.top.closing) with
  | error e => exact .broken hSet
  | ok set =>
    dsimp only
    cases hFound : set.find? s.place with
    | none => exact .none hSet hFound
    | some found =>
      simp only [take]
      split
      · next hMany => exact .runaway hSet hFound hMany.1 hMany.2
      · next hFits =>
        refine .found hSet hFound (by omega) ?_
        split
        · next id hKind => exact .opens hKind
        · next hKind => exact .illegal hKind
        · next hKind =>
          unfold close
          split
          · exact takes_pass hKind
          · next hMoved =>
            split
            · next closed kept hParts => exact .closes hKind hMoved hParts
            · exact takes_pass hKind

/-- A scan goes on only where it has taken in a terminator that it has found. -/
theorem exists_of_step_eq_goesOn {m : Machine} {count : Nat} {s s' : Scan}
    (h : s.step m count = .goesOn s') :
    ∃ set found, m.setOf (s.top.mode, s.top.closing) = .ok set ∧
      set.find? s.place = some found ∧
      (count ≤ patience ∨ count ≤ found.span.start.offset * 3) ∧
        Takes m found s (.goesOn s') := by
  have hSteps := steps_step m count s
  rw [h] at hSteps
  cases hSteps with
  | found hSet hFound hFits hTakes => exact ⟨_, _, hSet, hFound, hFits, hTakes⟩

/-- The scans of a text, each with the number of the terminator that it searches for. -/
inductive Reachable (m : Machine) (text : List Char) : Nat → Scan → Prop
  | start : Reachable m text 1 (.start text)
  | next {count : Nat} {s s' : Scan} (h : Reachable m text count s)
      (hStep : s.step m count = .goesOn s') :
    Reachable m text (count + 1) s'

theorem Reachable.induct {m : Machine} {text : List Char} {p : Scan → Prop}
    (hStart : p (.start text)) (hStep : ∀ count s, p s → (s.step m count).Leads p)
    {count : Nat} {s : Scan} (h : Reachable m text count s) : p s := by
  induction h with
  | start => exact hStart
  | @next n s s' _ hNext ih =>
    have hLeads := hStep n s ih
    rw [hNext] at hLeads
    exact hLeads

def turn (m : Machine) : Nat × Scan → (Nat × Scan) ⊕ Except TokenizeError Tokens
  | (count, s) =>
    match s.step m count with
    | .goesOn s => .inl (count + 1, s)
    | .ends s => .inr (.ok (s.finish m))
    | .fails e => .inr (.error e)

section Turn

variable {m : Machine} {count : Nat} {s : Scan}

theorem turn_eq_inl {next : Nat × Scan} (h : turn m (count, s) = .inl next) :
    next.1 = count + 1 ∧ s.step m count = .goesOn next.2 := by
  simp only [turn] at h
  split at h
  · next s' hStep =>
    cases h
    exact ⟨rfl, hStep⟩
  · cases h
  · cases h

theorem turn_eq_ok {found : Tokens} (h : turn m (count, s) = .inr (.ok found)) :
    ∃ final, s.step m count = .ends final ∧ found = final.finish m := by
  simp only [turn] at h
  split at h
  · cases h
  · next final hStep =>
    cases h
    exact ⟨final, hStep, rfl⟩
  · cases h

theorem turn_eq_error {e : TokenizeError} (h : turn m (count, s) = .inr (.error e)) :
    s.step m count = .fails e := by
  simp only [turn] at h
  split at h
  · cases h
  · cases h
  · next hStep =>
    cases h
    exact hStep

end Turn

end Scan

namespace Tokenizer

variable {m : Machine}

theorem step_fst (t : Tokenizer m) (count : Nat) (s : Scan) :
    (t.step count s).1 = s.step m count := by
  have hSet := t.setOf_fst s.top
  unfold step Scan.step
  dsimp only
  rw [hSet]
  cases m.setOf (s.top.mode, s.top.closing) with
  | error e => rfl
  | ok set =>
    dsimp only
    cases set.find? s.place with
    | none => rfl
    | some found => exact take_fst _ count found s

theorem run_succ (fuel count : Nat) (s : Scan) (t : Tokenizer m) : (run (fuel + 1) count s t).1 =
    match Scan.turn m (count, s) with
    | .inl next => (run fuel next.1 next.2 (t.step count s).2).1
    | .inr r => r := by
  have hStep := t.step_fst count s
  rw [run]
  split
  · next s' t' hEq =>
    rw [hEq] at hStep
    simp [Scan.turn, ← hStep, hEq]
  · next final t' hEq =>
    rw [hEq] at hStep
    simp [Scan.turn, ← hStep, finish_fst]
  · next e t' hEq =>
    rw [hEq] at hStep
    simp [Scan.turn, ← hStep]

/-- Related scans are left with the same where each turn either ends both with one answer or leads
to scans that are related again. -/
theorem run_eq_of_related {m' : Machine} {R : Nat × Scan → Nat × Scan → Prop}
    (hPlace : ∀ {st st'}, R st st' → st.2.place = st'.2.place)
    (hTurn : ∀ {st st'}, R st st' → Sum.LiftRel R Eq (Scan.turn m st) (Scan.turn m' st'))
    (fuel : Nat) {count count' : Nat} {s s' : Scan} (h : R (count, s) (count', s'))
    (t : Tokenizer m) (t' : Tokenizer m') :
    (run fuel count s t).1 = (run fuel count' s' t').1 := by
  induction fuel generalizing count count' s s' t t' with
  | zero => rw [run, run, hPlace h]
  | succ fuel ih =>
    have hNext := hTurn h
    rw [run_succ, run_succ]
    generalize Scan.turn m (count, s) = next, Scan.turn m' (count', s') = next' at hNext ⊢
    cases hNext with
    | inl hRelated => exact ih hRelated _ _
    | inr hAnswer => exact hAnswer

/-- A run answers what the last turn of a scan of the text does, unless it runs out of fuel
before. -/
theorem exists_reachable_of_run {text : List Char} {count : Nat} {s : Scan}
    (h : Scan.Reachable m text count s) (fuel : Nat) (t : Tokenizer m) :
    ∃ n last, Scan.Reachable m text n last ∧
      (Scan.turn m (n, last) = .inr (run fuel count s t).1 ∨
        (run fuel count s t).1 = .error (.runaway last.place.offset)) := by
  induction fuel generalizing count s t with
  | zero => exact ⟨count, s, h, .inr rfl⟩
  | succ fuel ih =>
    rw [run_succ]
    cases hTurn : Scan.turn m (count, s) with
    | inl next =>
      obtain ⟨hCount, hStep⟩ := Scan.turn_eq_inl hTurn
      exact ih (hCount ▸ h.next hStep) _
    | inr answer => exact ⟨count, s, h, .inl hTurn⟩

/-- Tokens stem from a scan of the text that has ended. -/
theorem exists_reachable_of_tokenize_eq_ok {text : String} {t : Tokenizer m} {found : Tokens}
    (h : (t.tokenize text).1 = .ok found) :
    ∃ n last final, Scan.Reachable m text.toList n last ∧
      last.step m n = .ends final ∧ found = final.finish m := by
  have hStart : Scan.Reachable m text.toList 1 (.start text.toList) := .start
  obtain ⟨n, last, hReach, hLast⟩ := exists_reachable_of_run hStart (stepLimit text.toList) t
  have hTurn : Scan.turn m (n, last) = .inr (.ok found) := by
    rw [← h]
    exact hLast.resolve_right fun hRunaway => nomatch h.symm.trans hRunaway
  obtain ⟨final, hEnds, hFound⟩ := Scan.turn_eq_ok hTurn
  exact ⟨n, last, final, hReach, hEnds, hFound⟩

/-- An error stems from a step of a scan of the text, unless the scan has run out of fuel. -/
theorem exists_reachable_of_tokenize_eq_error {text : String} {t : Tokenizer m} {e : TokenizeError}
    (h : (t.tokenize text).1 = .error e) : ∃ n last, Scan.Reachable m text.toList n last ∧
      (last.step m n = .fails e ∨ e = .runaway last.place.offset) := by
  have hStart : Scan.Reachable m text.toList 1 (.start text.toList) := .start
  obtain ⟨n, last, hReach, hLast⟩ := exists_reachable_of_run hStart (stepLimit text.toList) t
  refine ⟨n, last, hReach, hLast.imp (fun hTurn => ?_) fun hRunaway => ?_⟩
  · exact Scan.turn_eq_error (hTurn.trans (congrArg Sum.inr h))
  · exact Except.error.inj (h.symm.trans hRunaway)

end Tokenizer

end Highlighter
