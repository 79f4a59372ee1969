import Highlighter.Proofs.Pattern.Leftmost
import Highlighter.Proofs.Scan.Sound

/-! The loops of a scan end. `Loops` runs the body of a loop for as long as it goes on, with no
bound set beforehand, and counts its turns. Each loop of a scan is left after few turns, whatever
the patterns match, and what it is left with is what the scan computes. -/

namespace Highlighter

open Text

/-- A loop is left with a result after some number of turns. A turn either goes on from another
state, on the left, or leaves the loop, on the right. -/
inductive Loops {σ ρ : Type} (turn : σ → σ ⊕ ρ) : σ → Nat → ρ → Prop
  | leave {s : σ} {r : ρ} (h : turn s = .inr r) : Loops turn s 1 r
  | again {s s' : σ} {n : Nat} {r : ρ} (h : turn s = .inl s') (rest : Loops turn s' n r) :
    Loops turn s (n + 1) r

/-! ### The search for words -/

/-- One search for a word, with the spans that have been found so far. -/
def Regex.wordTurn (r : Regex) : Cursor × List Span → (Cursor × List Span) ⊕ List Span
  | (c, found) =>
    match r.find? c with
    | none => .inr found
    | some s =>
      if s.isEmpty then
        if s.start.atEnd then .inr found else .inl (s.start.advance, found)
      else .inl (s.stop, found ++ [s])

namespace Regex

/-- One search for a match, which is taken in with what has been found so far unless it is empty. -/
def searchTurn {α : Type} (r : Regex) (take : α → Span → α) :
    Cursor × α → (Cursor × α) ⊕ α
  | (c, found) =>
    match r.find? c with
    | none => .inr found
    | some s =>
      if s.isEmpty then
        if s.start.atEnd then .inr found else .inl (s.start.advance, found)
      else .inl (s.stop, take found s)

variable {r : Regex}

/-- Each search starts at a later character than the one before. -/
theorem Successive.loops {α : Type} {c : Cursor} {spans : List Span} (h : r.Successive c spans)
    (take : α → Span → α) (found : α) : ∃ n ≤ c.after.length + 1,
      Loops (r.searchTurn take) (c, found) n
        ((spans.filter fun s => !s.isEmpty).foldl take found) := by
  induction h generalizing found with
  | none h =>
    refine ⟨1, by omega, .leave ?_⟩
    simp [searchTurn, find?_eq_none_iff.2 h]
  | last h hEmpty hEnd =>
    refine ⟨1, by omega, .leave ?_⟩
    simp [searchTurn, find?_eq_some_iff.2 h, hEmpty, hEnd]
  | @empty c s spans h hEmpty hEnd _ ih =>
    obtain ⟨n, hn, hLoops⟩ := ih found
    have hLt := h.length_advance_lt hEnd
    have hTurn : r.searchTurn take (c, found) = .inl (s.start.advance, found) := by
      simp [searchTurn, find?_eq_some_iff.2 h, hEmpty, hEnd]
    refine ⟨n + 1, by omega, .again hTurn ?_⟩
    simpa [hEmpty] using hLoops
  | @word c s spans h hWord _ ih =>
    obtain ⟨n, hn, hLoops⟩ := ih (take found s)
    have hLt := h.length_stop_lt hWord
    have hTurn : r.searchTurn take (c, found) = .inl (s.stop, take found s) := by
      simp [searchTurn, find?_eq_some_iff.2 h, hWord]
    refine ⟨n + 1, by omega, .again hTurn ?_⟩
    simpa [hWord] using hLoops

theorem loops_allMatches (r : Regex) (text : List Char) :
    ∃ n ≤ text.length + 1, Loops r.wordTurn (.start text, []) n (r.allMatches text) := by
  obtain ⟨spans, hSpans⟩ := r.exists_successive (.start text)
  have hTurn : r.wordTurn = r.searchTurn fun found s => found ++ [s] := rfl
  have hCollect : ∀ spans : List Span, spans.foldl (fun found s => found ++ [s]) [] = spans :=
    fun spans => by simp [← List.flatMap_def]
  have hLoops := hSpans.loops (fun found s => found ++ [s]) []
  rw [hCollect] at hLoops
  rw [hTurn, hSpans.allMatches_eq]
  exact hLoops

end Regex

/-! ### The end of a mode -/

namespace Machine

variable (m : Machine)

/-- One look at an open mode that an end at `c` may belong to, with the ones that have been passed.
A mode right above the root passes nothing on, as the root does not end. -/
def ownerTurn (c : Cursor) :
    List Frame × List Frame → (List Frame × List Frame) ⊕ Option (List Frame × List Frame)
  | (_, []) => .inr none
  | (passed, frame :: rest) =>
    if m.closesAt frame.mode c then
      .inr (some (passed ++ (m.partClosing (frame :: rest)).1, (m.partClosing (frame :: rest)).2))
    else if (m.mode frame.mode).closesWithParent ∧ rest ≠ [] then .inl (passed ++ [frame], rest)
    else .inr none

theorem loops_partAt?_append (c : Cursor) (passed frames : List Frame) :
    ∃ n ≤ max frames.length 1, Loops (m.ownerTurn c) (passed, frames) n
      ((m.partAt? c frames).map fun parts => (passed ++ parts.1, parts.2)) := by
  induction frames generalizing passed with
  | nil => exact ⟨1, by simp, .leave rfl⟩
  | cons frame rest ih =>
    by_cases hCloses : m.closesAt frame.mode c = true
    · refine ⟨1, by simp, .leave ?_⟩
      simp [ownerTurn, partAt?, hCloses]
    · by_cases hWith : (m.mode frame.mode).closesWithParent = true
      · cases rest with
        | nil =>
          refine ⟨1, by simp, .leave ?_⟩
          simp [ownerTurn, partAt?, hCloses]
        | cons parent rest =>
          obtain ⟨n, hn, hLoops⟩ := ih (passed ++ [frame])
          have hTurn : m.ownerTurn c (passed, frame :: parent :: rest) =
              .inl (passed ++ [frame], parent :: rest) := by
            simp [ownerTurn, hCloses, hWith]
          refine ⟨n + 1, by simp at hn ⊢; omega, .again hTurn ?_⟩
          rw [partAt?, if_neg hCloses, if_pos hWith, Option.map_map]
          simpa [Function.comp_def] using hLoops
      · refine ⟨1, by simp, .leave ?_⟩
        simp [ownerTurn, partAt?, hCloses, hWith]

/-- An end looks at each open mode at most once. -/
theorem loops_partAt? (c : Cursor) (frames : List Frame) :
    ∃ n ≤ max frames.length 1, Loops (m.ownerTurn c) ([], frames) n (m.partAt? c frames) := by
  simpa using m.loops_partAt?_append c [] frames

/-- One look at whether an open mode, of which `passed` end too, closes the one around it. -/
def partTurn :
    List Frame × List Frame → (List Frame × List Frame) ⊕ (List Frame × List Frame)
  | (passed, frame :: parent :: rest) =>
    if (m.mode frame.mode).closesParent then .inl (passed ++ [frame], parent :: rest)
    else .inr (passed ++ [frame], parent :: rest)
  | (passed, frames) => .inr (passed ++ frames, [])

theorem loops_partClosing_append (passed frames : List Frame) :
    ∃ n ≤ max frames.length 1, Loops m.partTurn (passed, frames) n
      (passed ++ (m.partClosing frames).1, (m.partClosing frames).2) := by
  fun_induction partClosing m frames generalizing passed with
  | case1 | case2 => exact ⟨1, by simp, .leave rfl⟩
  | case3 frame parent rest hCloses closed kept hEq ih =>
    obtain ⟨n, hn, hLoops⟩ := ih (passed ++ [frame])
    have hTurn : m.partTurn (passed, frame :: parent :: rest) =
        .inl (passed ++ [frame], parent :: rest) := by
      simp [partTurn, hCloses]
    refine ⟨n + 1, by simp at hn ⊢; omega, .again hTurn ?_⟩
    simpa [hEq] using hLoops
  | case4 frame parent rest hCloses =>
    refine ⟨1, by simp, .leave ?_⟩
    simp [partTurn, hCloses]

/-- The modes that end along with one are looked at once each. -/
theorem loops_partClosing (frames : List Frame) :
    ∃ n ≤ max frames.length 1, Loops m.partTurn ([], frames) n (m.partClosing frames) :=
  m.loops_partClosing_append [] frames

def closeTurn : List Frame × Output → (List Frame × Output) ⊕ Output
  | ([], out) => .inr out
  | (frame :: closed, out) =>
    .inl (closed, (out.closeFrame frame).addRelevance (m.mode frame.mode).relevance)

theorem loops_closeFrames (closed : List Frame) (out : Output) :
    Loops m.closeTurn (closed, out) (closed.length + 1) (.closeFrames m closed out) := by
  induction closed generalizing out with
  | nil => exact .leave rfl
  | cons frame closed ih => exact .again rfl (ih _)

end Machine

/-! ### The scan -/

namespace Scan

/-- A scan finds its `count`th terminator at a place. -/
def FindsAt (m : Machine) (text : List Char) (count place : Nat) : Prop :=
  ∃ s set found, Reachable m text count s ∧ m.setOf (s.top.mode, s.top.closing) = .ok set ∧
    set.find? s.place = some found ∧ found.span.start.offset = place

variable {m : Machine} {text : List Char} {count : Nat} {s : Scan}

theorem Reachable.offset_le (h : Reachable m text count s) {set : TerminatorSet} {found : Match}
    (hFound : set.find? s.place = some found) : found.span.start.offset ≤ byteLength text := by
  have hPlace := h.sound.pending.trans h.sound.place
  exact (Cursor.boundary_offset (hPlace.trans (TerminatorSet.reaches_find? hFound).1)).le

theorem Reachable.turn_eq_runaway (h : Reachable m text count s) {p : Nat}
    (hTurn : turn m (count, s) = .inr (.error (.runaway p))) :
    patience < count ∧ p * 3 < count ∧ FindsAt m text count p := by
  have hSteps := steps_step m count s
  rw [turn_eq_error hTurn] at hSteps
  cases hSteps with
  | broken hSet =>
    obtain ⟨fault, hEq, -⟩ := Machine.exists_of_terminatorSet_eq_error hSet
    cases hEq
  | runaway hSet hFound hMany hFew => exact ⟨hMany, hFew, s, _, _, h, hSet, hFound, rfl⟩
  | found _ _ _ hTakes => cases hTakes

/-- No terminator lies behind the end of the text, so that the last turn allowed leaves the loop. -/
theorem Reachable.exists_turn_eq_inr (h : Reachable m text count s)
    (hLast : count = Tokenizer.stepLimit text) : ∃ r, turn m (count, s) = .inr r := by
  cases hTurn : turn m (count, s) with
  | inr r => exact ⟨r, rfl⟩
  | inl next =>
    obtain ⟨set, found, -, hFound, hFits, -⟩ := exists_of_step_eq_goesOn (turn_eq_inl hTurn).2
    have hLe := h.offset_le hFound
    simp only [Tokenizer.stepLimit] at hLast
    omega

end Scan

namespace Tokenizer

variable {m : Machine} {text : List Char} {count : Nat} {s : Scan}

/-- A scan ends within its fuel: it takes `k` more turns after the one at hand. -/
theorem exists_loops_run {fuel : Nat} {t : Tokenizer m} (h : Scan.Reachable m text count s)
    (hFuel : fuel + count = stepLimit text) :
    ∃ k, count + k ≤ stepLimit text ∧
      Loops (Scan.turn m) (count, s) (k + 1) (run (fuel + 1) count s t).1 ∧
      ∀ p, (run (fuel + 1) count s t).1 = .error (.runaway p) →
        patience < count + k ∧ p * 3 < count + k ∧ Scan.FindsAt m text (count + k) p := by
  rw [run_succ]
  -- By induction on the fuel: the last turn that it allows leaves the loop, as no
  -- terminator is left to be found.
  induction fuel generalizing count s t with
  | zero =>
    obtain ⟨r, hTurn⟩ := h.exists_turn_eq_inr (by omega)
    rw [hTurn]
    refine ⟨0, by omega, .leave hTurn, ?_⟩
    rintro p rfl
    exact h.turn_eq_runaway hTurn
  | succ fuel ih =>
    cases hTurn : Scan.turn m (count, s) with
    | inr r =>
      refine ⟨0, by omega, .leave hTurn, ?_⟩
      rintro p rfl
      exact h.turn_eq_runaway hTurn
    | inl next =>
      obtain ⟨n, s'⟩ := next
      obtain ⟨rfl, hStep⟩ := Scan.turn_eq_inl hTurn
      obtain ⟨k, hk, hLoops, hRunaway⟩ := ih (t := (t.step count s).2) (h.next hStep) (by omega)
      simp only [Nat.add_right_comm count 1 k] at hk hRunaway
      rw [← run_succ] at hLoops hRunaway
      exact ⟨k + 1, hk, .again hTurn hLoops, hRunaway⟩

theorem exists_loops_tokenize (t : Tokenizer m) (text : String) :
    ∃ n ≤ max patience (text.utf8ByteSize * 3) + 1,
      Loops (Scan.turn m) (1, .start text.toList) n (t.tokenize text).1 ∧
      ∀ p, (t.tokenize text).1 = .error (.runaway p) →
        patience < n ∧ p * 3 < n ∧ Scan.FindsAt m text.toList n p := by
  have hFuel : max patience (byteLength text.toList * 3) + 1 = stepLimit text.toList := rfl
  obtain ⟨k, hk, hLoops, hRunaway⟩ := exists_loops_run (t := t) .start hFuel
  rw [Nat.add_comm 1 k] at hk hRunaway
  rw [← byteLength_toList]
  exact ⟨k + 1, hk, hLoops, hRunaway⟩

/-- A scan does not run away where what it finds once its patience has run out lies far enough
on. -/
theorem ne_runaway_of_count_le {text : String}
    (h : ∀ {count : Nat} {s : Scan} {set : TerminatorSet} {found : Match},
      Scan.Reachable m text.toList count s → m.setOf (s.top.mode, s.top.closing) = .ok set →
      set.find? s.place = some found → patience < count → count ≤ found.span.start.offset * 3)
    (t : Tokenizer m) (p : Nat) : (t.tokenize text).1 ≠ .error (.runaway p) := by
  intro hRunaway
  obtain ⟨n, -, -, hFinds⟩ := t.exists_loops_tokenize text
  obtain ⟨hMany, hFew, s, set, found, hReach, hSet, hFound, rfl⟩ := hFinds p hRunaway
  have hLe := h hReach hSet hFound hMany
  omega

/-- Whatever the patterns match, a scan ends after few searches for a terminator, and runs
away only at one whose number exceeds its patience and three times the place of what it
finds. The loops within it end too: the search for the owner of an end, the closing of modes,
and the search for words. -/
theorem loops_tokenize (t : Tokenizer m) (text : String) :
    (∃ n ≤ max patience (text.utf8ByteSize * 3) + 1,
      Loops (Scan.turn m) (1, .start text.toList) n (t.tokenize text).1 ∧
      ∀ p, (t.tokenize text).1 = .error (.runaway p) →
        patience < n ∧ p * 3 < n ∧ Scan.FindsAt m text.toList n p) ∧
    (∀ c frames, ∃ n ≤ max frames.length 1,
      Loops (m.ownerTurn c) ([], frames) n (m.partAt? c frames)) ∧
    (∀ frames, ∃ n ≤ max frames.length 1,
      Loops m.partTurn ([], frames) n (m.partClosing frames)) ∧
    (∀ closed out,
      Loops m.closeTurn (closed, out) (closed.length + 1) (.closeFrames m closed out)) ∧
    ∀ (r : Regex) (chars : List Char), ∃ n ≤ chars.length + 1,
      Loops r.wordTurn (.start chars, []) n (r.allMatches chars) := by
  exact ⟨t.exists_loops_tokenize text, m.loops_partAt?, m.loops_partClosing, m.loops_closeFrames,
    Regex.loops_allMatches⟩

end Tokenizer

end Highlighter
