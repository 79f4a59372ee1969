import Highlighter.Proofs.Scan.Emission
import Highlighter.Proofs.Scan.Loops

/-! What speaks for the language of a text: the modes that come to an end in it, and the words
that are found in it. `Machine.credits` reads both off a run, from the modes that a step takes
off the open ones and from the text that it leaves behind. A word counts a few times only,
whichever tables list it. The relevance of a text is the sum of what its credits add, one
after the other, in 32 bits. -/

namespace Highlighter

open Text

/-- A word within a text, where the word starts at an offset of its own. -/
def Hit.shift (offset : Nat) (hit : Hit) : Hit :=
  { hit with start := offset + hit.start, stop := offset + hit.stop }

/-- How often a word is among hits. -/
def Hit.times (hits : List Hit) (key : String) : Nat := hits.countP (·.key = key)

/-- What speaks for the language of a text: the end of a mode, or a word that has been found within
one. -/
inductive Credit
  | mode (frame : Frame)
  | word (id : Nat) (hit : Hit)
  deriving DecidableEq, Repr

namespace Credit

def frame? : Credit → Option Frame
  | mode frame => some frame
  | word _ _ => none

def hit? : Credit → Option Hit
  | mode _ => none
  | word _ hit => some hit

def frames (credits : List Credit) : List Frame := credits.filterMap frame?

def hits (credits : List Credit) : List Hit := credits.filterMap hit?

/-- What a credit adds to the relevance after earlier ones: a word adds nothing once it has been
counted as often as words are. -/
def addition? (m : Machine) (earlier : List Credit) : Credit → Option UInt32
  | mode frame => some (m.mode frame.mode).relevance
  | word _ hit =>
    if Hit.times (hits earlier) hit.key < hitLimit then some hit.data.relevance else none

/-- What credits add to the relevance, one after the other. -/
def additions (m : Machine) (earlier : List Credit) : List Credit → List UInt32
  | [] => []
  | credit :: rest => (credit.addition? m earlier).toList ++ additions m (earlier ++ [credit]) rest

end Credit

namespace Scan

/-- The words of the pending text up to `stop`, in the innermost mode. -/
def wordsUpTo (m : Machine) (s : Scan) (stop : Cursor) : List Credit :=
  ((m.hits s.top.mode (Span.mk s.pending stop).chars).map (Hit.shift s.pending.offset)).map
    (.word s.top.mode)

/-- The credits of a step: the words of the text that it leaves behind, and the modes that are open
no more. -/
def creditsTo (m : Machine) (s s' : Scan) : List Credit :=
  s.wordsUpTo m s'.pending ++ (s.frames.take (s.frames.length - s'.frames.length)).map .mode

/-- The credits of a scan that goes on for `fuel` steps at most. The end of the text ends no
mode. -/
def creditsFrom (m : Machine) : (fuel : Nat) → (count : Nat) → Scan → List Credit
  | 0, _, _ => []
  | fuel + 1, count, s =>
    match s.step m count with
    | .goesOn s' => s.creditsTo m s' ++ creditsFrom m fuel (count + 1) s'
    | .ends final => final.wordsUpTo m final.pending.toEnd
    | .fails _ => []

end Scan

/-- The credits of a text. -/
def Machine.credits (m : Machine) (text : List Char) : List Credit :=
  Scan.creditsFrom m (Tokenizer.stepLimit text) 1 (.start text)

@[simp] theorem Hit.times_append (hits hits' : List Hit) (key : String) :
    Hit.times (hits ++ hits') key = Hit.times hits key + Hit.times hits' key :=
  List.countP_append

@[simp] theorem Hit.times_singleton (hit : Hit) (key : String) :
    Hit.times [hit] key = if hit.key = key then 1 else 0 := by
  simp [Hit.times]

namespace Credit

variable {m : Machine}

@[simp] theorem frames_append (cs cs' : List Credit) :
    frames (cs ++ cs') = frames cs ++ frames cs' :=
  List.filterMap_append

@[simp] theorem hits_append (cs cs' : List Credit) : hits (cs ++ cs') = hits cs ++ hits cs' :=
  List.filterMap_append

@[simp] theorem frames_modes (frames : List Frame) : Credit.frames (frames.map .mode) = frames := by
  simp [Credit.frames, List.filterMap_map, Function.comp_def, frame?]

@[simp] theorem frames_words (id : Nat) (hits : List Hit) : frames (hits.map (.word id)) = [] := by
  simp [frames, frame?]

@[simp] theorem hits_modes (frames : List Frame) : hits (frames.map .mode) = [] := by
  simp [hits, hit?]

@[simp] theorem hits_words (id : Nat) (hits : List Hit) :
    Credit.hits (hits.map (.word id)) = hits := by
  simp [Credit.hits, List.filterMap_map, Function.comp_def, hit?]

theorem additions_append (earlier cs cs' : List Credit) : additions m earlier (cs ++ cs') =
    additions m earlier cs ++ additions m (earlier ++ cs) cs' := by
  induction cs generalizing earlier with
  | nil => simp [additions]
  | cons credit cs ih => simp [additions, ih, List.append_assoc]

theorem additions_concat (cs : List Credit) (credit : Credit) :
    additions m [] (cs ++ [credit]) = additions m [] cs ++ (credit.addition? m cs).toList := by
  rw [additions_append, List.nil_append]
  simp [additions]

end Credit

namespace Output

variable {m : Machine} {cs : List Credit} {out : Output}

@[simp] theorem relevance_emit (out : Output) (stop : Nat) (innermost : Option Category) :
    (out.emit stop innermost).relevance = out.relevance := by
  unfold emit
  split <;> rfl

@[simp] theorem hits_emit (out : Output) (stop : Nat) (innermost : Option Category) :
    (out.emit stop innermost).hits = out.hits := by
  unfold emit
  split <;> rfl

@[simp] theorem relevance_emitKeyword (out : Output) (start stop : Nat) (category : Category) :
    (out.emitKeyword start stop category).relevance = out.relevance := by
  simp [emitKeyword]

@[simp] theorem hits_emitKeyword (out : Output) (start stop : Nat) (category : Category) :
    (out.emitKeyword start stop category).hits = out.hits := by
  simp [emitKeyword]

@[simp] theorem relevance_closeFrame (out : Output) (frame : Frame) :
    (out.closeFrame frame).relevance = out.relevance := by
  unfold closeFrame
  split <;> rfl

@[simp] theorem hits_closeFrame (out : Output) (frame : Frame) :
    (out.closeFrame frame).hits = out.hits := by
  unfold closeFrame
  split <;> rfl

/-- An output has counted credits: its relevance is what they have added, and it knows how often
each word is among them. -/
structure Counts (m : Machine) (cs : List Credit) (out : Output) : Prop where
  relevance : out.relevance = (Credit.additions m [] cs).foldl (· + ·) 0
  hits : ∀ key, (out.hits.get? key).getD 0 = Hit.times (Credit.hits cs) key

namespace Counts

theorem start : Counts m [] {} := ⟨rfl, fun _ => rfl⟩

theorem of_eq (h : Counts m cs out) {out' : Output} (hRelevance : out'.relevance = out.relevance)
    (hHits : out'.hits = out.hits) : Counts m cs out' :=
  ⟨hRelevance.trans h.relevance, fun key => by rw [hHits]; exact h.hits key⟩

theorem emit (h : Counts m cs out) (stop : Nat) (innermost : Option Category) :
    Counts m cs (out.emit stop innermost) :=
  h.of_eq (relevance_emit out stop innermost) (hits_emit out stop innermost)

theorem openFor (h : Counts m cs out) (category : Option Category) :
    Counts m cs (out.openFor category) := by
  cases category <;> exact h.of_eq rfl rfl

theorem endMode (h : Counts m cs out) (frame : Frame) : Counts m (cs ++ [.mode frame])
    ((out.closeFrame frame).addRelevance (m.mode frame.mode).relevance) := by
  refine ⟨?_, fun key => ?_⟩
  · rw [Credit.additions_concat, List.foldl_append, ← h.relevance]
    simp [addRelevance, Credit.addition?]
  · have hNone : Credit.hits [.mode frame] = [] := rfl
    rw [Credit.hits_append, hNone, List.append_nil]
    simpa [addRelevance] using h.hits key

theorem countHit (h : Counts m cs out) (id : Nat) (hit : Hit) :
    Counts m (cs ++ [.word id hit]) (out.countHit hit.key hit.data.relevance) := by
  have hCount := h.hits hit.key
  refine ⟨?_, fun key => ?_⟩
  · rw [Credit.additions_concat, List.foldl_append, ← h.relevance]
    simp only [Output.countHit, Credit.addition?, hCount, Nat.add_one_le_iff]
    split <;> rfl
  · have hOne : Credit.hits [.word id hit] = [hit] := rfl
    have hInsert : ((out.countHit hit.key hit.data.relevance).hits.get? key) = if key = hit.key then
        some (Hit.times (Credit.hits cs) hit.key + 1) else out.hits.get? key := by
      rw [← hCount, ← Dict.get?_insert]
      simp only [Output.countHit]
      split <;> rfl
    rw [hInsert, Credit.hits_append, hOne, Hit.times_append, Hit.times_singleton]
    by_cases hKey : key = hit.key
    · simp [hKey]
    · simpa [hKey, Ne.symm hKey] using h.hits key

theorem emitHits (h : Counts m cs out) (id offset : Nat) (hits : List Hit) :
    Counts m (cs ++ (hits.map (Hit.shift offset)).map (.word id)) (out.emitHits offset hits) := by
  induction hits generalizing cs out with
  | nil => simpa [Output.emitHits] using h
  | cons hit hits ih =>
    have hEmitted : Counts m cs
        (out.emitKeyword (offset + hit.start) (offset + hit.stop) hit.data.category) :=
      h.of_eq (by simp) (by simp)
    have hRest := ih (hEmitted.countHit id (hit.shift offset))
    rwa [List.append_assoc, List.singleton_append] at hRest

theorem closeFrames (h : Counts m cs out) (closed : List Frame) :
    Counts m (cs ++ closed.map .mode) (.closeFrames m closed out) := by
  induction closed generalizing cs out with
  | nil => simpa [Output.closeFrames] using h
  | cons frame closed ih =>
    have hRest := ih (h.endMode frame)
    rwa [List.append_assoc, List.singleton_append] at hRest

theorem closeEach (h : Counts m cs out) (frames : List Frame) :
    Counts m cs (frames.foldl Output.closeFrame out) := by
  induction frames generalizing out with
  | nil => exact h
  | cons frame frames ih =>
    exact ih (h.of_eq (relevance_closeFrame out frame) (hits_closeFrame out frame))

end Counts

end Output

theorem Machine.hits_nil (m : Machine) (id : Nat) : m.hits id [] = [] :=
  (m.ordered_hits id []).eq_nil

theorem Text.Span.chars_eq_nil {s : Span} (h : s.stop.offset ≤ s.start.offset) :
    s.chars = [] := by
  obtain ⟨rest, -, hLength⟩ := s.chars_append
  have hZero : byteLength s.chars = 0 := by
    simp only [Span.length] at hLength
    omega
  exact byteLength_eq_zero hZero

namespace Scan

variable {m : Machine} {cs : List Credit} {s : Scan}

theorem wordsUpTo_eq_nil {stop : Cursor} (h : stop.offset ≤ s.pending.offset) :
    s.wordsUpTo m stop = [] := by
  rw [wordsUpTo, Span.chars_eq_nil h, m.hits_nil]
  rfl

/-- A step that leaves no text and no mode behind has no credits. -/
theorem creditsTo_eq_nil {s' : Scan} (hPending : s'.pending = s.pending)
    (hFrames : s'.frames = s.frames) : s.creditsTo m s' = [] := by
  rw [creditsTo, hPending, hFrames, wordsUpTo_eq_nil (Nat.le_refl _), Nat.sub_self]
  rfl

theorem counts_flush (h : s.output.Counts m cs) (stop : Cursor) :
    (s.flush m s.top.mode stop).output.Counts m (cs ++ s.wordsUpTo m stop) := by
  unfold flush
  split
  · next hLe =>
    rw [wordsUpTo_eq_nil hLe, List.append_nil]
    exact h
  · exact (h.emitHits s.top.mode s.pending.offset _).emit stop.offset none

/-- A step leaves text behind, but never takes up text again. -/
theorem Sound.reaches_pending {text : List Char} (hSound : s.Sound text) {count : Nat} {s' : Scan}
    (hStep : s.step m count = .goesOn s') : s.pending.Reaches s'.pending := by
  obtain ⟨set, found, -, hFound, -, hTakes⟩ := exists_of_step_eq_goesOn hStep
  obtain ⟨hStart, hStop⟩ := TerminatorSet.reaches_find? hFound
  have hPending := hSound.place.trans hStart
  cases hTakes with
  | @opens id _ =>
    have hOpened := pending_openMode (s := { s with lastOpening := none }) m id hPending hStop
    show s.pending.Reaches (Scan.openMode m id _ _).pending
    rw [hOpened]
    exact .ite (hPending.trans hStop) hPending
  | @closes closed kept _ _ _ =>
    rw [pending_closeModes (s := { s with lastOpening := none }) m closed kept hPending hStop]
    exact .ite hPending (hPending.trans hStop)
  | passes _ _ | passesNext _ _ _ => exact .refl _

theorem counts_openMode (h : s.output.Counts m cs) (id : Nat) {found : Span}
    (hStart : s.pending.Reaches found.start) (hStop : found.start.Reaches found.stop) :
    (s.openMode m id found).output.Counts m (cs ++ s.creditsTo m (s.openMode m id found)) := by
  have hLength : (s.openMode m id found).frames.length = s.frames.length + 1 := by
    simp [Scan.openMode, enter]
  rw [creditsTo, pending_openMode m id hStart hStop, hLength, Nat.sub_eq_zero_of_le (Nat.le_succ _),
    List.take_zero, List.map_nil, List.append_nil]
  exact (counts_flush h _).openFor (m.mode id).category

theorem counts_closeModes (h : s.output.Counts m cs) {closed kept : List Frame} {found : Span}
    (hFrames : closed ++ kept = s.frames) (hStart : s.pending.Reaches found.start)
    (hStop : found.start.Reaches found.stop) :
    (s.closeModes m closed kept found).output.Counts m
      (cs ++ s.creditsTo m (s.closeModes m closed kept found)) := by
  have hKept : (s.closeModes m closed kept found).frames = kept := rfl
  rw [creditsTo, pending_closeModes m closed kept hStart hStop, hKept, ← hFrames,
    List.length_append, Nat.add_sub_cancel, List.take_left, ← List.append_assoc]
  exact (counts_flush h _).closeFrames closed

theorem counts_step {text : List Char} (hSound : s.Sound text) (h : s.output.Counts m cs)
    {count : Nat} {s' : Scan} (hStep : s.step m count = .goesOn s') :
    s'.output.Counts m (cs ++ s.creditsTo m s') := by
  obtain ⟨set, found, -, hFound, -, hTakes⟩ := exists_of_step_eq_goesOn hStep
  obtain ⟨hStart, hStop⟩ := TerminatorSet.reaches_find? hFound
  have hPending := hSound.place.trans hStart
  cases hTakes with
  | opens _ => exact counts_openMode (s := { s with lastOpening := none }) h _ hPending hStop
  | closes _ _ hParts =>
    exact counts_closeModes (s := { s with lastOpening := none }) h
      (Machine.append_of_partAt? hParts) hPending hStop
  | passes _ _ | passesNext _ _ _ =>
    simpa [creditsTo_eq_nil] using h

theorem counts_finish (h : s.output.Counts m cs) : (s.finish m).relevance =
    (Credit.additions m [] (cs ++ s.wordsUpTo m s.pending.toEnd)).foldl (· + ·) 0 :=
  ((counts_flush h s.pending.toEnd).closeEach _).relevance

/-- A scan ends without a last word. -/
theorem eq_of_step_eq_ends {count : Nat} {final : Scan} (h : s.step m count = .ends final) :
    final.output = s.output ∧ final.pending = s.pending := by
  have hSteps := steps_step m count s
  rw [h] at hSteps
  cases hSteps with
  | none _ _ => exact ⟨rfl, rfl⟩
  | found _ _ _ hTakes =>
    cases hTakes
    exact ⟨rfl, rfl⟩

end Scan

namespace Tokenizer

variable {m : Machine}

/-- The relevance of a text is what its credits add. -/
theorem relevance_run {text : List Char} {fuel count : Nat} {s : Scan} {t : Tokenizer m}
    {found : Tokens} {cs : List Credit} (hSound : s.Sound text) (hCounts : s.output.Counts m cs)
    (h : (run fuel count s t).1 = .ok found) : found.relevance =
    (Credit.additions m [] (cs ++ s.creditsFrom m fuel count)).foldl (· + ·) 0 := by
  induction fuel generalizing count s t cs with
  | zero => cases h
  | succ fuel ih =>
    have hLeads := hSound.step m count
    rw [run_succ, Scan.turn] at h
    rw [Scan.creditsFrom]
    cases hStep : s.step m count with
    | goesOn s' =>
      rw [hStep] at h hLeads
      rw [← List.append_assoc]
      exact ih hLeads (Scan.counts_step hSound hCounts hStep) h
    | ends final =>
      rw [hStep] at h
      cases h
      refine Scan.counts_finish ?_
      rw [(Scan.eq_of_step_eq_ends hStep).1]
      exact hCounts
    | fails e =>
      rw [hStep] at h
      cases h

theorem relevance_tokenize {t : Tokenizer m} {text : String} {found : Tokens}
    (h : (t.tokenize text).1 = .ok found) :
    found.relevance = (Credit.additions m [] (m.credits text.toList)).foldl (· + ·) 0 :=
  relevance_run (.start text.toList) .start h

end Tokenizer

end Highlighter
