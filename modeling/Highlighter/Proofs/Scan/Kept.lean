import Highlighter.Scan.Tokenizer

/-! What a tokenizer keeps makes no difference to a scan. A terminator set is kept by the mode and
the end that determine it, and a regular expression by the table whose words it finds, so each
operation of a tokenizer does what the operation of a scan does that compiles everything afresh. -/

namespace Highlighter

open Text

theorem Machine.wordRegex?_eq (m : Machine) (place : Nat) :
    m.wordRegex? place = (m.keywordSets[place]?).map (·.regex) := by
  unfold wordRegex?
  congr 1
  funext index
  exact Regex.ext_of_eq rfl rfl

namespace Tokenizer

variable {m : Machine}

theorem setOf_fst (t : Tokenizer m) (frame : Frame) :
    (t.setOf frame).1 = m.setOf (frame.mode, frame.closing) :=
  Memo.get_fst t.1 Except.isOk (frame.mode, frame.closing)

theorem hits_fst (t : Tokenizer m) (id : Nat) (text : List Char) :
    (t.hits id text).1 = m.hits id text := by
  unfold hits Machine.hits
  cases (m.mode id).keywords with
  | none => rfl
  | some place =>
    -- Only the regular expression is kept; what a candidate counts as is looked up
    -- in the table each time.
    have hRegex := Memo.get_fst t.2 Option.isSome place
    rw [m.wordRegex?_eq] at hRegex
    dsimp only [Option.bind_some]
    rw [hRegex]
    cases m.keywordSets[place]? with
    | none => rfl
    | some index => rfl

theorem flush_fst (t : Tokenizer m) (id : Nat) (stop : Cursor) (s : Scan) :
    (t.flush id stop s).1 = s.flush m id stop := by
  unfold flush Scan.flush
  split
  · rfl
  · dsimp only
    rw [hits_fst]

theorem openMode_fst (t : Tokenizer m) (id : Nat) (found : Span) (s : Scan) :
    (t.openMode id found s).1 = s.openMode m id found := by
  unfold openMode Scan.openMode
  dsimp only
  rw [flush_fst]

theorem closeModes_fst (t : Tokenizer m) (closed kept : List Frame) (found : Span) (s : Scan) :
    (t.closeModes closed kept found s).1 = s.closeModes m closed kept found := by
  unfold closeModes Scan.closeModes
  dsimp only
  rw [flush_fst]

theorem close_fst (t : Tokenizer m) (found : Span) (lastOpening : Option Nat) (s : Scan) :
    (t.close found lastOpening s).1 = s.close m found lastOpening := by
  unfold close Scan.close
  split
  · rfl
  · cases m.partAt? found.start s.frames with
    | none => rfl
    | some parts => exact congrArg Outcome.goesOn (t.closeModes_fst parts.1 parts.2 found s)

theorem take_fst (t : Tokenizer m) (count : Nat) (found : Match) (s : Scan) :
    (t.take count found s).1 = s.take m count found := by
  unfold take Scan.take
  dsimp only
  split
  · rfl
  · split
    · dsimp only
      rw [openMode_fst]
    · rfl
    · rw [close_fst]

theorem finish_fst (t : Tokenizer m) (s : Scan) : (t.finish s).1 = s.finish m := by
  unfold finish Scan.finish
  dsimp only
  rw [flush_fst]

end Tokenizer

end Highlighter
