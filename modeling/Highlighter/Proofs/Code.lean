import Highlighter.Code
import Highlighter.Proofs.Scan.Partition
import Highlighter.Proofs.Text.Lines

/-! Cutting tokens into lines loses nothing. The text of the lines under construction, with a
newline after each complete one, is what has been added so far; where the tokens partition a text,
it is that text in the end. No piece is empty, and none holds a newline. -/

namespace Highlighter

open Text

/-- The text of a line. -/
def Line.chars (line : Line) : List Char := line.flatMap (·.text.toList)

/-- A piece holds some text, which lies on one line. -/
def Piece.OnLine (p : Piece) : Prop := p.text ≠ "" ∧ '\n' ∉ p.text.toList

namespace LineBuilder

/-- What has been added to lines under construction. -/
def chars (b : LineBuilder) : List Char :=
  b.complete.reverse.flatMap (fun line => Line.chars line ++ ['\n']) ++ Line.chars b.pieces.reverse

/-- All pieces are as they should be. -/
structure OnLines (b : LineBuilder) : Prop where
  complete : ∀ line ∈ b.complete, ∀ p ∈ line, Piece.OnLine p
  pieces : ∀ p ∈ b.pieces, Piece.OnLine p

variable {b : LineBuilder} {merge : Bool} {categories : List Category}

theorem chars_addText (text : List Char) :
    (b.addText merge categories text).chars = b.chars ++ text := by
  obtain ⟨complete, pieces⟩ := b
  unfold addText
  split
  · next h => rw [h, List.append_nil]
  · cases pieces with
    | nil => simp [chars, Line.chars]
    | cons last pieces =>
      dsimp only
      split
      · simp [chars, Line.chars]
      · simp [chars, Line.chars]

theorem chars_newLine : b.newLine.chars = b.chars ++ ['\n'] := by
  simp [chars, newLine, Line.chars]

theorem OnLines.addText (h : b.OnLines) {text : List Char} (hText : '\n' ∉ text) :
    (b.addText merge categories text).OnLines := by
  obtain ⟨complete, pieces⟩ := b
  unfold LineBuilder.addText
  split
  · exact h
  · next hNe =>
    have hPiece : Piece.OnLine ⟨.ofList text, categories⟩ := by
      refine ⟨fun hEmpty => hNe ?_, by simpa using hText⟩
      simpa using congrArg String.toList hEmpty
    have hAdded : ∀ p ∈ ⟨.ofList text, categories⟩ :: pieces, Piece.OnLine p :=
      List.forall_mem_cons.2 ⟨hPiece, h.pieces⟩
    cases pieces with
    | nil => exact ⟨h.complete, hAdded⟩
    | cons last pieces =>
      dsimp only
      split
      · obtain ⟨hLast, hPieces⟩ := List.forall_mem_cons.1 h.pieces
        refine ⟨h.complete, List.forall_mem_cons.2 ⟨⟨fun hEmpty => ?_, ?_⟩, hPieces⟩⟩
        · exact hLast.1 (String.append_eq_empty_iff.1 hEmpty).1
        · simp [hLast.2, hText]
      · exact ⟨h.complete, hAdded⟩

theorem OnLines.newLine (h : b.OnLines) : b.newLine.OnLines :=
  ⟨List.forall_mem_cons.2 ⟨fun p hp => h.pieces p (List.mem_reverse.1 hp), h.complete⟩,
    nofun⟩

theorem chars_addParts {parts : List (List Char)} (h : parts ≠ []) :
    (b.addParts merge categories parts).chars = b.chars ++ ['\n'].intercalate parts := by
  fun_induction addParts merge categories parts b with
  | case1 => exact absurd rfl h
  | case2 part b => simp [chars_addText]
  | case3 part parts b hParts ih =>
    have hNe : parts ≠ [] := fun hNil => hParts hNil
    rw [ih hNe, chars_newLine, chars_addText]
    obtain ⟨next, parts, rfl⟩ := List.exists_cons_of_ne_nil hNe
    simp [List.intercalate]

theorem OnLines.addParts (h : b.OnLines) {parts : List (List Char)}
    (hParts : ∀ part ∈ parts, '\n' ∉ part) : (b.addParts merge categories parts).OnLines := by
  fun_induction LineBuilder.addParts merge categories parts b with
  | case1 => exact h
  | case2 part b => exact h.addText (hParts part List.mem_cons_self)
  | case3 part parts b _ ih =>
    obtain ⟨hPart, hParts⟩ := List.forall_mem_cons.1 hParts
    exact ih (h.addText hPart).newLine hParts

theorem OnLines.addTokens (h : b.OnLines) (text : List Char) (tokens : List Token) :
    (b.addTokens merge text tokens).OnLines := by
  fun_induction LineBuilder.addTokens merge text tokens b with
  | case1 => exact h
  | case2 text t tokens b here rest hSplit ih =>
    exact ih (h.addParts fun part hPart => not_mem_of_mem_splitOn hPart)

/-- Tokens that lie one after another, the first of them right after `passed`, and the last of
them at the end of the text. -/
structure Tiles (passed text : List Char) (tokens : List Token) : Prop where
  first : ∀ t ∈ tokens.head?, t.start = byteLength passed
  bounds : ∀ t ∈ tokens, t.start ≤ t.stop ∧ Boundary (passed ++ text) t.stop
  adjacent : tokens.IsChain fun a b => b.start = a.stop
  last : ∀ t ∈ tokens.getLast?, t.stop = byteLength (passed ++ text)
  empty : tokens = [] → text = []

/-- The first token takes up the start of the text, and the others lie behind it. -/
theorem Tiles.exists_append {passed text : List Char} {t : Token} {tokens : List Token}
    (h : Tiles passed text (t :: tokens)) :
    ∃ here rest, text = here ++ rest ∧ byteLength here = t.stop - t.start ∧
      Tiles (passed ++ here) rest tokens := by
  have hStart : t.start = byteLength passed := h.first t rfl
  obtain ⟨hLe, left, right, hText, hStop⟩ := h.bounds t List.mem_cons_self
  -- A token ends behind its start, which is where the text passed so far ends.
  have hHere : ∃ here, left = passed ++ here ∧ text = here ++ right := by
    rcases List.append_eq_append_iff.1 hText with
      ⟨here, hLeft, hRight⟩ | ⟨back, hPassed, hRight⟩
    · exact ⟨here, hLeft, hRight⟩
    · have hLength := congrArg byteLength hPassed
      rw [byteLength_append] at hLength
      obtain rfl : back = [] := byteLength_eq_zero (by omega)
      rw [List.append_nil] at hPassed
      exact ⟨[], by rw [hPassed, List.append_nil], hRight.symm⟩
  obtain ⟨here, rfl, rfl⟩ := hHere
  rw [byteLength_append] at hStop
  refine ⟨here, right, rfl, by omega, ?_, ?_, ?_, ?_, ?_⟩
  · intro u hu
    rw [(List.isChain_cons.1 h.adjacent).1 u hu, byteLength_append, hStop]
  · intro u hu
    rw [List.append_assoc]
    exact h.bounds u (List.mem_cons_of_mem t hu)
  · exact (List.isChain_cons.1 h.adjacent).2
  · intro u hu
    have hLast : u ∈ (t :: tokens).getLast? := by
      rw [List.getLast?_cons, Option.mem_def.1 hu]
      rfl
    rw [List.append_assoc]
    exact h.last u hLast
  · rintro rfl
    have hEnd := h.last t rfl
    rw [byteLength_append, byteLength_append] at hEnd
    exact byteLength_eq_zero (by omega)

theorem chars_addTokens {passed text : List Char} {tokens : List Token}
    (h : Tiles passed text tokens) : (b.addTokens merge text tokens).chars = b.chars ++ text := by
  induction tokens generalizing passed text b with
  | nil => rw [addTokens, h.empty rfl, List.append_nil]
  | cons t tokens ih =>
    obtain ⟨here, rest, rfl, hHere, hRest⟩ := h.exists_append
    rw [addTokens, ← hHere, splitAtByte_append, ih hRest, splitOn_eq,
      chars_addParts (List.splitOn_ne_nil _ _), List.intercalate_splitOn, List.append_assoc]

theorem intercalate_lines : ['\n'].intercalate (b.lines.map Line.chars) = b.chars := by
  obtain ⟨complete, pieces⟩ := b
  have hLines : ∀ (ls : List Line) (last : Line),
      ['\n'].intercalate ((ls ++ [last]).map Line.chars) =
        ls.flatMap (fun line => Line.chars line ++ ['\n']) ++ Line.chars last := by
    intro ls last
    induction ls with
    | nil => simp [List.intercalate]
    | cons line ls ih =>
      rw [List.cons_append, List.map_cons, List.intercalate_cons_of_ne_nil (by simp), ih]
      simp
  rw [lines, newLine, List.reverse_cons, hLines]
  rfl

theorem OnLines.lines (h : b.OnLines) : ∀ line ∈ b.lines, ∀ p ∈ line, Piece.OnLine p := by
  intro line hLine
  exact h.newLine.complete line (List.mem_reverse.1 hLine)

end LineBuilder

open LineBuilder

theorem Partition.tiles {text : List Char} {tokens : List Token}
    (h : Partition (.ofList text) tokens) : Tiles [] text tokens := by
  refine ⟨h.first, fun t ht => ?_, h.adjacent.imp fun _ _ hBoth => hBoth.1, fun t ht => ?_,
    fun hNil => ?_⟩
  · refine ⟨Nat.le_of_lt (h.nonempty t ht), ?_⟩
    simpa using boundary_toList_iff.2 (h.boundary t ht).2
  · rw [h.last t ht, ← byteLength_toList, String.toList_ofList, List.nil_append]
  · simpa using congrArg String.toList (h.empty.1 hNil)

theorem tiles_plainTokens (text : List Char) : Tiles [] text (plainTokens text).tokens := by
  unfold plainTokens
  dsimp only
  split
  · next hText => exact ⟨nofun, nofun, .nil, nofun, fun _ => hText⟩
  · refine ⟨?_, ?_, List.isChain_singleton _, ?_, nofun⟩
    · simp [byteLength]
    · intro t ht
      obtain rfl := List.mem_singleton.1 ht
      exact ⟨Nat.zero_le _, text, [], by simp, rfl⟩
    · simp

namespace Code

variable {language : String} {text : List Char} {found : Tokens} {illegal merge : Bool}

/-- The lines of highlighted code, with newlines between them, are its text. -/
theorem intercalate_ofTokens (h : Tiles [] text found.tokens) :
    ['\n'].intercalate ((ofTokens language text found illegal merge).lines.map Line.chars) =
      text := by
  rw [ofTokens, intercalate_lines, chars_addTokens h]
  rfl

theorem onLine_ofTokens :
    ∀ line ∈ (ofTokens language text found illegal merge).lines, ∀ p ∈ line, p.OnLine := by
  have hEmpty : empty.OnLines := ⟨nofun, nofun⟩
  exact (hEmpty.addTokens text found.tokens).lines

end Code

end Highlighter
