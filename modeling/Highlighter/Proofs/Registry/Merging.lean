import Highlighter.Proofs.Registry.Lines

/-! Merging the pieces of a line. Pieces that are merged differ from their neighbours in their
categories, whatever tokens they are made from. The tokens of a text differ from their neighbours
already, and none is empty: where a token goes on in a line it has left a piece there, so that the
piece before it is that of the token before it. Thus there is never anything to merge. -/

namespace Highlighter

open Text

/-- No two neighbouring pieces have the same categories. -/
def Line.Varied (line : Line) : Prop := line.IsChain fun p q => p.categories ≠ q.categories

theorem Line.Varied.reverse {line : Line} (h : line.Varied) : Line.Varied line.reverse :=
  List.isChain_reverse.2 (h.imp fun _ _ hNe => hNe.symm)

namespace LineBuilder

/-- All lines are varied. The last one is listed from its end. -/
structure Varied (b : LineBuilder) : Prop where
  complete : ∀ line ∈ b.complete, Line.Varied line
  pieces : Line.Varied b.pieces

variable {b : LineBuilder} {merge : Bool} {categories : List Category}

theorem Varied.addText (h : b.Varied) (text : List Char) :
    (b.addText true categories text).Varied := by
  obtain ⟨complete, pieces⟩ := b
  unfold LineBuilder.addText
  split
  · exact h
  · cases pieces with
    | nil => exact ⟨h.complete, List.isChain_singleton _⟩
    | cons last pieces =>
      dsimp only
      split
      · -- The piece has grown, and its categories are the same.
        exact ⟨h.complete, List.isChain_cons.2 (List.isChain_cons.1 h.pieces)⟩
      · next hNe =>
        refine ⟨h.complete, List.isChain_cons_cons.2 ⟨fun hEq => hNe ?_, h.pieces⟩⟩
        simpa using hEq.symm

theorem Varied.newLine (h : b.Varied) : b.newLine.Varied :=
  ⟨List.forall_mem_cons.2 ⟨h.pieces.reverse, h.complete⟩, .nil⟩

theorem addParts_cons_cons (part next : List Char) (parts : List (List Char)) :
    b.addParts merge categories (part :: next :: parts) =
      (b.addText merge categories part).newLine.addParts merge categories (next :: parts) := rfl

theorem Varied.addParts (h : b.Varied) (parts : List (List Char)) :
    (b.addParts true categories parts).Varied := by
  induction parts generalizing b with
  | nil => exact h
  | cons part parts ih =>
    cases parts with
    | nil => exact h.addText part
    | cons next parts => exact ih (h.addText part).newLine

theorem Varied.addTokens (h : b.Varied) (text : List Char) (tokens : List Token) :
    (b.addTokens true text tokens).Varied := by
  induction tokens generalizing b text with
  | nil => exact h
  | cons t tokens ih => exact ih (h.addParts _) _

theorem Varied.lines (h : b.Varied) : ∀ line ∈ b.lines, Line.Varied line :=
  fun line hLine => h.newLine.complete line (List.mem_reverse.1 hLine)

/-- The last piece of the line at hand has other categories, if there is one. -/
def Free (b : LineBuilder) (categories : List Category) : Prop :=
  ∀ p ∈ b.pieces.head?, p.categories ≠ categories

theorem free_newLine : b.newLine.Free categories := nofun

theorem addText_of_free (h : b.Free categories) (text : List Char) :
    b.addText merge categories text = b.addText false categories text := by
  obtain ⟨complete, pieces⟩ := b
  cases pieces with
  | nil => rfl
  | cons last pieces =>
    have hLast : last.categories ≠ categories := h last rfl
    simp [addText, hLast]

/-- All parts but the first one start a line. -/
theorem addParts_of_free (h : b.Free categories) (parts : List (List Char)) :
    b.addParts merge categories parts = b.addParts false categories parts := by
  induction parts generalizing b with
  | nil => rfl
  | cons part parts ih =>
    cases parts with
    | nil => exact addText_of_free h part
    | cons next parts =>
      rw [addParts_cons_cons, addParts_cons_cons, addText_of_free h]
      exact ih free_newLine

/-- The last piece of the line at hand has these categories, if there is one. -/
def EndsIn (b : LineBuilder) (categories : List Category) : Prop :=
  ∀ p ∈ b.pieces.head?, p.categories = categories

theorem EndsIn.free {other : List Category} (h : b.EndsIn categories) (hNe : categories ≠ other) :
    b.Free other :=
  fun p hp hEq => hNe ((h p hp).symm.trans hEq)

theorem endsIn_addText {text : List Char} (h : text ≠ [] ∨ b.EndsIn categories) :
    (b.addText merge categories text).EndsIn categories := by
  obtain ⟨complete, pieces⟩ := b
  unfold addText
  split
  · next hNil => exact h.resolve_left (not_not.2 hNil)
  · cases pieces with
    | nil => simp [EndsIn]
    | cons last pieces =>
      dsimp only
      split
      · next hSame => simp_all [EndsIn]
      · simp [EndsIn]

theorem endsIn_addParts {parts : List (List Char)}
    (h : parts ≠ [] ∧ parts ≠ [[]] ∨ b.EndsIn categories) :
    (b.addParts merge categories parts).EndsIn categories := by
  induction parts generalizing b with
  | nil => exact h.resolve_left fun hNe => hNe.1 rfl
  | cons part parts ih =>
    cases parts with
    | nil => exact endsIn_addText (h.imp_left fun hNe hNil => hNe.2 (by rw [hNil]))
    | cons next parts => exact ih (.inr nofun)

theorem splitOn_ne_singleton_nil {separator : Char} {cs : List Char} (h : cs ≠ []) :
    splitOn separator cs ≠ [[]] := by
  intro hEq
  have hJoined : [separator].intercalate (splitOn separator cs) = cs := by
    rw [splitOn_eq, List.intercalate_splitOn]
  rw [hEq] at hJoined
  exact h hJoined.symm

/-- Tokens that take up some text each and differ from their neighbours leave nothing to merge. -/
theorem addTokens_of_free {passed text : List Char} {tokens : List Token}
    (h : Tiles passed text tokens) (hNonempty : ∀ t ∈ tokens, t.start < t.stop)
    (hVaried : tokens.IsChain fun a b => a.categories ≠ b.categories)
    (hFree : ∀ t ∈ tokens.head?, b.Free t.categories) :
    b.addTokens merge text tokens = b.addTokens false text tokens := by
  induction tokens generalizing passed text b with
  | nil => rfl
  | cons t tokens ih =>
    obtain ⟨here, rest, rfl, hHere, hRest⟩ := h.exists_append
    obtain ⟨hToken, hTokens⟩ := List.forall_mem_cons.1 hNonempty
    obtain ⟨hNext, hChain⟩ := List.isChain_cons.1 hVaried
    have hFilled : here ≠ [] := by
      rintro rfl
      rw [byteLength] at hHere
      omega
    have hEnds : (b.addParts false t.categories (splitOn '\n' here)).EndsIn t.categories := by
      refine endsIn_addParts (.inl ⟨?_, splitOn_ne_singleton_nil hFilled⟩)
      rw [splitOn_eq]
      exact List.splitOn_ne_nil _ _
    have hParts : b.addParts merge t.categories (splitOn '\n' here) =
        b.addParts false t.categories (splitOn '\n' here) := addParts_of_free (hFree t rfl) _
    simp only [addTokens, ← hHere, splitAtByte_append, hParts]
    exact ih hRest hTokens hChain fun u hu => hEnds.free (hNext u hu)

end LineBuilder

open LineBuilder

/-- Tokens that tile a text, take up some of it each and differ from their neighbours. -/
structure Tokens.Varied (text : List Char) (found : Tokens) : Prop where
  tiles : Tiles [] text found.tokens
  nonempty : ∀ t ∈ found.tokens, t.start < t.stop
  varied : found.tokens.IsChain fun a b => a.categories ≠ b.categories

theorem varied_plainTokens (text : List Char) : (plainTokens text).Varied text := by
  refine ⟨tiles_plainTokens text, ?_, ?_⟩
  · unfold plainTokens
    split
    · exact nofun
    · next hNe =>
      have hPos : 0 < byteLength text :=
        Nat.pos_of_ne_zero fun hZero => hNe (byteLength_eq_zero hZero)
      simpa using hPos
  · unfold plainTokens
    split
    · exact .nil
    · exact List.isChain_singleton _

theorem Tokenizer.varied_of_tokenize_eq_ok {m : Machine} {text : List Char} {found : Tokens}
    (h : m.tokenize (.ofList text) = .ok found) : found.Varied text := by
  have hPartition := (Tokenizer.describes_tokenize h).partition
  exact ⟨hPartition.tiles, hPartition.nonempty,
    hPartition.adjacent.imp fun _ _ hBoth => hBoth.2⟩

namespace Code

variable {language : String} {text : List Char} {found : Tokens} {illegal : Bool}

theorem ofTokens_merge (h : found.Varied text) (merge : Bool) :
    ofTokens language text found illegal merge = ofTokens language text found illegal false := by
  have hFree : ∀ t ∈ found.tokens.head?, empty.Free t.categories := fun _ _ _ hp => nomatch hp
  unfold ofTokens
  rw [addTokens_of_free h.tiles h.nonempty h.varied hFree]

theorem varied_ofTokens :
    ∀ line ∈ (ofTokens language text found illegal true).lines, line.Varied := by
  have hEmpty : empty.Varied := ⟨nofun, .nil⟩
  exact (hEmpty.addTokens text found.tokens).lines

end Code

namespace Registry

theorem highlightBy_merge (m : Machine) (language : String) (text : List Char) (merge : Bool) :
    highlightBy m language text merge = highlightBy m language text false := by
  unfold highlightBy
  split
  · next found hFound => rw [Code.ofTokens_merge (Tokenizer.varied_of_tokenize_eq_ok hFound)]
  · rw [Code.ofTokens_merge (varied_plainTokens text)]
  · rfl

theorem highlight_eq_of_merge (r : Registry) (content : String) (request : Request) :
    r.highlight content request = r.highlight content { request with merge := false } := by
  unfold highlight
  dsimp only
  split
  · rw [highlightBy_merge]
  · split
    · split
      · rw [highlightBy_merge]
      · rw [Code.ofTokens_merge (varied_plainTokens _)]
    · rfl

/-- Merging makes no difference. A text is highlighted in the same way whether or not neighbouring
pieces with the same categories are merged, whatever the registry, the language and what is done if
it is unknown, and in either case no two neighbouring pieces of a line have the same categories. -/
theorem highlight_merge (r : Registry) (content language : String) (plainFallback : Bool) :
    r.highlight content ⟨language, true, plainFallback⟩ =
      r.highlight content ⟨language, false, plainFallback⟩ ∧
    ∀ merge code, r.highlight content ⟨language, merge, plainFallback⟩ = .ok code →
      ∀ line ∈ code.lines, line.IsChain fun p q => p.categories ≠ q.categories := by
  have hMerge := highlight_eq_of_merge r content ⟨language, true, plainFallback⟩
  refine ⟨hMerge, fun merge code hCode => ?_⟩
  have hMerged : r.highlight content ⟨language, true, plainFallback⟩ = .ok code := by
    rw [hMerge, ← hCode]
    exact (highlight_eq_of_merge r content ⟨language, merge, plainFallback⟩).symm
  obtain ⟨_, found, illegal, -, rfl⟩ := exists_tiles_of_highlight_eq_ok hMerged
  exact Code.varied_ofTokens

/-- A value goes on over an empty line, and the pieces of the line behind it stay apart. -/
theorem highlight_merge_known :
    let lines : List Line := [[⟨"<a", [.metadata]⟩], [⟨"=b", [.metadata, .title]⟩], [],
      [⟨";", [.metadata, .title]⟩, ⟨">", [.metadata]⟩, ⟨"c", []⟩]]
    ∃ code, known.highlight "<a\n=b\n\n;>c" ⟨"Assignments", false, false⟩ = .ok code ∧
      known.highlight "<a\n=b\n\n;>c" ⟨"Assignments", true, false⟩ = .ok code ∧
      code.lines = lines ∧
      ∀ line ∈ lines, line.IsChain fun p q => p.categories ≠ q.categories := by
  intro lines
  have hLines : (known.highlight "<a\n=b\n\n;>c" ⟨"Assignments", false, false⟩).toOption.map
      (·.lines) = some lines := by decide +kernel
  obtain ⟨code, hSome, hEq⟩ := Option.map_eq_some_iff.1 hLines
  have hCode := eq_ok_of_toOption_eq_some hSome
  obtain ⟨hMerge, hVaried⟩ := highlight_merge known "<a\n=b\n\n;>c" "Assignments" false
  exact ⟨code, hCode, hMerge.trans hCode, hEq, hEq ▸ hVaried false code hCode⟩

end Registry

end Highlighter
