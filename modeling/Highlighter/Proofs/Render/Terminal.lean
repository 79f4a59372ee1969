import Highlighter.Proofs.Code
import Highlighter.Proofs.Render.Options
import Highlighter.Render.Terminal

/-! What a terminal shows of highlighted code. `withoutLooks?` takes the sequences that set the look
out of what is sent, and leaves the lines, each after its number in a column of its own. -/

namespace Highlighter

open Text

/-- The character that starts each sequence which sets the look. -/
def escapeCharacter : Char := '\x1b'

/-- A place among what is sent: in the text, right after the escape character, or
among the codes of a look. -/
inductive LookPlace
  | text
  | escape
  | codes

/-- What is sent to a terminal without the sequences that set the look: the escape character and a
bracket, then numbers between semicolons up to the letter m. There is no result if the escape
character stands elsewhere. -/
def withoutLooks? : LookPlace → List Char → Option (List Char)
  | .text, [] => some []
  | .text, c :: cs =>
    if c = escapeCharacter then withoutLooks? .escape cs else (withoutLooks? .text cs).map (c :: ·)
  | .escape, c :: cs => if c = '[' then withoutLooks? .codes cs else none
  | .codes, c :: cs =>
    if c = 'm' then withoutLooks? .text cs
    else if c.isDigit || c == ';' then withoutLooks? .codes cs
    else none
  | .escape, [] => none
  | .codes, [] => none

theorem withoutLooks?_append {cs : List Char} (h : escapeCharacter ∉ cs) (rest : List Char) :
    withoutLooks? .text (cs ++ rest) = (withoutLooks? .text rest).map (cs ++ ·) := by
  induction cs with
  | nil => simp
  | cons c cs ih =>
    rw [List.mem_cons, not_or] at h
    rw [List.cons_append, withoutLooks?, if_neg (Ne.symm h.1), ih h.2]
    simp [Function.comp_def]

theorem withoutLooks?_codes {cs : List Char} (h : ∀ c ∈ cs, c.isDigit ∨ c = ';')
    (rest : List Char) : withoutLooks? .codes (cs ++ 'm' :: rest) = withoutLooks? .text rest := by
  induction cs with
  | nil => rfl
  | cons c cs ih =>
    obtain ⟨hHead, hTail⟩ := List.forall_mem_cons.1 h
    have hNe : c ≠ 'm' := by
      rintro rfl
      exact absurd hHead (by decide)
    rw [List.cons_append, withoutLooks?, if_neg hNe, if_pos (by simpa using hHead), ih hTail]

namespace TerminalToken

def chars : TerminalToken → List Char
  | look _ => []
  | text s => s.toList

theorem isDigit_or_eq_of_mem_codes {codes : List Nat} {c : Char}
    (h : c ∈ (";".intercalate (codes.map toString)).toList) : c.isDigit ∨ c = ';' := by
  rw [String.toList_intercalate, List.map_map] at h
  induction codes with
  | nil => simp at h
  | cons code codes ih =>
    have hCode : c ∈ (toString code).toList → c.isDigit := fun hMem => by
      rw [Nat.toString_eq_repr, Nat.toList_repr] at hMem
      exact Nat.isDigit_of_mem_toDigits (by decide) (by decide) hMem
    cases codes with
    | nil => exact .inl (hCode (by simpa using h))
    | cons next codes =>
      rw [List.map_cons, List.intercalate_cons_of_ne_nil (by simp), List.append_assoc,
        List.mem_append, List.mem_append] at h
      rcases h with h | h | h
      · exact .inl (hCode h)
      · exact .inr (by simpa using h)
      · exact ih h

theorem withoutLooks?_write {t : TerminalToken} (h : escapeCharacter ∉ t.chars)
    (rest : List Char) :
    withoutLooks? .text (t.write.toList ++ rest) =
      (withoutLooks? .text rest).map (t.chars ++ ·) := by
  cases t with
  | text s => exact withoutLooks?_append h rest
  | look codes =>
    have hWrite : (look codes).write.toList ++ rest = escapeCharacter :: '[' ::
        ((";".intercalate (codes.map toString)).toList ++ 'm' :: rest) := by
      simp [write, escapeCharacter]
    rw [hWrite, withoutLooks?, if_pos rfl, withoutLooks?, if_pos rfl,
      withoutLooks?_codes fun c hc => isDigit_or_eq_of_mem_codes hc]
    simp [chars]

theorem withoutLooks?_flatMap_write {ts : List TerminalToken}
    (h : ∀ t ∈ ts, escapeCharacter ∉ t.chars) (rest : List Char) :
    withoutLooks? .text (ts.flatMap (·.write.toList) ++ rest) =
      (withoutLooks? .text rest).map (ts.flatMap (·.chars) ++ ·) := by
  induction ts with
  | nil => simp
  | cons t ts ih =>
    obtain ⟨hHead, hTail⟩ := List.forall_mem_cons.1 h
    rw [List.flatMap_cons, List.append_assoc, withoutLooks?_write hHead, ih hTail]
    simp [Function.comp_def]

theorem withoutLooks?_intercalate {lines : List (List TerminalToken)}
    (h : ∀ line ∈ lines, ∀ t ∈ line, escapeCharacter ∉ t.chars) :
    withoutLooks? .text (['\n'].intercalate (lines.map (·.flatMap (·.write.toList)))) =
      some (['\n'].intercalate (lines.map (·.flatMap (·.chars)))) := by
  induction lines with
  | nil => simp [withoutLooks?]
  | cons line lines ih =>
    obtain ⟨hLine, hLines⟩ := List.forall_mem_cons.1 h
    cases lines with
    | nil =>
      have hAlone := withoutLooks?_flatMap_write hLine []
      simpa [withoutLooks?] using hAlone
    | cons next lines =>
      have hNewline : escapeCharacter ∉ ['\n'] := by decide +kernel
      rw [List.map_cons, List.map_cons (l := next :: lines),
        List.intercalate_cons_of_ne_nil (by simp), List.intercalate_cons_of_ne_nil (by simp),
        List.append_assoc, withoutLooks?_flatMap_write hLine,
        withoutLooks?_append hNewline, ih hLines]
      simp

end TerminalToken

/-- A line as a terminal shows it. If there are numbers, its number stands at the end of a column
`width` wide, with two blanks before the column and one after it. -/
def ShownLine.row (numbers : Bool) (width : Nat) (l : ShownLine) : List Char :=
  (if numbers then [' ', ' '] ++ l.number.leftpad width ' ' ++ [' '] else []) ++ l.text

/-- Lines without the one after the last newline, if there is nothing in it. -/
def withoutFinalLine (lines : List Line) : List Line :=
  if lines.getLast? = some [] ∧ 1 < lines.length then lines.dropLast else lines

theorem mem_of_mem_withoutFinalLine {lines : List Line} {line : Line}
    (h : line ∈ withoutFinalLine lines) : line ∈ lines := by
  unfold withoutFinalLine at h
  split at h
  · exact List.dropLast_subset lines h
  · exact h

namespace Theme

variable {t : Theme} {o : RenderOptions} {code : Code}

theorem isFinalNewline_iff {lines : List Line} {l : Line × Nat} (h : l ∈ lines.zipIdx) :
    isFinalNewline lines.length l.2 l.1 ↔
      l.2 + 1 = lines.length ∧ lines.getLast? = some [] ∧ 1 < lines.length := by
  have hPlace : l.2 + 1 = lines.length → lines.getLast? = some l.1 := fun hEq => by
    rw [List.getLast?_eq_getElem?, ← hEq, Nat.add_sub_cancel]
    exact List.mem_zipIdx_iff_getElem?.1 h
  simp only [isFinalNewline, Bool.and_eq_true, beq_iff_eq, List.isEmpty_iff, decide_eq_true_eq]
  constructor
  · rintro ⟨⟨hEq, hEmpty⟩, hCount⟩
    exact ⟨hEq, hEmpty ▸ hPlace hEq, hCount⟩
  · rintro ⟨hEq, hLast, hCount⟩
    rw [hPlace hEq] at hLast
    exact ⟨⟨hEq, Option.some.inj hLast⟩, hCount⟩

theorem terminalLines_eq :
    t.terminalLines code o = (o.shown (withoutFinalLine code.lines)).map fun l =>
      t.lineTokens o (o.lineNumberWidth code.lines.length) l.2 l.1 := by
  rw [← RenderOptions.filterMap_zipIdx]
  unfold terminalLines withoutFinalLine
  dsimp only
  split
  · -- The places of the lines before the last one stay as they are without it.
    next hFinal =>
    obtain ⟨init, hLines⟩ := List.getLast?_eq_some_iff.1 hFinal.1
    have hLength : code.lines.length = init.length + 1 := by
      rw [hLines, List.length_append, List.length_singleton]
    have hZip : code.lines.zipIdx = init.zipIdx ++ [([], init.length)] := by
      rw [hLines, List.zipIdx_append]
      simp
    have hLast : isFinalNewline code.lines.length init.length [] = true :=
      (isFinalNewline_iff (l := ([], init.length)) (by simp [hZip])).2 ⟨hLength.symm, hFinal⟩
    rw [hZip, List.filterMap_append, hLines, List.dropLast_concat, ← hLines]
    simp only [List.filterMap_cons, List.filterMap_nil, hLast, Bool.true_or, if_true,
      List.append_nil]
    refine List.filterMap_congr fun l hl => ?_
    have hNot : isFinalNewline code.lines.length l.2 l.1 = false := by
      have hPlace := List.snd_lt_of_mem_zipIdx hl
      rw [← Bool.not_eq_true, isFinalNewline_iff (by simp [hZip, hl])]
      omega
    simp [hNot]
  · next hFinal =>
    refine List.filterMap_congr fun l hl => ?_
    have hNot : isFinalNewline code.lines.length l.2 l.1 = false := by
      rw [← Bool.not_eq_true, isFinalNewline_iff hl]
      exact fun h => hFinal h.2
    simp [hNot]

theorem chars_numberTokens (width : Nat) (number : Int) :
    (t.numberTokens width number).flatMap (·.chars) =
      [' ', ' '] ++ (toString number).toList.leftpad width ' ' ++ [' '] := by
  have hCell : ("  " ++ (String.ofList (List.replicate (width - (toString number).length) ' ') ++
      toString number) ++ " ").toList =
        [' ', ' '] ++ (toString number).toList.leftpad width ' ' ++ [' '] := by
    rw [List.leftpad, String.length_toList]
    simp
  unfold numberTokens
  dsimp only
  split
  · simpa only [List.flatMap_cons, List.flatMap_nil, TerminalToken.chars, TerminalToken.reset,
      List.nil_append, List.append_nil] using hCell
  · simpa only [List.flatMap_cons, List.flatMap_nil, TerminalToken.chars,
      List.append_nil] using hCell

theorem chars_terminalTokens (background : Option Color) (p : Piece) :
    (p.terminalTokens t background).flatMap (·.chars) = p.text.toList := by
  simp [Piece.terminalTokens, TerminalToken.chars, TerminalToken.reset]

/-- The places of lines are those that they have among all lines. -/
theorem getElem?_of_mem_shown_withoutFinalLine {lines : List Line} {l : Line × Nat}
    (h : l ∈ o.shown (withoutFinalLine lines)) : lines[l.2]? = some l.1 := by
  have hPlace := List.mem_zipIdx_iff_getElem?.1 (List.mem_filter.1 h).1
  unfold withoutFinalLine at hPlace
  split at hPlace
  · rw [List.getElem?_dropLast] at hPlace
    split at hPlace
    · exact hPlace
    · cases hPlace
  · exact hPlace

theorem flatMap_chars_pieces (t : Theme) (background : Option Color) (pieces : Line) :
    (pieces.flatMap (·.terminalTokens t background)).flatMap (·.chars) = Line.chars pieces := by
  simp only [List.flatMap_assoc, chars_terminalTokens]
  rfl

theorem chars_lineTokens (width index : Nat) (pieces : Line) :
    (t.lineTokens o width index pieces).flatMap (·.chars) =
      ShownLine.row o.lineNumbers width ⟨o.numberChars index, Line.chars pieces⟩ := by
  unfold lineTokens ShownLine.row RenderOptions.numberChars
  dsimp only
  rw [List.flatMap_append, flatMap_chars_pieces]
  congr 1
  split
  · exact chars_numberTokens width (o.lineNumber index)
  · rfl

theorem not_mem_lineTokens {width index : Nat} {pieces : Line}
    (h : ∀ p ∈ pieces, escapeCharacter ∉ p.text.toList) :
    ∀ token ∈ t.lineTokens o width index pieces, escapeCharacter ∉ token.chars := by
  -- What is not the text of a piece is made of blanks, digits and hyphens.
  intro token hToken hEscape
  have hMem : escapeCharacter ∈ (t.lineTokens o width index pieces).flatMap (·.chars) :=
    List.mem_flatMap_of_mem hToken hEscape
  rw [chars_lineTokens, ShownLine.row, List.mem_append] at hMem
  rcases hMem with hMem | hMem
  · have hBlank : escapeCharacter ≠ ' ' := by decide
    have hNumber : escapeCharacter ∉ o.numberChars index := fun hMem => by
      unfold RenderOptions.numberChars at hMem
      split at hMem
      · exact absurd (isDigit_or_eq_of_mem_toString hMem) (by decide)
      · cases hMem
    split at hMem
    · simp [List.leftpad, hBlank, hNumber] at hMem
    · cases hMem
  · obtain ⟨p, hp, hText⟩ := List.mem_flatMap.1 hMem
    exact h p hp hText

/-- Without what sets the look, the lines that are shown are left between newlines, with
their numbers in a column. -/
theorem withoutLooks?_renderTerminal
    (h : ∀ line ∈ code.lines, ∀ p ∈ line, escapeCharacter ∉ p.text.toList) :
    withoutLooks? .text (t.renderTerminal code o).toList =
      some (['\n'].intercalate ((o.shownLines ((withoutFinalLine code.lines).map Line.chars)).map
        (·.row o.lineNumbers (o.lineNumberWidth code.lines.length)))) := by
  have hWrite : (t.renderTerminal code o).toList =
      ['\n'].intercalate ((t.terminalLines code o).map (·.flatMap (·.write.toList))) := by
    simp [renderTerminal, String.toList_intercalate, String.toList_join, Function.comp_def,
      List.flatMap_map]
  have hNone : ∀ line ∈ t.terminalLines code o, ∀ token ∈ line,
      escapeCharacter ∉ token.chars := by
    intro line hLine
    rw [terminalLines_eq] at hLine
    obtain ⟨l, hl, rfl⟩ := List.mem_map.1 hLine
    have hMem : l.1 ∈ code.lines :=
      mem_of_mem_withoutFinalLine (RenderOptions.mem_of_mem_shown hl)
    exact not_mem_lineTokens (h l.1 hMem)
  rw [hWrite, TerminalToken.withoutLooks?_intercalate hNone, terminalLines_eq,
    RenderOptions.shownLines_map, List.map_map, List.map_map]
  simp only [Function.comp_def, chars_lineTokens]

end Theme

/-! ### Columns of line numbers -/

/-- A number stands at the end of a column `width` wide, with two blanks before the
column and one after it. -/
def IsColumn (width : Nat) (number column : List Char) : Prop :=
  ∃ blanks, blanks + number.length = width ∧
    column = [' ', ' '] ++ (List.replicate blanks ' ' ++ number) ++ [' ']

theorem IsColumn.length_eq {width : Nat} {number column : List Char}
    (h : IsColumn width number column) : column.length = width + 3 := by
  obtain ⟨blanks, rfl, rfl⟩ := h
  simp only [List.length_append, List.length_cons, List.length_nil, List.length_replicate]
  omega

theorem isColumn_leftpad {width : Nat} {number : List Char} (h : number.length ≤ width) :
    IsColumn width number ([' ', ' '] ++ number.leftpad width ' ' ++ [' ']) :=
  ⟨width - number.length, Nat.sub_add_cancel h, rfl⟩

namespace Theme

/-- The room for line numbers is enough for each of them, whatever number the first line has: also
where numbers lose their sign on the way, and where they come to the greatest one. So each line that
is shown stands behind its number in a column, and all columns are of one width. -/
theorem columns_terminalLines (t : Theme) (code : Code) (o : RenderOptions) :
    (∀ count index, index < count →
      (toString (o.lineNumber index)).length ≤ o.lineNumberWidth count) ∧
    (o.lineNumbers = true → ∀ line ∈ t.terminalLines code o, ∃ index pieces gutter rest,
      code.lines[index]? = some pieces ∧ line = gutter ++ rest ∧
      rest.flatMap (·.chars) = Line.chars pieces ∧
      IsColumn (o.lineNumberWidth code.lines.length) (toString (o.lineNumber index)).toList
        (gutter.flatMap (·.chars)) ∧
      (gutter.flatMap (·.chars)).length = o.lineNumberWidth code.lines.length + 3) := by
  refine ⟨fun count index => RenderOptions.length_lineNumber_le, fun hNumbers line hLine => ?_⟩
  rw [terminalLines_eq] at hLine
  obtain ⟨⟨pieces, index⟩, hShown, rfl⟩ := List.mem_map.1 hLine
  have hPieces : code.lines[index]? = some pieces := getElem?_of_mem_shown_withoutFinalLine hShown
  have hRoom :
      (toString (o.lineNumber index)).toList.length ≤ o.lineNumberWidth code.lines.length := by
    rw [String.length_toList]
    exact RenderOptions.length_lineNumber_le (List.getElem?_eq_some_iff.1 hPieces).1
  have hColumn := isColumn_leftpad hRoom
  rw [← chars_numberTokens (t := t)] at hColumn
  exact ⟨index, pieces, _, _, hPieces, by rw [lineTokens, if_pos hNumbers],
    flatMap_chars_pieces t _ pieces, hColumn, hColumn.length_eq⟩

/-- The numbers of three lines around zero. -/
def aroundZero : RenderOptions where
  lineNumbers := true
  firstNumber := -1

/-- Three lines of a character each. -/
def threeCharacters : Code where
  language := "co"
  relevance := 0
  illegal := false
  regions := []
  lines := [[⟨"a", []⟩], [⟨"b", []⟩], [⟨"c", []⟩]]

/-- The column has room for the sign that only the first number has. -/
theorem columns_aroundZero : aroundZero.lineNumbers = true ∧
    (toString (aroundZero.lineNumber 1)).length ≤ aroundZero.lineNumberWidth 3 ∧
    ∀ line ∈ light.terminalLines threeCharacters aroundZero, ∃ gutter rest,
      line = gutter ++ rest ∧
      (gutter.flatMap (·.chars)).length = 5 := by
  obtain ⟨hRoom, hColumns⟩ := columns_terminalLines .light threeCharacters aroundZero
  refine ⟨rfl, hRoom 3 1 (by decide), fun line hLine => ?_⟩
  obtain ⟨index, pieces, gutter, rest, -, hEq, -, -, hLength⟩ := hColumns rfl line hLine
  have hWidth : aroundZero.lineNumberWidth threeCharacters.lines.length + 3 = 5 := by decide +kernel
  exact ⟨gutter, rest, hEq, hLength.trans hWidth⟩

end Theme

end Highlighter
