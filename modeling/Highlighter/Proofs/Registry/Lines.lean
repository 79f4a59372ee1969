import Highlighter.Proofs.Code
import Highlighter.Proofs.Registry
import Highlighter.Proofs.Scan.Sound

/-! Highlighting keeps the text: its lines are those of the source, whichever line breaks that
has. -/

namespace Highlighter

open Text

namespace Registry

variable {r : Registry} {content : String} {request : Request} {code : Code}

theorem exists_tiles_of_highlightBy_eq_ok {m : Machine} {language : String} {text : List Char}
    {merge : Bool} (h : highlightBy m language text merge = .ok code) :
    ∃ found illegal, LineBuilder.Tiles [] text found.tokens ∧
      code = .ofTokens language text found illegal merge := by
  unfold highlightBy at h
  split at h
  · next found hFound =>
    cases h
    have hPartition := (Tokenizer.describes_tokenize hFound).partition
    exact ⟨found, false, hPartition.tiles, rfl⟩
  · cases h
    exact ⟨plainTokens text, true, tiles_plainTokens text, rfl⟩
  · cases h

theorem exists_tiles_of_highlight_eq_ok (h : r.highlight content request = .ok code) :
    ∃ language found illegal, LineBuilder.Tiles [] (unifyNewlines content.toList) found.tokens ∧
      code = .ofTokens language (unifyNewlines content.toList) found illegal request.merge := by
  unfold highlight at h
  dsimp only at h
  split at h
  · exact ⟨_, exists_tiles_of_highlightBy_eq_ok h⟩
  · split at h
    · split at h
      · exact ⟨_, exists_tiles_of_highlightBy_eq_ok h⟩
      · cases h
        exact ⟨plainTag, _, false, tiles_plainTokens _, rfl⟩
    · cases h

theorem highlight_congr {other : String}
    (h : unifyNewlines other.toList = unifyNewlines content.toList) :
    r.highlight other request = r.highlight content request := by
  unfold highlight
  rw [h]

theorem intercalate_of_highlight_eq_ok (h : r.highlight content request = .ok code) :
    ['\n'].intercalate (code.lines.map Line.chars) = unifyNewlines content.toList := by
  obtain ⟨language, found, illegal, hTiles, rfl⟩ := exists_tiles_of_highlight_eq_ok h
  exact Code.intercalate_ofTokens hTiles

theorem onLine_of_highlight_eq_ok (h : r.highlight content request = .ok code) :
    ∀ line ∈ code.lines, ∀ p ∈ line, p.OnLine := by
  obtain ⟨language, found, illegal, -, rfl⟩ := exists_tiles_of_highlight_eq_ok h
  exact Code.onLine_ofTokens

theorem lines_of_highlight_eq_ok (h : r.highlight content request = .ok code) :
    code.lines.map Line.chars = linesOf content.toList := by
  have hText := intercalate_of_highlight_eq_ok h
  have hNewline : ∀ cs ∈ code.lines.map Line.chars, '\n' ∉ cs := by
    intro cs hcs
    obtain ⟨line, hLine, rfl⟩ := List.mem_map.1 hcs
    intro hMem
    obtain ⟨p, hp, hc⟩ := List.mem_flatMap.1 hMem
    exact (onLine_of_highlight_eq_ok h line hLine p hp).2 hc
  have hNe : code.lines.map Line.chars ≠ [] := by
    obtain ⟨language, found, illegal, -, rfl⟩ := exists_tiles_of_highlight_eq_ok h
    simp [Code.ofTokens, LineBuilder.lines, LineBuilder.newLine]
  rw [← splitOn_unifyNewlines, ← hText, splitOn_eq, List.splitOn_intercalate _ hNewline hNe]

/-- The text of a piece is part of the text, in which there are no carriage returns. -/
theorem return_not_mem_of_highlight_eq_ok (h : r.highlight content request = .ok code) :
    ∀ line ∈ code.lines, ∀ p ∈ line, '\r' ∉ p.text.toList := by
  intro line hLine p hp hMem
  have hChars : Line.chars line ∈ linesOf content.toList := by
    rw [← lines_of_highlight_eq_ok h]
    exact List.mem_map_of_mem hLine
  exact not_mem_of_mem_linesOf hChars (List.mem_flatMap_of_mem hp hMem)

/-- Highlighting keeps the text. A text in which a registry highlights code comes out line by line,
with a newline for each of its line breaks, in pieces that are not empty and hold no line breaks.
Which line breaks a text has makes no difference to what comes of it. -/
theorem lines_highlight (r : Registry) (content : String) (request : Request) :
    (∀ code, r.highlight content request = .ok code →
      ['\n'].intercalate (code.lines.map Line.chars) = unifyNewlines content.toList ∧
      code.lines.map Line.chars = linesOf content.toList ∧
      ∀ line ∈ code.lines, ∀ p ∈ line,
        p.text ≠ "" ∧ '\n' ∉ p.text.toList ∧ '\r' ∉ p.text.toList) ∧
    (∀ other : String, linesOf other.toList = linesOf content.toList →
      r.highlight other request = r.highlight content request) ∧
    ('\r' ∉ content.toList →
      r.highlight (.ofList (breakBy ['\r', '\n'] content.toList)) request =
        r.highlight content request ∧
      r.highlight (.ofList (breakBy ['\r'] content.toList)) request =
        r.highlight content request) := by
  refine ⟨fun code h => ⟨?_, ?_, ?_⟩, fun other h => ?_, fun h => ⟨?_, ?_⟩⟩
  · exact intercalate_of_highlight_eq_ok h
  · exact lines_of_highlight_eq_ok h
  · intro line hLine p hp
    obtain ⟨hNe, hNewline⟩ := onLine_of_highlight_eq_ok h line hLine p hp
    exact ⟨hNe, hNewline, return_not_mem_of_highlight_eq_ok h line hLine p hp⟩
  · apply highlight_congr
    rw [← intercalate_linesOf, h, intercalate_linesOf]
  · apply highlight_congr
    rw [String.toList_ofList, unifyNewlines_breakBy_pair h, unifyNewlines_of_not_mem h]
  · apply highlight_congr
    rw [String.toList_ofList, unifyNewlines_breakBy_return h, unifyNewlines_of_not_mem h]

/-- A value goes on over two line breaks, and its line, an empty one and the rest of the text come
out. -/
theorem lines_highlight_known :
    '\r' ∉ "<a\n=b;\n\n>c".toList ∧
    (∃ code, known.highlight "<a\n=b;\n\n>c" { language := "Assignments" } = .ok code ∧
      code.lines.map Line.chars = ["<a".toList, "=b;".toList, [], ">c".toList]) ∧
    known.highlight "<a\r\n=b;\r\n\r\n>c" { language := "Assignments" } =
      known.highlight "<a\n=b;\n\n>c" { language := "Assignments" } ∧
    known.highlight "<a\r=b;\r\r>c" { language := "Assignments" } =
      known.highlight "<a\n=b;\n\n>c" { language := "Assignments" } := by
  have hReturn : '\r' ∉ "<a\n=b;\n\n>c".toList := by decide +kernel
  have hLines := lines_highlight known "<a\n=b;\n\n>c" { language := "Assignments" }
  have hOk : (known.highlight "<a\n=b;\n\n>c" { language := "Assignments" }).toOption.isSome := by
    decide +kernel
  obtain ⟨hText, -, hBreaks⟩ := hLines
  refine ⟨hReturn, ⟨_, Grammar.eq_ok_get hOk, ?_⟩, hBreaks hReturn⟩
  rw [(hText _ (Grammar.eq_ok_get hOk)).2.1]
  decide +kernel

end Registry

end Highlighter
