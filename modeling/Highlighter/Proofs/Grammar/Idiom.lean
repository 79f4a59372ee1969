import Highlighter.Grammar.Idiom
import Highlighter.Proofs.Pattern.OpeningWords
import Highlighter.Proofs.Pattern.Signs

/-! A text as a pattern. Each of its characters that has a meaning in patterns is escaped; the
escapes are none of those that are spelled out, and each is read as the character behind its
backslash, so that the pattern comes to the program of a literal. -/

namespace Highlighter

open Text Pattern

namespace Idiom

def escapeChar (c : Char) : List Char := if metacharacters.contains c then ['\\', c] else [c]

theorem toList_escapePattern (text : String) :
    (escapePattern text).toList = text.toList.flatMap escapeChar :=
  String.toList_ofList

/-- Just the characters that have a meaning in patterns are escaped. -/
theorem escapeChar_cases (c : Char) :
    let escaped := ['\\', '^', '$', '.', '|', '?', '*', '+', '(', ')', '[', ']', '\x7b',
      '\x7d', '/', '-']
    c ∈ escaped ∧ escapeChar c = ['\\', c] ∨ c ∉ escaped ∧ escapeChar c = [c] := by
  intro escaped
  have hEscaped : metacharacters = escaped := by decide
  rw [escapeChar, hEscaped]
  by_cases hc : c ∈ escaped
  · exact .inl ⟨hc, if_pos (List.contains_iff_mem.2 hc)⟩
  · exact .inr ⟨hc, if_neg (mt List.contains_iff_mem.1 hc)⟩

theorem whole_escapeChar (c : Char) : Whole 0 (escapeChar c) := by
  obtain ⟨hEscaped, hEq⟩ | ⟨hNone, hEq⟩ := escapeChar_cases c
  · rw [hEq]
    apply whole_escape
    fin_cases hEscaped <;> decide
  · rw [hEq]
    apply whole_char
    simp_all

theorem spellOut_flatMap_escapeChar (cs : List Char) :
    spellOut 0 false (cs.flatMap escapeChar) = cs.flatMap escapeChar := by
  refine spellOut_of_settled ?_
  induction cs with
  | nil => exact nofun
  | cons c cs ih =>
    obtain ⟨ss, hSettled, hSigns⟩ := whole_escapeChar c
    rw [List.flatMap_cons, hSigns]
    exact fun s hs => (List.mem_append.1 hs).elim (hSettled s) (ih s)

theorem readsParts_escapeChar (c : Char) :
    Reader.ReadsParts 0 (escapeChar c) [.literal [c] false] := by
  obtain ⟨hEscaped, hEq⟩ | ⟨hNone, hEq⟩ := escapeChar_cases c
  · rw [hEq]
    refine .of_step fun r rest hOptions _ => ?_
    have hStep : r.step '\\' (c :: rest) = .ok (r.push (.literal [c] r.options.fold), rest) := by
      fin_cases hEscaped <;> rfl
    rw [List.singleton_append, hStep, hOptions]
    rfl
  · rw [hEq]
    apply Reader.readsParts_char
    simp_all

theorem readTree_flatMap_escapeChar (cs : List Char) (captureAll : Bool) :
    readTree ⟨false, captureAll⟩ (cs.flatMap escapeChar) = .ok (.literal cs false) := by
  have hParts : Reader.ReadsParts 0 (cs.flatMap escapeChar) (cs.map fun c => .literal [c] false) :=
    Reader.readsParts_flatMap fun c _ => readsParts_escapeChar c
  have hRun := (hParts (.start .plain) [] [] rfl (by decide)).run_eq
  refine readTree_of_references _ hRun ?_ rfl rfl
  rw [List.append_nil]
  show Except.ok (Tree.ofParts (List.reverse (List.reverse _))) = _
  rw [List.reverse_reverse, Tree.ofParts_chars]

theorem compile_flatMap_escapeChar (cs : List Char) (captureAll : Bool) :
    compile ⟨false, captureAll⟩ (cs.flatMap escapeChar) = .ok (Program.literal cs) := by
  rw [compile_of_groups (readTree_flatMap_escapeChar cs captureAll) rfl]
  rfl

end Idiom

namespace Text.Cursor

/-- The place past a text is there if the text goes on with it, and so far behind. -/
theorem map_past? (c : Cursor) (cs : List Char) :
    (c.past? cs).map (fun d => (⟨c, d⟩ : Span).length) =
      if cs <+: c.after then some (byteLength cs) else none := by
  split
  · next hPrefix =>
    obtain ⟨rest, hAfter⟩ := hPrefix
    obtain ⟨d, hPast⟩ := exists_past? hAfter.symm
    have hOffset := (after_of_past? hPast).2
    rw [hPast, Option.map_some, Span.length]
    simp [hOffset]
  · next hNone =>
    cases hPast : c.past? cs with
    | none => rfl
    | some d => exact absurd ⟨d.after, (after_of_past? hPast).1.symm⟩ hNone

end Text.Cursor

/-- A text can be searched for literally. Its pattern compiles, to the same program whether it
stands alone or is one of the terminators of a mode, and matches at a place if and only if what
follows there starts with the text; then it matches just as many bytes as the text has. -/
theorem Regex.matchAt?_escapePattern (text : String) :
    let r := Regex.ofPattern (Idiom.escapePattern text) false
    r.fault? = none ∧
    (∀ captureAll,
      (Pattern.compile ⟨false, captureAll⟩ (asciiClasses r.pattern).toList) = r.program) ∧
    ∀ c, (r.matchAt? c).map (fun d => (⟨c, d⟩ : Span).length) =
      if text.toList <+: c.after then some text.utf8ByteSize else none := by
  intro r
  have hCompile :
      ∀ captureAll, Pattern.compile ⟨false, captureAll⟩ (asciiClasses r.pattern).toList =
        .ok (Program.literal text.toList) := by
    intro captureAll
    show Pattern.compile _ (asciiClasses (Idiom.escapePattern text)).toList = _
    rw [toList_asciiClasses, Idiom.toList_escapePattern, Idiom.spellOut_flatMap_escapeChar]
    exact Idiom.compile_flatMap_escapeChar text.toList captureAll
  have hProgram : r.program = .ok (.literal text.toList) := hCompile false
  refine ⟨?_, fun captureAll => (hCompile captureAll).trans hProgram.symm, fun c => ?_⟩
  · rw [Regex.fault?, hProgram]
  · have hMatch : r.matchAt? c = c.past? text.toList := by
      rw [Regex.matchAt?, hProgram]
      show ((Program.literal _).run ⟨c, []⟩ some).map _ = _
      rw [Program.run_literal]
      cases c.past? text.toList <;> rfl
    rw [hMatch, Cursor.map_past?, byteLength_toList]

example : Idiom.escapePattern "\\w[0-9]é" = "\\\\w\\[0\\-9\\]é" := by decide

end Highlighter
