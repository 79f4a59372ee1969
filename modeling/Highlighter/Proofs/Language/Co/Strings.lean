import Highlighter.Proofs.Language.Co.Courses

/-! Strings end at the first quote that is not escaped. Within a string, an escape opens a mode that
covers the backslash and the character behind it and ends right there, so quotes that are escaped
are never searched for. Nothing else that may stand in a string opens a mode or has words, and the
text up to the quote is one region. -/

namespace Highlighter.Co

open Idiom Pattern Text

/-- What may stand between two quotes: characters other than the quote, backslashes and ends of
lines, and any character behind a backslash. -/
inductive StringBody (quote : Char) : List Char → Prop
  | nil : StringBody quote []
  | plain {x : Char} {body : List Char} (hQuote : x ≠ quote) (hBackslash : x ≠ '\\')
      (hLine : x ≠ '\n') (h : StringBody quote body) : StringBody quote (x :: body)
  | escaped (x : Char) {body : List Char} (h : StringBody quote body) :
      StringBody quote ('\\' :: x :: body)

def stringAddress (quote : Char) : Address := .inner .root 3 (if quote = '"' then 0 else 1)

def escapeAddress (quote : Char) : Address := .inner (stringAddress quote) 0 0

def inString (quote : Char) (pending place : Cursor) (lastOpening : Option Nat) : Standing :=
  ⟨[(stringAddress quote, some 0)], [⟨.string, 0, 0, 0⟩], pending, place, lastOpening⟩

theorem compile_escape : compile ⟨false, true⟩ (spellOut 0 false "\\\\[\\s\\S]".toList) =
    .ok (.sequence (.test (.char '\\'))
      (.test (.ofClass ⟨.union (.property .space) (.compl (.property .space)), false⟩))) := by
  decide +kernel

theorem compile_lineFeed :
    compile ⟨false, true⟩ (spellOut 0 false "\\n".toList) = .ok (.test (.char '\n')) := by
  rfl

/-- Whatever character is escaped, it is part of the escape. -/
theorem stop?_escape (left : List Char) (x : Char) (right : List Char) :
    stop? false "\\\\[\\s\\S]" (.between left ('\\' :: x :: right)) =
      some (.between (left ++ ['\\', x]) right) := by
  rw [stop?_eq compile_escape]
  simp [Program.matchFrom, Program.run, Cursor.advance_between, CharTest.has, CharSet.has]

section

variable (v : Version) {quote : Char} (hQuote : quote = '"' ∨ quote = '\'')
include hQuote

theorem compile_quote : compile ⟨false, true⟩ (spellOut 0 false quote.toString.toList) =
    .ok (.test (.char quote)) := by
  rcases hQuote with rfl | rfl <;> rfl

theorem settingsAt_string : (grammar v).settingsAt (stringAddress quote) =
    { category := some .string, opening := some quote.toString, closing := some quote.toString,
      illegal := some "\\n" } := by
  rcases hQuote with rfl | rfl <;> cases v <;> rfl

theorem settingsAt_escape : (grammar v).settingsAt (escapeAddress quote) =
    { opening := some "\\\\[\\s\\S]", relevance := some 0 } := by
  rcases hQuote with rfl | rfl <;> cases v <;> rfl

theorem cueAt?_string (c : Cursor) : (grammar v).cueAt? (stringAddress quote) c =
    ((stop? false "\\\\[\\s\\S]" c).map (.opens (escapeAddress quote), ·)).or
      (((stop? false quote.toString c).map (.closes, ·)).or
        (((stop? false "\\n" c).map (.illegal, ·)).or none)) := by
  have hCues : (grammar v).cues (stringAddress quote) =
      [(.opens (escapeAddress quote), "\\\\[\\s\\S]"), (.closes, quote.toString),
        (.illegal, "\\n")] := by
    rcases hQuote with rfl | rfl <;> cases v <;> rfl
  exact Grammar.cueAt?_of_cues hCues c

/-- An escape may end anywhere. -/
theorem cueAt?_escape (c : Cursor) :
    (grammar v).cueAt? (escapeAddress quote) c = some (.closes, c) := by
  have hCues : (grammar v).cues (escapeAddress quote) = [(.closes, immediateEnd)] := by
    rcases hQuote with rfl | rfl <;> cases v <;> rfl
  rw [Grammar.cueAt?_of_cues hCues, List.foldr_cons, stop?_immediateEnd]
  rfl

theorem cueAt?_quote (rest : List Char) : (grammar v).cueAt? .root (.between [] (quote :: rest)) =
    some (.opens (stringAddress quote), .between [quote] rest) := by
  let n := if quote = '"' then 3 else 4
  have hCue :
      ((grammar v).cues .root)[n]? = some (.opens (stringAddress quote), quote.toString) := by
    rcases hQuote with rfl | rfl <;> cases v <;> rfl
  have hBefore : ((((grammar v).cues .root).take n).all fun entry => !begins false entry.2 quote) =
      true := by
    rcases hQuote with rfl | rfl <;> cases v <;> decide +kernel
  exact Grammar.cueAt?_eq_some hCue (Grammar.stop?_eq_none_of_all rfl hBefore)
    (stop?_char (compile_quote hQuote) [] rest)

theorem course_quote (rest : List Char) : (grammar v).Course (.start (quote :: rest))
    (inString quote (.between [] (quote :: rest)) (.between [quote] rest) (some 0)) :=
  Grammar.course_start (cueAt?_quote v hQuote rest) (settingsAt_string v hQuote) rfl rfl

variable (pending : Cursor) (lastOpening : Option Nat) (left right : List Char)

/-- An escape is passed over as a whole: its mode ends right behind the character that is
escaped. -/
theorem course_escape (x : Char) : (grammar v).Course
    (inString quote pending (.between left ('\\' :: x :: right)) lastOpening)
    (inString quote (.between (left ++ ['\\', x]) right)
      (.between (left ++ ['\\', x]) right) none) := by
  let stop := Cursor.between (left ++ ['\\', x]) right
  let d := inString quote pending (.between left ('\\' :: x :: right)) lastOpening
  let d' : Standing :=
    ⟨[(escapeAddress quote, none), (stringAddress quote, some 0)], d.regions, d.place, stop,
      some (byteLength left)⟩
  have hOpens : (grammar v).cueAt? d.top d.place = some (.opens (escapeAddress quote), stop) := by
    show (grammar v).cueAt? (stringAddress quote) (.between left ('\\' :: x :: right)) = _
    rw [cueAt?_string v hQuote, stop?_escape]
    rfl
  have hEnter : d.enter (grammar v) (escapeAddress quote) stop = d' := by
    rw [Standing.enter_eq d stop (settingsAt_escape v hQuote)
      (Standing.flush_of_wordless d (settingsAt_string v hQuote) rfl d.place)]
    rfl
  have hLeave : d'.leave (grammar v) stop = inString quote stop stop none := by
    rw [Standing.leave_alone d' stop rfl (settingsAt_escape v hQuote) rfl
      (Standing.flush_of_wordless d' (settingsAt_escape v hQuote) rfl stop)]
    rfl
  have hMoved : byteLength left < stop.offset := by
    have hPos := x.utf8Size_pos
    simp only [stop, Cursor.offset_between, byteLength_append, byteLength]
    omega
  exact (Grammar.course_opens hOpens hEnter).trans
    (Grammar.course_closes (cueAt?_escape v hQuote stop)
    (.inl fun h => Nat.ne_of_lt hMoved (Option.some.inj h)) hLeave)

theorem course_plain {x : Char} (hQuote' : x ≠ quote) (hBackslash : x ≠ '\\')
    (hLine : x ≠ '\n') :
    (grammar v).Course (inString quote pending (.between left (x :: right)) lastOpening)
      (inString quote pending (.between (left ++ [x]) right) lastOpening) := by
  have hEscape : begins false "\\\\[\\s\\S]" x = false := by
    rw [begins_eq compile_escape]
    simpa [Program.begins, CharTest.has] using hBackslash
  have hClosing : begins false quote.toString x = false := by
    rw [begins_eq (compile_quote hQuote)]
    simpa [Program.begins, CharTest.has] using hQuote'
  have hIllegal : begins false "\\n" x = false := by
    rw [begins_eq compile_lineFeed]
    simpa [Program.begins, CharTest.has] using hLine
  have hNone : (grammar v).cueAt? (stringAddress quote) (.between left (x :: right)) = none := by
    rw [cueAt?_string v hQuote, stop?_eq_none_of_begins rfl hEscape,
      stop?_eq_none_of_begins rfl hClosing, stop?_eq_none_of_begins rfl hIllegal]
    rfl
  exact Grammar.course_skip _ rfl hNone

theorem exists_course_body {body : List Char} (h : StringBody quote body)
    (hPending : (Cursor.start (left ++ (body ++ right))).Reaches pending) :
    ∃ pending' lastOpening', (Cursor.start (left ++ (body ++ right))).Reaches pending' ∧
      (grammar v).Course (inString quote pending (.between left (body ++ right)) lastOpening)
        (inString quote pending' (.between (left ++ body) right) lastOpening') := by
  induction h generalizing pending lastOpening left with
  | nil =>
    rw [List.append_nil]
    exact ⟨pending, lastOpening, hPending, .refl⟩
  | @plain x body hQuote' hBackslash hLine _ ih =>
    have hText : left ++ (x :: body ++ right) = left ++ [x] ++ (body ++ right) := by simp
    rw [hText] at hPending ⊢
    obtain ⟨pending', lastOpening', hReaches, hCourse⟩ :=
      ih pending lastOpening (left ++ [x]) hPending
    rw [List.append_assoc, List.singleton_append] at hCourse
    exact ⟨pending', lastOpening', hReaches,
      (course_plain v hQuote pending lastOpening left _ hQuote' hBackslash hLine).trans hCourse⟩
  | @escaped x body _ ih =>
    have hText : left ++ ('\\' :: x :: body ++ right) = left ++ ['\\', x] ++ (body ++ right) := by
      simp
    rw [hText]
    obtain ⟨pending', lastOpening', hReaches, hCourse⟩ :=
      ih _ none (left ++ ['\\', x]) (Cursor.reaches_between_start _ _)
    rw [List.append_assoc left ['\\', x] body] at hCourse
    exact ⟨pending', lastOpening', hReaches,
      (course_escape v hQuote pending lastOpening left _ x).trans hCourse⟩

theorem course_closingQuote :
    (grammar v).Course (inString quote pending (.between left (quote :: right)) lastOpening)
      ⟨[], [⟨.string, 0, byteLength (left ++ [quote]), 0⟩], .between (left ++ [quote]) right,
        .between (left ++ [quote]) right, none⟩ := by
  let stop := Cursor.between (left ++ [quote]) right
  let d := inString quote pending (.between left (quote :: right)) lastOpening
  have hEscape : begins false "\\\\[\\s\\S]" quote = false := by
    rcases hQuote with rfl | rfl <;> decide +kernel
  have hCloses : (grammar v).cueAt? (stringAddress quote) (.between left (quote :: right)) =
      some (.closes, stop) := by
    rw [cueAt?_string v hQuote, stop?_eq_none_of_begins rfl hEscape,
      stop?_char (compile_quote hQuote) left right]
    rfl
  have hLeave : d.leave (grammar v) stop =
      ⟨[], [⟨.string, 0, stop.offset, 0⟩], stop, stop, none⟩ := by
    rw [Standing.leave_alone d stop rfl (settingsAt_string v hQuote) rfl
      (Standing.flush_of_wordless d (settingsAt_string v hQuote) rfl stop)]
    rfl
  have hMoved : d.place.offset < stop.offset := by
    have hPos := quote.utf8Size_pos
    simp only [d, inString, stop, Cursor.offset_between, byteLength_append, byteLength]
    omega
  exact Grammar.course_closes hCloses (.inr hMoved) hLeave

theorem cueAt?_string_lineFeed :
    (grammar v).cueAt? (stringAddress quote) (.between left ('\n' :: right)) =
      some (.illegal, .between (left ++ ['\n']) right) := by
  have hEscape : begins false "\\\\[\\s\\S]" '\n' = false := by decide +kernel
  have hClosing : begins false quote.toString '\n' = false := by
    rcases hQuote with rfl | rfl <;> rfl
  rw [cueAt?_string v hQuote, stop?_eq_none_of_begins rfl hEscape,
    stop?_eq_none_of_begins rfl hClosing, stop?_char compile_lineFeed left right]
  rfl

theorem cueAt?_string_atEnd :
    (grammar v).cueAt? (stringAddress quote) (.between left []) = none := by
  refine Grammar.cueAt?_atEnd rfl ?_
  rcases hQuote with rfl | rfl <;> cases v <;> decide +kernel

theorem found_inString (hPending : (Cursor.start (quote :: right)).Reaches pending)
    (place : Cursor) :
    (inString quote pending place lastOpening).found (grammar v) =
      [⟨.string, 0, byteLength (quote :: right), 0⟩] := by
  have hPos : 0 < byteLength (quote :: right) := Nat.add_pos_left quote.utf8Size_pos _
  let d := inString quote pending place lastOpening
  have hFlush : d.flush (grammar v) d.pending.toEnd = { d with pending := pending.toEnd } :=
    Standing.flush_of_wordless d (settingsAt_string v hQuote) rfl pending.toEnd
  rw [Standing.found_eq d hFlush]
  simp [d, inString, stopRegion, Cursor.offset_toEnd hPending, hPos]

end

/-- A string ends at the first quote of its kind that is not escaped. Whatever stands in it, be it
escaped quotes, comments or what is illegal elsewhere, the text up to this quote is one region, and
so is all of the text if there is no such quote. The end of a line is illegal in a string. -/
theorem tokenize_string (v : Version) : ∃ m, (grammar v).compile = .ok m ∧
    ∀ (t : Tokenizer m) (quote : Char) (body rest : List Char), quote = '"' ∨ quote = '\'' →
      StringBody quote body →
      (∃ tokens, (t.tokenize (.ofList (quote :: (body ++ [quote])))).1 = .ok tokens ∧
        tokens.regions = [⟨.string, 0, byteLength (quote :: (body ++ [quote])), 0⟩]) ∧
      (∃ tokens, (t.tokenize (.ofList (quote :: body))).1 = .ok tokens ∧
        tokens.regions = [⟨.string, 0, byteLength (quote :: body), 0⟩]) ∧
      (t.tokenize (.ofList (quote :: (body ++ '\n' :: rest)))).1 =
        .error (.illegal (byteLength (quote :: body)) "\n") := by
  obtain ⟨m, hCompile, hFollows⟩ := exists_follows v
  refine ⟨m, hCompile, fun t quote body rest hQuote hBody => ?_⟩
  -- The three texts differ only in what follows the body.
  have hInside : ∀ right, ∃ pending lastOpening,
      (Cursor.start (quote :: (body ++ right))).Reaches pending ∧
      (grammar v).Course (.start (String.ofList (quote :: (body ++ right))).toList)
        (inString quote pending (.between (quote :: body) right) lastOpening) := by
    intro right
    obtain ⟨pending, lastOpening, hReaches, hCourse⟩ :=
      exists_course_body v hQuote (.between [] _) (some 0) [quote] right hBody (.refl _)
    rw [String.toList_ofList]
    exact ⟨pending, lastOpening, hReaches,
      (course_quote v hQuote (body ++ right)).trans hCourse⟩
  refine ⟨?_, ?_, ?_⟩
  · obtain ⟨pending, lastOpening, -, hCourse⟩ := hInside [quote]
    rw [String.toList_ofList] at hCourse
    have hClosed :=
      hCourse.trans (course_closingQuote v hQuote pending lastOpening (quote :: body) [])
    have hPos : 0 < byteLength (quote :: (body ++ [quote])) := Nat.add_pos_left quote.utf8Size_pos _
    exact exists_tokens_of_closed hFollows t hClosed (List.forall_mem_singleton.2 hPos)
  · obtain ⟨pending, lastOpening, hReaches, hCourse⟩ := hInside []
    rw [List.append_nil] at hReaches hCourse
    obtain ⟨tokens, hTokens, hRegions⟩ :=
      hFollows.ends t _ _ hCourse (cueAt?_string_atEnd v hQuote (quote :: body)) rfl
    exact ⟨tokens, hTokens,
      hRegions.trans (found_inString v hQuote pending lastOpening body hReaches _)⟩
  · obtain ⟨pending, lastOpening, -, hCourse⟩ := hInside ('\n' :: rest)
    have hIllegal := hFollows.illegal t _ _ _ hCourse
      (cueAt?_string_lineFeed v hQuote (quote :: body) rest)
    have hText : (Span.mk (.between (quote :: body) ('\n' :: rest))
        (.between (quote :: body ++ ['\n']) rest)).text = "\n" :=
      congrArg String.ofList (Cursor.chars_between ['\n'])
    rw [hIllegal, ← hText]
    rfl

/-- Neither an escaped quote nor what looks like a comment ends a string. -/
theorem tokenize_string_escaped_quote : StringBody '"' ['a', '\\', '"', '/', '/'] ∧
    ∃ m, (grammar .slash).compile = .ok m ∧ ∀ t : Tokenizer m,
      (∃ tokens, (t.tokenize "\"a\\\"//\"").1 = .ok tokens ∧
        tokens.regions = [⟨.string, 0, 7, 0⟩]) ∧
      (∃ tokens, (t.tokenize "\"a\\\"//").1 = .ok tokens ∧
        tokens.regions = [⟨.string, 0, 6, 0⟩]) ∧
      (t.tokenize "\"a\\\"//\n</").1 = .error (.illegal 6 "\n") := by
  have hSlashes : StringBody '"' ['/', '/'] :=
    .plain (by decide) (by decide) (by decide) (.plain (by decide) (by decide) (by decide) .nil)
  have hBody : StringBody '"' ['a', '\\', '"', '/', '/'] :=
    .plain (by decide) (by decide) (by decide) (.escaped '"' hSlashes)
  obtain ⟨m, hCompile, hStrings⟩ := tokenize_string .slash
  refine ⟨hBody, m, hCompile, fun t => ?_⟩
  obtain ⟨⟨closed, hClosed, hRegions⟩, ⟨unclosed, hUnclosed, hRegions'⟩, hIllegal⟩ :=
    hStrings t '"' _ ['<', '/'] (.inl rfl) hBody
  have hWhole : byteLength ('"' :: (['a', '\\', '"', '/', '/'] ++ ['"'])) = 7 := by decide
  have hPart : byteLength ('"' :: ['a', '\\', '"', '/', '/']) = 6 := by decide
  rw [hWhole] at hRegions
  rw [hPart] at hRegions' hIllegal
  exact ⟨⟨closed, hClosed, hRegions⟩, ⟨unclosed, hUnclosed, hRegions'⟩, hIllegal⟩

end Highlighter.Co
