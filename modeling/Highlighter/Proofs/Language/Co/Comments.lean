import Highlighter.Proofs.Language.Co.Remarks

/-! Comments between slashes and asterisks, and comments behind two slashes. Remarks open
modes within the first and messages of errors within the second, and neither of them reaches
past the end of its comment. -/

namespace Highlighter.Co

open Idiom Pattern Text

/-- Where comments that are closed stand in the grammars. -/
def blockAddress : Address := .inner .root 1 0

def lineAddress : Address := .inner .root 2 0

def messageAddress : Address := .inner lineAddress 0 0

/-- What messages of errors begin with. -/
def messageMark : List Char := "error:".toList

theorem compile_blockOpening :
    compile ⟨false, true⟩ (spellOut 0 false "/\\*".toList) = .ok (.text ['/', '*']) := by
  rfl

theorem compile_blockClosing :
    compile ⟨false, true⟩ (spellOut 0 false "\\*/".toList) = .ok (.text ['*', '/']) := by
  rfl

theorem compile_lineOpening :
    compile ⟨false, true⟩ (spellOut 0 false "//".toList) = .ok (.text ['/', '/']) := by
  rfl

theorem compile_messageOpening : compile ⟨false, true⟩ (spellOut 0 false "error:".toList) =
    .ok (.text messageMark) := by
  rfl

/-- Within the message of an error, which starts at a place in the comment at the start of a
text. -/
def inMessage (start : Nat) (pending place : Cursor) : Standing :=
  ⟨[(messageAddress, some 1), (lineAddress, some 0)],
    [⟨.comment, 0, 0, 0⟩, ⟨.errormsg, start, start, 1⟩], pending, place, some start⟩

/-- A word stands in a text behind `before`, and nowhere earlier. -/
def IsFirst (word before text : List Char) : Prop :=
  before ++ word <+: text ∧ ∀ before', before' ++ word <+: text →
    before.length ≤ before'.length

theorem IsFirst.cons {word before text : List Char} {x : Char} (h : IsFirst word before text)
    (hNot : ¬ word <+: x :: text) : IsFirst word (x :: before) (x :: text) := by
  refine ⟨List.cons_prefix_cons.2 ⟨rfl, h.1⟩, fun before' hBefore => ?_⟩
  cases before' with
  | nil => exact absurd hBefore hNot
  | cons y before' => exact Nat.succ_le_succ (h.2 before' (List.cons_prefix_cons.1 hBefore).2)

/-- Two versions have comments with slashes. -/
@[elab_as_elim]
theorem of_slashed {p : Version → Prop} {v : Version} (hSlashed : v ≠ .hash)
    (hCurrent : p .current) (hSlash : p .slash) : p v := by
  cases v with
  | current => exact hCurrent
  | slash => exact hSlash
  | hash => exact absurd rfl hSlashed

section

variable {v : Version} (hSlashed : v ≠ .hash)
include hSlashed

theorem settingsAt_line : (grammar v).settingsAt lineAddress =
    { category := some .comment, opening := some "//", closing := some "$" } := by
  refine of_slashed hSlashed ?_ ?_ <;> rfl

theorem settingsAt_message : (grammar v).settingsAt messageAddress =
    { category := some .errormsg, opening := some "error:", closing := some "$" } := by
  refine of_slashed hSlashed ?_ ?_ <;> rfl

theorem cueAt?_line (c : Cursor) : (grammar v).cueAt? lineAddress c =
    ((stop? false "error:" c).map (.opens messageAddress, ·)).or
      (((stop? false "$" c).map (.closes, ·)).or none) := by
  have hCues :
      (grammar v).cues lineAddress = [(.opens messageAddress, "error:"), (.closes, "$")] := by
    refine of_slashed hSlashed ?_ ?_ <;> rfl
  exact Grammar.cueAt?_of_cues hCues c

theorem cueAt?_message (c : Cursor) : (grammar v).cueAt? messageAddress c =
    ((stop? false "$" c).map (.closes, ·)).or none := by
  have hCues : (grammar v).cues messageAddress = [(.closes, "$")] := by
    refine of_slashed hSlashed ?_ ?_ <;> rfl
  exact Grammar.cueAt?_of_cues hCues c

/-! ### Comments that are closed -/

theorem isComment_block : IsComment (grammar v) blockAddress "/\\*" "\\*/" := by
  refine of_slashed hSlashed ?_ ?_ <;> exact ⟨rfl, by rfl, by rfl, by rfl, by rfl⟩

variable (tags : List Region) (pending : Cursor) (lastOpening : Option Nat)

omit hSlashed in
/-- Up to the first asterisk before a slash, the end of a comment does not match. -/
theorem stop?_blockClosing_eq_none {after right : List Char} (hAfter : ¬ ['*', '/'] <:+: after)
    (hSome : after ≠ []) (left : List Char) :
    stop? false "\\*/" (.between left (after ++ '*' :: right)) = none := by
  refine stop?_text_eq_none compile_blockClosing fun h => ?_
  match after, hSome with
  | [x], _ => simp [List.cons_prefix_cons] at h
  | x :: y :: after, _ =>
    obtain ⟨rfl, rfl, -⟩ : '*' = x ∧ '/' = y ∧ True := by
      simpa [List.cons_prefix_cons] using h
    exact hAfter ⟨[], after, rfl⟩

/-- What may stand in a comment is passed over. A remark does not reach past the body of its
comment, since there are no asterisks in remarks. -/
theorem exists_course_block {body : List Char} (hBody : ¬ ['*', '/'] <:+: body)
    (left right : List Char) :
    ∃ tags' pending' lastOpening', (∀ tag ∈ tags', IsRemark left body tag) ∧
      (grammar v).Course (inComment blockAddress tags pending
        (.between left (body ++ '*' :: '/' :: right)) lastOpening) (inComment blockAddress
        (tags ++ tags') pending' (.between (left ++ body) ('*' :: '/' :: right)) lastOpening') := by
  have hAsterisk : ∀ x ∈ ('*' :: '/' :: right).head?, x ∉ remarkCharacters := by
    simp only [List.head?_cons, Option.mem_some_iff, forall_eq']
    decide
  obtain ⟨tags', pending', lastOpening', hTags, -, hCourse⟩ :=
    (isComment_block hSlashed).exists_course_body tags pending lastOpening hAsterisk
      (fun _ hAfter hSome =>
        stop?_blockClosing_eq_none (fun h => hBody (h.trans hAfter.isInfix)) hSome) left
  exact ⟨tags', pending', lastOpening', hTags, hCourse⟩

theorem course_blockOpening (rest : List Char) : (grammar v).Course (.start ('/' :: '*' :: rest))
    (inComment blockAddress [] (.between [] ('/' :: '*' :: rest)) (.between ['/', '*'] rest)
      (some 0)) := by
  have hCues : ((grammar v).cues .root)[1]? = some (.opens blockAddress, "/\\*") := by
    refine of_slashed hSlashed ?_ ?_ <;> rfl
  have hBefore :
      ((((grammar v).cues .root).take 1).all fun entry => !begins false entry.2 '/') = true := by
    refine of_slashed hSlashed ?_ ?_ <;> decide +kernel
  have hCue : (grammar v).cueAt? .root (.between [] ('/' :: '*' :: rest)) =
      some (.opens blockAddress, .between ['/', '*'] rest) :=
    Grammar.cueAt?_eq_some hCues (Grammar.stop?_eq_none_of_all rfl hBefore)
      (stop?_text compile_blockOpening [] rest)
  exact Grammar.course_start hCue (isComment_block hSlashed).settings rfl rfl

theorem course_blockClosing (left right : List Char) : (grammar v).Course
    (inComment blockAddress tags pending (.between left ('*' :: '/' :: right)) lastOpening)
    ⟨[], ⟨.comment, 0, byteLength (left ++ ['*', '/']), 0⟩ :: tags,
      .between (left ++ ['*', '/']) right, .between (left ++ ['*', '/']) right, none⟩ := by
  have hAsterisk : ∀ x ∈ ('*' :: '/' :: right).head?, x ∉ remarkCharacters := by
    simp only [List.head?_cons, Option.mem_some_iff, forall_eq']
    decide
  refine (isComment_block hSlashed).course_end tags pending lastOpening hAsterisk
    (stop?_text compile_blockClosing left right) (.inr ?_)
  have hPos : 0 < byteLength ['*', '/'] := by decide
  simp only [Cursor.offset_between, byteLength_append]
  omega

/-! ### Comments that end with their lines -/

/-- Up to the end of the line, the first message that begins is found if there is one. -/
theorem course_line {text : List Char} (hLine : '\n' ∉ text) (left : List Char) :
    (¬ messageMark <:+: text ∧
      (grammar v).Course (inComment lineAddress tags pending (.between left text) lastOpening)
        (inComment lineAddress tags pending (.between (left ++ text) []) lastOpening)) ∨
    ∃ before after, text = before ++ (messageMark ++ after) ∧
      IsFirst messageMark before text ∧
      (grammar v).Course (inComment lineAddress tags pending (.between left text) lastOpening)
        (inComment lineAddress tags pending
          (.between (left ++ before) (messageMark ++ after)) lastOpening) := by
  induction text generalizing left with
  | nil =>
    rw [List.append_nil]
    exact .inl ⟨by decide, .refl⟩
  | cons x text ih =>
    by_cases hMark : messageMark <+: x :: text
    · obtain ⟨after, hAfter⟩ := hMark
      refine .inr ⟨[], after, hAfter.symm,
        ⟨⟨after, hAfter⟩, fun _ _ => Nat.zero_le _⟩, ?_⟩
      rw [List.append_nil, hAfter]
      exact .refl
    · obtain ⟨hHead, hRest⟩ : x ≠ '\n' ∧ '\n' ∉ text := by simpa [eq_comm] using hLine
      have hNone : (grammar v).cueAt? lineAddress (.between left (x :: text)) = none := by
        rw [cueAt?_line hSlashed, stop?_text_eq_none compile_messageOpening hMark,
          stop?_eq_none_of_begins rfl (begins_lineEnd hHead)]
        rfl
      have hSkip := Grammar.course_skip
        (inComment lineAddress tags pending (.between left (x :: text)) lastOpening) rfl hNone
      have hAppend : ∀ more, left ++ [x] ++ more = left ++ x :: more := fun more => by simp
      rcases ih hRest (left ++ [x]) with
        ⟨hNot, hCourse⟩ | ⟨before, after, rfl, hFirst, hCourse⟩
      · rw [hAppend] at hCourse
        refine .inl ⟨fun h => ?_, hSkip.trans hCourse⟩
        exact (List.infix_cons_iff.1 h).elim hMark hNot
      · rw [hAppend] at hCourse
        exact .inr ⟨x :: before, after, rfl, hFirst.cons hMark, hSkip.trans hCourse⟩

theorem course_lineOpening (rest : List Char) : (grammar v).Course (.start ('/' :: '/' :: rest))
    (inComment lineAddress [] (.between [] ('/' :: '/' :: rest)) (.between ['/', '/'] rest)
      (some 0)) := by
  have hCues : ((grammar v).cues .root)[2]? = some (.opens lineAddress, "//") := by
    refine of_slashed hSlashed ?_ ?_ <;> rfl
  have hTake : ((grammar v).cues .root).take 2 =
      [(.opens (.inner .root 0 0), "\\A#![ ]*/.*\\bco\\b.*"), (.opens blockAddress, "/\\*")] := by
    refine of_slashed hSlashed ?_ ?_ <;> rfl
  have hBefore : ∀ entry ∈ ((grammar v).cues .root).take 2,
      stop? false entry.2 (.between [] ('/' :: '/' :: rest)) = none := by
    have hShebang : begins false "\\A#![ ]*/.*\\bco\\b.*" '/' = false := by decide +kernel
    rw [hTake]
    refine List.forall_mem_cons.2
      ⟨stop?_eq_none_of_begins rfl hShebang, List.forall_mem_singleton.2 ?_⟩
    exact stop?_text_eq_none compile_blockOpening (by simp)
  have hCue : (grammar v).cueAt? .root (.between [] ('/' :: '/' :: rest)) =
      some (.opens lineAddress, .between ['/', '/'] rest) :=
    Grammar.cueAt?_eq_some hCues hBefore (stop?_text compile_lineOpening [] rest)
  exact Grammar.course_start hCue (settingsAt_line hSlashed) rfl rfl

theorem course_lineClosing {text : List Char} (hMoved : lastOpening ≠ some (byteLength text)) :
    (grammar v).Course (inComment lineAddress tags pending (.between text []) lastOpening)
      ⟨[], ⟨.comment, 0, byteLength text, 0⟩ :: tags, .between text [], .between text [],
        none⟩ := by
  let d := inComment lineAddress tags pending (.between text []) lastOpening
  have hMark : ¬ messageMark <+: [] := by decide
  have hCloses :
      (grammar v).cueAt? lineAddress (.between text []) = some (.closes, .between text []) := by
    rw [cueAt?_line hSlashed, stop?_text_eq_none compile_messageOpening hMark,
      stop?_lineEnd text (by simp)]
    rfl
  have hLeave : d.leave (grammar v) (.between text []) =
      ⟨[], ⟨.comment, 0, byteLength text, 0⟩ :: tags, .between text [], .between text [],
        none⟩ := by
    rw [Standing.leave_alone d _ rfl (settingsAt_line hSlashed) rfl
      (Standing.flush_of_wordless d (settingsAt_line hSlashed) rfl _)]
    rfl
  exact Grammar.course_closes hCloses (.inl hMoved) hLeave

theorem course_messageOpening (left after : List Char) : (grammar v).Course
    (inComment lineAddress [] pending (.between left (messageMark ++ after)) lastOpening)
    (inMessage (byteLength left) (.between left (messageMark ++ after))
      (.between (left ++ messageMark) after)) := by
  let d := inComment lineAddress [] pending (.between left (messageMark ++ after)) lastOpening
  let opened := Cursor.between (left ++ messageMark) after
  have hOpens : (grammar v).cueAt? lineAddress d.place = some (.opens messageAddress, opened) := by
    rw [cueAt?_line hSlashed, show stop? false "error:" d.place = some opened from
      stop?_text compile_messageOpening left after]
    rfl
  have hEnter :
      d.enter (grammar v) messageAddress opened = inMessage (byteLength left) d.place opened := by
    rw [Standing.enter_eq d opened (settingsAt_message hSlashed)
      (Standing.flush_of_wordless d (settingsAt_line hSlashed) rfl d.place)]
    rfl
  exact Grammar.course_opens hOpens hEnter

/-- A message takes the rest of its line. -/
theorem course_inMessage (start : Nat) {after : List Char} (hLine : '\n' ∉ after)
    (left : List Char) :
    (grammar v).Course (inMessage start pending (.between left after))
      (inMessage start pending (.between (left ++ after) [])) := by
  have hCues : (grammar v).cues messageAddress = [(.closes, "$")] := by
    refine of_slashed hSlashed ?_ ?_ <;> rfl
  have hPassed : ∀ x ∈ after,
      (((grammar v).cues messageAddress).all fun entry => !begins false entry.2 x) = true := by
    intro x hx
    rw [hCues, List.all_cons, begins_lineEnd fun h => hLine (h ▸ hx)]
    rfl
  exact Grammar.course_pass (inMessage start pending (.between left after))
    (by rw [List.append_nil]; rfl) hPassed

theorem course_messageClosing {start : Nat} {text : List Char}
    (hMoved : start ≠ byteLength text) :
    (grammar v).Course (inMessage start pending (.between text []))
      (inComment lineAddress [⟨.errormsg, start, byteLength text, 1⟩] (.between text [])
        (.between text [])
        none) := by
  let d := inMessage start pending (.between text [])
  have hCloses : (grammar v).cueAt? messageAddress (.between text []) =
      some (.closes, .between text []) := by
    rw [cueAt?_message hSlashed, stop?_lineEnd text (by simp)]
    rfl
  have hLeave : d.leave (grammar v) (.between text []) = inComment lineAddress
      [⟨.errormsg, start, byteLength text, 1⟩] (.between text []) (.between text []) none := by
    rw [Standing.leave_alone d _ rfl (settingsAt_message hSlashed) rfl
      (Standing.flush_of_wordless d (settingsAt_message hSlashed) rfl _)]
    rfl
  exact Grammar.course_closes hCloses (.inl fun h => hMoved (Option.some.inj h)) hLeave

/-- Where a message begins, it takes the rest of the line, and at the end of the line
the comment ends as well. -/
theorem course_message {after : List Char} (hLine : '\n' ∉ after) (left : List Char) :
    (grammar v).Course
      (inComment lineAddress [] pending (.between left (messageMark ++ after)) lastOpening)
      ⟨[], [⟨.comment, 0, byteLength (left ++ (messageMark ++ after)), 0⟩,
          ⟨.errormsg, byteLength left, byteLength (left ++ (messageMark ++ after)), 1⟩],
        .between (left ++ (messageMark ++ after)) [],
        .between (left ++ (messageMark ++ after)) [], none⟩ := by
  have hMoved : byteLength left ≠ byteLength (left ++ (messageMark ++ after)) := by
    have hMark : 0 < byteLength messageMark := by decide
    simp only [byteLength_append]
    omega
  have hInside :=
    course_inMessage hSlashed (.between left (messageMark ++ after)) (byteLength left) hLine
    (left ++ messageMark)
  rw [List.append_assoc] at hInside
  exact (((course_messageOpening hSlashed pending lastOpening left after).trans hInside).trans
    (course_messageClosing hSlashed _ hMoved)).trans (course_lineClosing hSlashed _ _ none nofun)

end

/-- A comment that is closed has all of the text up to the first asterisk before a slash, and all
else that is found in it are remarks. A comment that ends with its line has all of the line, and the
first message of an error in it has the rest. -/
theorem tokenize_comment (v : Version) (hSlashed : v ≠ .hash) :
    ∃ m, (grammar v).compile = .ok m ∧
      ∀ t : Tokenizer m,
        (∀ body : List Char, ¬ ['*', '/'] <:+: body →
          ∃ tokens tags,
            (t.tokenize (.ofList ('/' :: '*' :: (body ++ ['*', '/'])))).1 = .ok tokens ∧
            tokens.regions =
              ⟨.comment, 0, byteLength ('/' :: '*' :: (body ++ ['*', '/'])), 0⟩ :: tags ∧
            ∀ tag ∈ tags, IsRemark ['/', '*'] body tag) ∧
        ∀ line : List Char, '\n' ∉ line →
          ∃ tokens, (t.tokenize (.ofList ('/' :: '/' :: line))).1 = .ok tokens ∧
            ((¬ messageMark <:+: line ∧
                tokens.regions = [⟨.comment, 0, byteLength ('/' :: '/' :: line), 0⟩]) ∨
              ∃ before, IsFirst messageMark before line ∧ tokens.regions =
                [⟨.comment, 0, byteLength ('/' :: '/' :: line), 0⟩,
                  ⟨.errormsg, byteLength ('/' :: '/' :: before), byteLength ('/' :: '/' :: line),
                    1⟩]) := by
  obtain ⟨m, hCompile, hFollows⟩ := exists_follows v
  refine ⟨m, hCompile, fun t => ⟨fun body hBody => ?_, fun line hLine => ?_⟩⟩
  -- The body takes the scan up to the first end, which closes the only open mode.
  · obtain ⟨tags, pending, lastOpening, hTags, hCourse⟩ :=
      exists_course_block hSlashed [] (.between [] _) (some 0) hBody ['/', '*'] []
    have hClosed := ((course_blockOpening hSlashed (body ++ ['*', '/'])).trans hCourse).trans
      (course_blockClosing hSlashed ([] ++ tags) pending lastOpening (['/', '*'] ++ body) [])
    rw [List.nil_append, List.append_assoc] at hClosed
    have hPos : 0 < byteLength (['/', '*'] ++ (body ++ ['*', '/'])) :=
      Nat.add_pos_left (by decide) _
    obtain ⟨tokens, hTokens, hRegions⟩ := exists_tokens_of_closed hFollows t hClosed
      (List.forall_mem_cons.2 ⟨hPos, fun tag hTag => (hTags tag hTag).start_lt_stop⟩)
    exact ⟨tokens, tags, hTokens, hRegions, hTags⟩
  · have hOpened := course_lineOpening hSlashed line
    have hTwo : byteLength ['/', '/'] = 2 := by decide
    -- Either no message begins in the line, or the first one takes all of the rest.
    rcases course_line hSlashed [] (.between [] _) (some 0) hLine ['/', '/'] with
      ⟨hNot, hCourse⟩ | ⟨before, after, rfl, hFirst, hCourse⟩
    · have hMoved : some 0 ≠ some (byteLength (['/', '/'] ++ line)) := by
        rw [byteLength_append, hTwo]
        exact fun h => absurd (Option.some.inj h) (by omega)
      have hClosed := (hOpened.trans hCourse).trans (course_lineClosing hSlashed [] _ _ hMoved)
      have hPos : 0 < byteLength (['/', '/'] ++ line) := by
        rw [byteLength_append, hTwo]
        omega
      obtain ⟨tokens, hTokens, hRegions⟩ :=
        exists_tokens_of_closed hFollows t hClosed (List.forall_mem_singleton.2 hPos)
      exact ⟨tokens, hTokens, .inl ⟨hNot, hRegions⟩⟩
    · have hAfter : '\n' ∉ after := fun h => hLine (by simp [h])
      have hClosed :=
        (hOpened.trans hCourse).trans (course_message hSlashed _ _ hAfter (['/', '/'] ++ before))
      rw [List.append_assoc] at hClosed
      have hLt : byteLength (['/', '/'] ++ before) <
          byteLength (['/', '/'] ++ (before ++ (messageMark ++ after))) := by
        have hMark : 0 < byteLength messageMark := by decide
        simp only [byteLength_append]
        omega
      obtain ⟨tokens, hTokens, hRegions⟩ := exists_tokens_of_closed hFollows t hClosed
        (List.forall_mem_cons.2 ⟨Nat.zero_lt_of_lt hLt, List.forall_mem_singleton.2 hLt⟩)
      exact ⟨tokens, hTokens, .inr ⟨before, hFirst, hRegions⟩⟩

/-- Markers may overlap, and of two messages the first one takes all. -/
theorem tokenize_comment_overlapping :
    Version.current ≠ .hash ∧ ¬ ['*', '/'] <:+: ['*', 'B', 'U', 'G', ':', '/'] ∧
      '\n' ∉ ' ' :: (messageMark ++ messageMark) ∧ ∃ m, (grammar .current).compile = .ok m ∧
        ∀ t : Tokenizer m,
        (∃ tokens tags, (t.tokenize "/**BUG:/*/").1 = .ok tokens ∧
            tokens.regions = ⟨.comment, 0, 10, 0⟩ :: tags ∧
          ∀ tag ∈ tags, IsRemark ['/', '*'] ['*', 'B', 'U', 'G', ':', '/'] tag) ∧
        ∃ tokens, (t.tokenize "// error:error:").1 = .ok tokens ∧
          tokens.regions = [⟨.comment, 0, 15, 0⟩, ⟨.errormsg, 3, 15, 1⟩] := by
  let line := ' ' :: (messageMark ++ messageMark)
  have hBody : ¬ ['*', '/'] <:+: ['*', 'B', 'U', 'G', ':', '/'] := by decide
  have hLine : '\n' ∉ line := by decide
  have hText : "// error:error:" = .ofList ('/' :: '/' :: line) := by decide
  obtain ⟨m, hCompile, hComments⟩ := tokenize_comment .current (by decide)
  refine ⟨by decide, hBody, hLine, m, hCompile, fun t => ⟨?_, ?_⟩⟩
  · obtain ⟨tokens, tags, hTokens, hRegions, hTags⟩ := (hComments t).1 _ hBody
    have hBytes :
        byteLength ('/' :: '*' :: (['*', 'B', 'U', 'G', ':', '/'] ++ ['*', '/'])) = 10 := by
      decide
    rw [hBytes] at hRegions
    exact ⟨tokens, tags, hTokens, hRegions, hTags⟩
  · obtain ⟨tokens, hTokens, ⟨hNot, -⟩ | ⟨before, ⟨hPrefix, hFirst⟩, hRegions⟩⟩ :=
      (hComments t).2 line hLine
    · exact absurd (by decide) hNot
    · have hLength : before.length ≤ 1 := hFirst [' '] (by decide)
      obtain rfl : before = [' '] := by
        match before with
        | [] => exact absurd hPrefix (by decide)
        | [x] => rw [(List.cons_prefix_cons.1 hPrefix).1]
        | _ :: _ :: _ => exact absurd hLength (by simp)
      have hOffsets :
          byteLength ('/' :: '/' :: line) = 15 ∧ byteLength ('/' :: '/' :: [' ']) = 3 := by
        decide
      rw [hOffsets.1, hOffsets.2] at hRegions
      exact ⟨tokens, hText ▸ hTokens, hRegions⟩

end Highlighter.Co
