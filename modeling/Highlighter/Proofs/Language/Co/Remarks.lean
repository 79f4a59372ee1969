import Highlighter.Proofs.Language.Co.Courses
import Highlighter.Proofs.Pattern.Remarks

/-! Remarks in comments. Whatever a comment opens and closes with, what stands in it is passed over
but for the remarks, each of which has a region of its own. -/

namespace Highlighter.Co

open Idiom Pattern Text

def remarkWords : List (List Char) :=
  ["TODO", "FIXME", "NOTE", "BUG", "OPTIMIZE", "HACK", "XXX"].map (·.toList)

/-- The pattern of remarks, and the one that they open with. -/
def remarkPattern : String := "(" ++ doctagWords ++ "):"

def remarkOpening : String := "[ ]*(?=" ++ remarkPattern ++ ")"

theorem compile_remarkPattern : compile ⟨false, true⟩ (spellOut 0 false remarkPattern.toList) =
    .ok (.wordAnd remarkWords ':') := by
  rfl

theorem compile_remarkOpening : compile ⟨false, true⟩ (spellOut 0 false remarkOpening.toList) =
    .ok (.upTo (.ofClass ⟨.range 32 32, false⟩) (.wordAnd remarkWords ':')) := by
  decide +kernel

theorem compile_lineEnd :
    compile ⟨false, true⟩ (spellOut 0 false "$".toList) = .ok (.anchor .lineEnd) := by
  rfl

theorem begins_lineEnd {x : Char} (h : x ≠ '\n') : begins false "$" x = false := by
  rw [begins_eq compile_lineEnd]
  simpa [Program.begins] using h

theorem stop?_lineEnd (left : List Char) {right : List Char} (h : ∀ x ∈ right.head?, x = '\n') :
    stop? false "$" (.between left right) = some (.between left right) := by
  rw [stop?_eq compile_lineEnd]
  cases right with
  | nil => rfl
  | cons x right =>
    obtain rfl := h x rfl
    rfl

/-- A remark opens behind some blanks with a word and a colon, which are just what closes it. -/
theorem exists_of_stop?_remarkOpening {left right : List Char} {stop : Cursor}
    (h : stop? false remarkOpening (.between left right) = some stop) :
    ∃ blanks word more, right = blanks ++ (word ++ ':' :: more) ∧
      (∀ x ∈ blanks, x = ' ') ∧
      word ∈ remarkWords ∧ stop = .between (left ++ blanks) (word ++ ':' :: more) ∧
      stop? false remarkPattern stop =
        some (.between (left ++ blanks ++ (word ++ [':'])) more) := by
  rw [stop?_eq compile_remarkOpening] at h
  obtain ⟨hReaches, hFollowing, blanks, hBlanks, hAll⟩ := Program.exists_of_matchFrom_upTo h
  obtain ⟨d, hd⟩ := Option.isSome_iff_exists.1 hFollowing
  obtain ⟨word, hWord, hPast⟩ :=
    List.exists_of_findSome?_eq_some ((Program.matchFrom_wordAnd _ _ _).symm.trans hd)
  have hAfter : stop.after = word ++ ':' :: d.after := by
    rw [(Cursor.after_of_past? hPast).1, List.append_assoc, List.singleton_append]
  have hRight : right = blanks ++ (word ++ ':' :: d.after) := hBlanks.trans (hAfter ▸ rfl)
  have hStop : stop = .between (left ++ blanks) (word ++ ':' :: d.after) :=
    Cursor.Reaches.eq_between (hRight ▸ hReaches) hAfter
  have hEnd : d = .between (left ++ blanks ++ (word ++ [':'])) d.after := by
    have hSome := Cursor.past?_between (left ++ blanks) d.after (word ++ [':'])
    rw [List.append_assoc, List.singleton_append, ← hStop, hPast] at hSome
    exact Option.some.inj hSome
  refine ⟨blanks, word, d.after, hRight, fun x hx => ?_, hWord, hStop, ?_⟩
  · have hRange : 32 ≤ x.toNat ∧ x.toNat ≤ 32 := by
      simpa [CharTest.has, CharSet.has] using hAll x hx
    have hCode : x.toNat = 32 := Nat.le_antisymm hRange.2 hRange.1
    rw [← Char.ofNat_toNat x, hCode]
  · rw [stop?_eq compile_remarkPattern, hd, ← hEnd]

/-- The characters that remarks consist of, with the blanks before them. -/
def remarkCharacters : List Char := ' ' :: ':' :: remarkWords.flatten

theorem mem_remarkCharacters {blanks word : List Char} (hBlanks : ∀ x ∈ blanks, x = ' ')
    (hWord : word ∈ remarkWords) {x : Char} (hx : x ∈ blanks ++ (word ++ [':'])) :
    x ∈ remarkCharacters := by
  simp only [List.mem_append, List.mem_singleton] at hx
  rcases hx with hx | hx | rfl
  · exact hBlanks x hx ▸ List.mem_cons_self
  · exact List.mem_cons_of_mem _ (List.mem_cons_of_mem _ (List.mem_flatten_of_mem hWord hx))
  · exact List.mem_cons_of_mem _ List.mem_cons_self

/-- Before any other character, or at the end of a text, no remark opens. -/
theorem stop?_remarkOpening_eq_none (left : List Char) {right : List Char}
    (h : ∀ x ∈ right.head?, x ∉ remarkCharacters) :
    stop? false remarkOpening (.between left right) = none := by
  refine Option.eq_none_iff_forall_ne_some.2 fun stop hStop => ?_
  obtain ⟨blanks, word, more, rfl, hBlanks, hWord, -⟩ := exists_of_stop?_remarkOpening hStop
  have hSplit : blanks ++ (word ++ ':' :: more) = (blanks ++ (word ++ [':'])) ++ more := by simp
  obtain ⟨x, hx⟩ : ∃ x, (blanks ++ (word ++ [':'])).head? = some x := by
    cases hHead : (blanks ++ (word ++ [':'])).head? with
    | some x => exact ⟨x, rfl⟩
    | none => simp at hHead
  refine h x ?_ (mem_remarkCharacters hBlanks hWord (List.mem_of_head? hx))
  rw [hSplit, List.head?_append, hx]
  rfl

/-- The region of a remark in a text behind another one: it covers one of the words
and the colon behind it. -/
def IsRemark (left text : List Char) (tag : Region) : Prop :=
  ∃ before word after, word ∈ remarkWords ∧ text = before ++ (word ++ ':' :: after) ∧ tag =
    ⟨.doctag, byteLength (left ++ before), byteLength (left ++ before ++ (word ++ [':'])), 1⟩

theorem IsRemark.append {left passed text : List Char} {tag : Region}
    (h : IsRemark (left ++ passed) text tag) : IsRemark left (passed ++ text) tag := by
  obtain ⟨before, word, after, hWord, rfl, rfl⟩ := h
  exact ⟨passed ++ before, word, after,
    hWord, by rw [List.append_assoc], by simp only [List.append_assoc]⟩

theorem IsRemark.start_lt_stop {left text : List Char} {tag : Region} (h : IsRemark left text tag) :
    tag.start < tag.stop := by
  obtain ⟨before, word, after, -, -, rfl⟩ := h
  have hColon : 0 < byteLength [':'] := by decide
  simp only [byteLength_append]
  omega

def inComment (a : Address) (tags : List Region) (pending place : Cursor)
    (lastOpening : Option Nat) : Standing :=
  ⟨[(a, some 0)], ⟨.comment, 0, 0, 0⟩ :: tags, pending, place, lastOpening⟩

/-- What has no character in common with what follows a text is passed within the text. -/
theorem exists_of_append_eq_append {text right passed more : List Char}
    (h : text ++ right = passed ++ more) (hPassed : ∀ x ∈ right.head?, x ∉ passed) :
    ∃ after, text = passed ++ after ∧ more = after ++ right := by
  rcases List.append_eq_append_iff.1 h with ⟨middle, rfl, hMiddle⟩ | ⟨after, rfl, rfl⟩
  · cases middle with
    | nil => exact ⟨[], by simp, by simpa using hMiddle.symm⟩
    | cons y middle =>
      obtain rfl : right = y :: (middle ++ more) := hMiddle
      exact absurd (by simp) (hPassed y rfl)
  · exact ⟨after, rfl, rfl⟩

/-- A mode of comments, which contains nothing but remarks. -/
structure IsComment (g : Grammar) (a : Address) (opening closing : String) : Prop where
  caseInsensitive : g.caseInsensitive = false
  settings : g.settingsAt a =
    { category := some .comment, opening := some opening, closing := some closing }
  remark : g.settingsAt (.inner a 0 0) =
    { category := some .doctag, opening := some remarkOpening, closing := some remarkPattern,
      excludeOpening := some true, relevance := some 0 }
  cues : g.cues a = [(.opens (.inner a 0 0), remarkOpening), (.closes, closing)]
  remarkCues : g.cues (.inner a 0 0) = [(.closes, remarkPattern)]

namespace IsComment

variable {g : Grammar} {a : Address} {opening closing : String} (h : IsComment g a opening closing)
include h

theorem cueAt? (c : Cursor) : g.cueAt? a c =
    ((stop? false remarkOpening c).map (.opens (.inner a 0 0), ·)).or
      (((stop? false closing c).map (.closes, ·)).or none) := by
  rw [Grammar.cueAt?_of_cues h.cues c, h.caseInsensitive]
  rfl

theorem cueAt?_remark (c : Cursor) : g.cueAt? (.inner a 0 0) c =
    ((stop? false remarkPattern c).map (.closes, ·)).or none := by
  rw [Grammar.cueAt?_of_cues h.remarkCues c, h.caseInsensitive]
  rfl

variable (tags : List Region) (pending : Cursor) (lastOpening : Option Nat)

theorem course_remark {start stop final : Cursor}
    (hOpens : stop? false remarkOpening start = some stop)
    (hCloses : stop? false remarkPattern stop = some final)
    (hMoved : stop.offset < final.offset) :
    g.Course (inComment a tags pending start lastOpening)
      (inComment a (tags ++ [⟨.doctag, stop.offset, final.offset, 1⟩]) final final none) := by
  let d := inComment a tags pending start lastOpening
  let d' : Standing := ⟨[(.inner a 0 0, some d.regions.length), (a, some 0)],
    d.regions ++ [⟨.doctag, stop.offset, stop.offset, 1⟩], stop, stop, some start.offset⟩
  have hEnter : d.enter g (.inner a 0 0) stop = d' := by
    rw [Standing.enter_eq d stop h.remark (Standing.flush_of_wordless d h.settings rfl stop)]
    rfl
  have hLeave : d'.leave g final =
      inComment a (tags ++ [⟨.doctag, stop.offset, final.offset, 1⟩]) final final none := by
    rw [Standing.leave_alone d' final rfl h.remark rfl
      (Standing.flush_of_wordless d' h.remark rfl final)]
    show Standing.mk _
      (stopRegion final.offset (d.regions ++ [_]) (.inner a 0 0, some d.regions.length)) _ _ _ = _
    rw [Standing.stopRegion_append]
    rfl
  have hFirst : g.cueAt? d.top d.place = some (.opens (.inner a 0 0), stop) := by
    show g.cueAt? a start = _
    rw [h.cueAt?, hOpens]
    rfl
  have hSecond : g.cueAt? d'.top d'.place = some (.closes, final) := by
    show g.cueAt? (.inner a 0 0) stop = _
    rw [h.cueAt?_remark, hCloses]
    rfl
  exact (Grammar.course_opens hFirst hEnter).trans
    (Grammar.course_closes hSecond (.inr hMoved) hLeave)

/-- What stands in a comment is passed over if its end does not match before. A remark does not
reach past it where what follows begins with none of the characters in remarks. -/
theorem exists_course_body {body right : List Char}
    (hRight : ∀ x ∈ right.head?, x ∉ remarkCharacters) (hNot : ∀ after, after <:+ body →
      after ≠ [] → ∀ left, stop? false closing (.between left (after ++ right)) = none)
    (left : List Char) :
    ∃ tags' pending' lastOpening', (∀ tag ∈ tags', IsRemark left body tag) ∧
      (lastOpening' = lastOpening ∨ lastOpening' = none) ∧
      g.Course (inComment a tags pending (.between left (body ++ right)) lastOpening)
        (inComment a (tags ++ tags') pending' (.between (left ++ body) right) lastOpening') := by
  -- By induction on what is left of the comment: a remark takes several characters of it at once.
  induction hLength : body.length using Nat.strong_induction_on
    generalizing body left tags pending lastOpening with
  | _ n ih =>
    match body with
    | [] =>
      exact ⟨[], pending, lastOpening, nofun,
        .inl rfl, by rw [List.append_nil, List.append_nil]; exact .refl⟩
    | x :: rest =>
      cases hOpens : stop? false remarkOpening (.between left (x :: rest ++ right)) with
      | none =>
        have hCue : g.cueAt? a (.between left (x :: rest ++ right)) = none := by
          rw [h.cueAt?, hOpens, hNot _ (List.suffix_refl _) (List.cons_ne_nil x rest)]
          rfl
        obtain ⟨tags', pending', lastOpening', hTags, hLast, hCourse⟩ :=
          ih rest.length (hLength ▸ Nat.lt_succ_self _)
          tags pending lastOpening
            (fun after hAfter => hNot after (hAfter.trans (List.suffix_cons x rest)))
          (left ++ [x]) rfl
        have hSkip := Grammar.course_skip
          (inComment a tags pending (.between left (x :: rest ++ right)) lastOpening) rfl hCue
        rw [List.append_assoc, List.singleton_append] at hCourse
        exact ⟨tags', pending', lastOpening', fun tag hTag => (hTags tag hTag).append, hLast,
          hSkip.trans hCourse⟩
      | some stop =>
        obtain ⟨blanks, word, more, hText, hBlanks, hWord, rfl, hCloses⟩ :=
          exists_of_stop?_remarkOpening hOpens
        have hSplit : x :: rest ++ right = blanks ++ (word ++ [':']) ++ more := by
          rw [hText]
          simp
        -- The remark ends within the body, since nothing that could be part of it follows the body.
        obtain ⟨after, hAfter, rfl⟩ := exists_of_append_eq_append hSplit
          fun y hy hMem => hRight y hy (mem_remarkCharacters hBlanks hWord hMem)
        let tag : Region :=
          ⟨.doctag, byteLength (left ++ blanks),
            byteLength (left ++ blanks ++ (word ++ [':'])), 1⟩
        have hTag : IsRemark left (x :: rest) tag :=
          ⟨blanks, word, after, hWord, by rw [hAfter]; simp, rfl⟩
        have hShorter : after.length < n := by
          rw [← hLength, hAfter]
          simp only [List.length_append, List.length_singleton]
          omega
        obtain ⟨tags', pending', lastOpening', hTags, hLast, hCourse⟩ :=
          ih after.length hShorter (tags ++ [tag])
          (.between (left ++ blanks ++ (word ++ [':'])) (after ++ right)) none
          (fun rest' hRest' => hNot rest' (hRest'.trans (hAfter ▸ List.suffix_append _ after)))
          (left ++ blanks ++ (word ++ [':'])) rfl
        refine ⟨tag :: tags', pending', lastOpening',
          List.forall_mem_cons.2 ⟨hTag, fun other hOther => ?_⟩,
          .inr (hLast.elim id id), ?_⟩
        · have hOther := hTags other hOther
          rw [List.append_assoc] at hOther
          exact hAfter ▸ hOther.append
        · have hPassed : left ++ blanks ++ (word ++ [':']) ++ after = left ++ (x :: rest) := by
            rw [hAfter]
            simp
          rw [hPassed, List.append_assoc tags, List.singleton_append] at hCourse
          exact (h.course_remark tags pending lastOpening hOpens hCloses hTag.start_lt_stop).trans
            hCourse

theorem course_end {left right : List Char} {stop : Cursor}
    (hRight : ∀ x ∈ right.head?, x ∉ remarkCharacters)
    (hStop : stop? false closing (.between left right) = some stop)
    (hMoved : lastOpening ≠ some (byteLength left) ∨ byteLength left < stop.offset) :
    g.Course (inComment a tags pending (.between left right) lastOpening)
      ⟨[], ⟨.comment, 0, stop.offset, 0⟩ :: tags, stop, stop, none⟩ := by
  let d := inComment a tags pending (.between left right) lastOpening
  have hCloses : g.cueAt? a (.between left right) = some (.closes, stop) := by
    rw [h.cueAt?, stop?_remarkOpening_eq_none left hRight, hStop]
    rfl
  have hLeave :
      d.leave g stop = ⟨[], ⟨.comment, 0, stop.offset, 0⟩ :: tags, stop, stop, none⟩ := by
    rw [Standing.leave_alone d stop rfl h.settings rfl
      (Standing.flush_of_wordless d h.settings rfl stop)]
    rfl
  exact Grammar.course_closes hCloses hMoved hLeave

end IsComment

end Highlighter.Co
