import Highlighter.Proofs.Language.Co.Remarks

/-! Comments of the oldest version. It has a rule for comments from `#*` to `*#`, but behind the one
for comments that end with their lines; since both begin with the same character, the former is
never searched for. So what opens with `#*` ends with its line. -/

namespace Highlighter.Co

open Idiom Pattern Text

def hashAddress : Address := .inner .root 1 0

theorem compile_hashOpening :
    compile ⟨false, true⟩ (spellOut 0 false "#".toList) = .ok (.test (.char '#')) := by
  rfl

theorem isComment_hash : IsComment (grammar .hash) hashAddress "#" "$" :=
  ⟨rfl, by rfl, by rfl, by rfl, by rfl⟩

/-- Where no shebang stands, a line comment opens. An asterisk behind the mark makes no
difference. -/
theorem course_hashOpening {rest : List Char} (hRest : ¬ ['!'] <+: rest) :
    (grammar .hash).Course (.start ('#' :: rest))
      (inComment hashAddress [] (.between [] ('#' :: rest)) (.between ['#'] rest) (some 0)) := by
  have hTake : ((grammar .hash).cues .root).take 2 =
      [(.opens (.inner .root 0 0), "\\A#![ ]*/.*\\bco\\b.*"), (.opens hashAddress, "#")] := by
    rfl
  have hLead :
      (compile ⟨false, true⟩ (spellOut 0 false "\\A#![ ]*/.*\\bco\\b.*".toList)).toOption.map
        (·.lead) = some ['#', '!'] := by
    decide +kernel
  have hOther : ¬ ['#', '!'] <+: '#' :: rest := fun h => hRest (List.cons_prefix_cons.1 h).2
  have hCues : ((grammar .hash).cues .root)[1]? = some (.opens hashAddress, "#") := by
    rw [← List.getElem?_take_of_lt (by decide : 1 < 2), hTake]
    rfl
  have hBefore : ∀ entry ∈ ((grammar .hash).cues .root).take 1,
      stop? false entry.2 (.between [] ('#' :: rest)) = none := by
    have hFirst := congrArg (List.take 1) hTake
    rw [List.take_take] at hFirst
    rw [show ((grammar .hash).cues .root).take 1 = _ from hFirst]
    exact List.forall_mem_singleton.2 (stop?_eq_none_of_lead hLead hOther)
  have hCue : (grammar .hash).cueAt? .root (.between [] ('#' :: rest)) =
      some (.opens hashAddress, .between ['#'] rest) :=
    Grammar.cueAt?_eq_some hCues hBefore (stop?_char compile_hashOpening [] rest)
  exact Grammar.course_start hCue isComment_hash.settings rfl rfl

theorem exists_course_hash {line : List Char} (hLine : '\n' ∉ line) (hShebang : ¬ ['!'] <+: line)
    (rest : List Char) (hRest : ∀ x ∈ rest.head?, x = '\n') :
    ∃ tags, (∀ tag ∈ tags, IsRemark ['#'] line tag) ∧
      (grammar .hash).Course (.start ('#' :: (line ++ rest)))
        ⟨[], ⟨.comment, 0, byteLength ('#' :: line), 0⟩ :: tags, .between ('#' :: line) rest,
          .between ('#' :: line) rest, none⟩ := by
  have hRight : ∀ x ∈ rest.head?, x ∉ remarkCharacters := by
    have hBreak : '\n' ∉ remarkCharacters := by decide
    exact fun x hx => hRest x hx ▸ hBreak
  have hNot : ∀ after, after <:+ line → after ≠ [] → ∀ left,
      stop? false "$" (.between left (after ++ rest)) = none := by
    intro after hAfter hSome left
    obtain ⟨x, after, rfl⟩ := List.exists_cons_of_ne_nil hSome
    have hBreak : x ≠ '\n' := fun h => hLine (h ▸ hAfter.subset List.mem_cons_self)
    exact stop?_eq_none_of_begins rfl (begins_lineEnd hBreak)
  -- What follows the line is a line break or nothing, which makes no shebang either.
  have hOther : ¬ ['!'] <+: line ++ rest := by
    intro h
    cases line with
    | nil =>
      cases rest with
      | nil => simp at h
      | cons x rest =>
        obtain rfl := hRest x rfl
        exact absurd (List.cons_prefix_cons.1 h).1 (by decide)
    | cons x line =>
      obtain ⟨rfl, -⟩ := List.cons_prefix_cons.1 h
      exact hShebang (by simp)
  obtain ⟨tags, pending, lastOpening, hTags, hLast, hBody⟩ :=
    isComment_hash.exists_course_body [] (.between [] _) (some 0) hRight hNot ['#']
  have hMoved : lastOpening ≠ some (byteLength (['#'] ++ line)) := by
    have hMark : 0 < byteLength ['#'] := by decide
    rcases hLast with rfl | rfl
    · rw [byteLength_append]
      exact fun h => absurd (Option.some.inj h) (by omega)
    · nofun
  have hEnd := isComment_hash.course_end ([] ++ tags) pending lastOpening hRight
    (stop?_lineEnd (['#'] ++ line) hRest) (.inl hMoved)
  exact ⟨tags, hTags, ((course_hashOpening hOther).trans hBody).trans hEnd⟩

/-- What is found in a text that opens with `#*` and has more than one line: the comment
ends with the first line. -/
theorem head?_regions_hash {m : Machine} (hFollows : m.Follows (grammar .hash)) (t : Tokenizer m)
    {line : List Char} (hLine : '\n' ∉ line) (rest : List Char) {tokens : Tokens}
    (hTokens : (t.tokenize (.ofList ('#' :: '*' :: (line ++ '\n' :: rest)))).1 = .ok tokens) :
    tokens.regions.head? = some ⟨.comment, 0, byteLength ('#' :: '*' :: line), 0⟩ := by
  have hStarred : '\n' ∉ '*' :: line := by simpa using hLine
  obtain ⟨tags, -, hCourse⟩ := exists_course_hash hStarred (by simp) ('\n' :: rest) (by simp)
  have hPos : 0 < byteLength ('#' :: '*' :: line) := Nat.add_pos_left (Char.utf8Size_pos '#') _
  rw [← String.toList_ofList (l := '#' :: (('*' :: line) ++ '\n' :: rest))] at hCourse
  exact hFollows.keeps t _ _ _ tokens hCourse rfl (List.forall_mem_nil _) hPos hTokens

/-- In the oldest version, a comment between `#*` and `*#` takes all of a text of a single line,
with no more than remarks in it. In a text of several lines it ends with the first one, if what
follows is in the language at all. -/
theorem tokenize_hashComment (body : List Char) :
    ∃ m, (grammar .hash).compile = .ok m ∧ ∀ t : Tokenizer m,
      ('\n' ∉ body → ∃ tokens tags,
        (t.tokenize (.ofList ('#' :: '*' :: (body ++ ['*', '#'])))).1 = .ok tokens ∧
        tokens.regions =
          ⟨.comment, 0, byteLength ('#' :: '*' :: (body ++ ['*', '#'])), 0⟩ :: tags ∧
        ∀ tag ∈ tags, IsRemark ['#'] ('*' :: (body ++ ['*', '#'])) tag) ∧
      ('\n' ∈ body →
        (∃ tokens, (t.tokenize (.ofList ('#' :: '*' :: (body ++ ['*', '#'])))).1 = .ok tokens ∧
          tokens.regions.head? =
            some ⟨.comment, 0, byteLength ('#' :: '*' :: body.takeWhile (· ≠ '\n')), 0⟩) ∨
        ∃ position lexeme,
          (t.tokenize (.ofList ('#' :: '*' :: (body ++ ['*', '#'])))).1 =
            .error (.illegal position lexeme)) := by
  obtain ⟨m, hCompile, hSustained⟩ := exists_sustained .hash
  obtain ⟨m', hCompile', hFollows⟩ := exists_follows .hash
  obtain rfl : m' = m := Except.ok.inj (hCompile'.symm.trans hCompile)
  refine ⟨m', hCompile, fun t => ⟨fun hBody => ?_, fun hBody => ?_⟩⟩
  · have hLine : '\n' ∉ '*' :: (body ++ ['*', '#']) := by simpa using hBody
    obtain ⟨tags, hTags, hCourse⟩ := exists_course_hash hLine (by simp) [] nofun
    rw [List.append_nil] at hCourse
    have hPos : 0 < byteLength ('#' :: '*' :: (body ++ ['*', '#'])) :=
      Nat.add_pos_left (Char.utf8Size_pos '#') _
    obtain ⟨tokens, hTokens, hRegions⟩ := exists_tokens_of_closed hFollows t hCourse
      (List.forall_mem_cons.2 ⟨hPos, fun tag hTag => (hTags tag hTag).start_lt_stop⟩)
    exact ⟨tokens, tags, hTokens, hRegions, hTags⟩
  · obtain ⟨line, rest, rfl, hLine⟩ := List.eq_append_cons_of_mem hBody
    have hOther : ∀ x ∈ line, decide (x ≠ '\n') = true :=
      fun x hx => decide_eq_true fun h => hLine (h ▸ hx)
    have hTake : (line ++ '\n' :: rest).takeWhile (· ≠ '\n') = line := by
      rw [List.takeWhile_append_of_pos hOther]
      simp
    rw [hTake, List.append_assoc, List.cons_append]
    exact (hSustained.ok_or_illegal hCompile t _).imp (fun ⟨tokens, hTokens⟩ =>
      ⟨tokens, hTokens, head?_regions_hash hFollows t hLine _ hTokens⟩) id

/-- A remark within one line, and a line break. -/
theorem tokenize_hashComment_lines : '\n' ∉ "BUG:".toList ∧ '\n' ∈ "a\n".toList ∧
    ∃ m, (grammar .hash).compile = .ok m ∧ ∀ t : Tokenizer m,
      (∃ tokens tags, (t.tokenize "#*BUG:*#").1 = .ok tokens ∧
          tokens.regions = ⟨.comment, 0, 8, 0⟩ :: tags ∧
        ∀ tag ∈ tags, IsRemark ['#'] "*BUG:*#".toList tag) ∧
      ((∃ tokens, (t.tokenize "#*a\n*#").1 = .ok tokens ∧
          tokens.regions.head? = some ⟨.comment, 0, 3, 0⟩) ∨
        ∃ position lexeme, (t.tokenize "#*a\n*#").1 = .error (.illegal position lexeme)) := by
  have hOne : '\n' ∉ "BUG:".toList := by decide
  have hTwo : '\n' ∈ "a\n".toList := by decide
  obtain ⟨m, hCompile, hRemark⟩ := tokenize_hashComment "BUG:".toList
  obtain ⟨m', hCompile', hLines⟩ := tokenize_hashComment "a\n".toList
  obtain rfl : m' = m := Except.ok.inj (hCompile'.symm.trans hCompile)
  exact ⟨hOne, hTwo, m', hCompile, fun t => ⟨(hRemark t).1 hOne, (hLines t).2 hTwo⟩⟩

/-- Not each comment between `#*` and `*#` takes all of its text: one with a line break does not. -/
theorem not_forall_tokenize_hashComment : ¬ ∃ m, (grammar .hash).compile = .ok m ∧
    ∀ (t : Tokenizer m) (body : List Char), ¬ ['*', '#'] <:+: body →
      ∃ tokens tags,
        (t.tokenize (.ofList ('#' :: '*' :: (body ++ ['*', '#'])))).1 = .ok tokens ∧
        tokens.regions =
          ⟨.comment, 0, byteLength ('#' :: '*' :: (body ++ ['*', '#'])), 0⟩ :: tags ∧
        ∀ tag ∈ tags, tag.stop ≤ byteLength ('#' :: '*' :: (body ++ ['*', '#'])) := by
  rintro ⟨m, hCompile, hAll⟩
  obtain ⟨m', hCompile', hFollows⟩ := exists_follows .hash
  obtain rfl : m' = m := Except.ok.inj (hCompile'.symm.trans hCompile)
  obtain ⟨tokens, tags, hTokens, hRegions, -⟩ := hAll (.fresh m') ['\n'] (by decide)
  have hFirst :=
    head?_regions_hash hFollows (.fresh m') (List.not_mem_nil (a := '\n')) ['*', '#'] hTokens
  have hLengths :
      byteLength ('#' :: '*' :: (['\n'] ++ ['*', '#'])) = 5 ∧ byteLength ['#', '*'] = 2 := by
    decide
  rw [hRegions, List.head?_cons, hLengths.1, hLengths.2] at hFirst
  cases hFirst

end Highlighter.Co
