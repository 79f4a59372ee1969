import Highlighter.Proofs.Code
import Highlighter.Proofs.Registry.Catalog

/-! Detecting the language of a text. Of the candidates in whose languages something is found,
the earliest of the most relevant ones is taken, and the text is highlighted as it is on
request in that language; the others play no part in it. A text in which nothing is found in
any of them is plain text. -/

namespace Highlighter

open Text

/-! ### The most relevant finding -/

/-- The earliest of the most relevant findings: those before it are less relevant, and
those after it not more so. -/
def Foremost (findings : List (String × Tokens)) (best : String × Tokens) : Prop :=
  ∃ before after, findings = before ++ best :: after ∧
    (∀ e ∈ before, e.2.relevance < best.2.relevance) ∧
      ∀ e ∈ after, e.2.relevance ≤ best.2.relevance

namespace Foremost

variable {findings : List (String × Tokens)} {best e : String × Tokens}

theorem singleton (best : String × Tokens) : Foremost [best] best :=
  ⟨[], [], rfl, nofun, nofun⟩

theorem le (h : Foremost findings best) (he : e ∈ findings) :
    e.2.relevance ≤ best.2.relevance := by
  obtain ⟨before, after, rfl, hBefore, hAfter⟩ := h
  rcases List.mem_append.1 he with he | he
  · exact UInt32.le_of_lt (hBefore e he)
  · rcases List.mem_cons.1 he with rfl | he
    · exact UInt32.le_refl _
    · exact hAfter e he

theorem concat (h : Foremost findings best) (e : String × Tokens) :
    ∃ best', Registry.moreRelevant (some best) e.1 e.2 = some best' ∧
      Foremost (findings ++ [e]) best' := by
  unfold Registry.moreRelevant
  by_cases hMore : e.2.relevance > best.2.relevance
  · refine ⟨e, if_pos hMore, findings, [], rfl, fun x hx => ?_, nofun⟩
    exact UInt32.lt_of_le_of_lt (h.le hx) hMore
  · obtain ⟨before, after, rfl, hBefore, hAfter⟩ := h
    refine ⟨best, if_neg hMore, before, after ++ [e], by simp, hBefore, fun x hx => ?_⟩
    rcases List.mem_append.1 hx with hx | hx
    · exact hAfter x hx
    · rw [List.mem_singleton.1 hx]
      exact UInt32.not_lt.1 hMore

end Foremost

namespace Registry

/-- The best of some findings, of which those in `done` have been looked at. -/
theorem exists_foremost_foldl {done : List (String × Tokens)} {best : String × Tokens}
    (h : Foremost done best) (findings : List (String × Tokens)) : ∃ best',
      findings.foldl (fun best e => moreRelevant best e.1 e.2) (some best) = some best' ∧
        Foremost (done ++ findings) best' := by
  induction findings generalizing done best with
  | nil => exact ⟨best, rfl, by rwa [List.append_nil]⟩
  | cons e findings ih =>
    obtain ⟨best1, hStep, hConcat⟩ := h.concat e
    obtain ⟨best2, hRest, hForemost⟩ := ih hConcat
    rw [List.append_assoc, List.singleton_append] at hForemost
    exact ⟨best2, by rw [List.foldl_cons, hStep, hRest], hForemost⟩

variable {r : Registry} {text : String} {tags : List String} {tag : String} {found : Tokens}

/-- A tag leads to a language in which something is found in a text. -/
def Finds (r : Registry) (text tag : String) (found : Tokens) : Prop :=
  ∃ m, r.find? tag = some m ∧ m.tokenize text = .ok found

/-- What a tag leads to in a text, if its language is known and the text is in it. -/
def finding? (r : Registry) (text tag : String) : Option (String × Tokens) :=
  (r.find? tag).bind fun m => (m.tokenize text).toOption.map (tag, ·)

def findings (r : Registry) (text : String) (tags : List String) : List (String × Tokens) :=
  tags.filterMap (r.finding? text)

theorem finding?_eq_some_iff {e : String × Tokens} :
    r.finding? text tag = some e ↔ e.1 = tag ∧ r.Finds text tag e.2 := by
  obtain ⟨tag', found⟩ := e
  unfold finding? Finds
  cases r.find? tag with
  | none => simp
  | some m =>
    cases hFound : m.tokenize text with
    | error e => simp [Except.toOption, hFound]
    | ok found' =>
      simp only [Except.toOption, Option.bind_some, Option.map_some, Option.some.injEq,
        Prod.mk.injEq, exists_eq_left', hFound, Except.ok.injEq]
      exact and_congr_left fun _ => eq_comm

theorem mostRelevant_eq_foldl (r : Registry) (text : String) (tags : List String) :
    r.mostRelevant text tags =
      (r.findings text tags).foldl (fun best e => moreRelevant best e.1 e.2) none := by
  unfold mostRelevant
  generalize (none : Option (String × Tokens)) = best
  induction tags generalizing best with
  | nil => rfl
  | cons tag tags ih =>
    rw [List.foldl_cons, ih]
    unfold findings finding?
    rw [List.filterMap_cons]
    cases r.find? tag with
    | none => rfl
    | some m => cases hFound : m.tokenize text <;> simp [Except.toOption, hFound]

/-- Something is found in the most relevant language, if in any. -/
theorem exists_of_findings_ne_nil (h : r.findings text tags ≠ []) : ∃ before tag after found,
    tags = before ++ tag :: after ∧ r.mostRelevant text tags = some (tag, found) ∧
      r.Finds text tag found ∧
      (∀ t ∈ before, ∀ f, r.Finds text t f → f.relevance < found.relevance) ∧
      ∀ t ∈ after, ∀ f, r.Finds text t f → f.relevance ≤ found.relevance := by
  obtain ⟨first, rest, hFindings⟩ := List.exists_cons_of_ne_nil h
  obtain ⟨⟨best, found⟩, hBest, before, after, hSplit, hBefore, hAfter⟩ :=
    exists_foremost_foldl (.singleton first) rest
  rw [List.singleton_append, ← hFindings] at hSplit
  obtain ⟨tags1, tags2, rfl, hTags1, hTags2⟩ := List.filterMap_eq_append_iff.1 hSplit
  obtain ⟨skipped, tag, tags3, rfl, hSkipped, hTag, hTags3⟩ :=
    List.filterMap_eq_cons_iff.1 hTags2
  obtain ⟨rfl, hFinds⟩ := finding?_eq_some_iff.1 hTag
  refine ⟨tags1 ++ skipped, _, tags3, found, by simp, ?_, hFinds, fun t ht f hf => ?_,
    fun t ht f hf => ?_⟩
  · rw [mostRelevant_eq_foldl, hFindings, List.foldl_cons]
    exact hBest
  · have hEntry : r.finding? text t = some (t, f) := finding?_eq_some_iff.2 ⟨rfl, hf⟩
    rcases List.mem_append.1 ht with ht | ht
    · exact hBefore (t, f) (hTags1 ▸ List.mem_filterMap.2 ⟨t, ht, hEntry⟩)
    · rw [hSkipped t ht] at hEntry
      cases hEntry
  · have hEntry : r.finding? text t = some (t, f) := finding?_eq_some_iff.2 ⟨rfl, hf⟩
    exact hAfter (t, f) (hTags3 ▸ List.mem_filterMap.2 ⟨t, ht, hEntry⟩)

theorem findings_eq_nil_iff :
    r.findings text tags = [] ↔ ∀ tag ∈ tags, ∀ found, ¬ r.Finds text tag found := by
  unfold findings
  rw [List.filterMap_eq_nil_iff]
  refine forall₂_congr fun tag _ => ⟨fun hNone found hFinds => ?_, fun hNone => ?_⟩
  · have hEntry : r.finding? text tag = some (tag, found) :=
      finding?_eq_some_iff.2 ⟨rfl, hFinds⟩
    rw [hNone] at hEntry
    cases hEntry
  · refine Option.eq_none_iff_forall_ne_some.2 fun e he => ?_
    exact hNone e.2 (finding?_eq_some_iff.1 he).2

/-! ### Tags in lower case -/

def ListsLowercase (r : Registry) : Prop := ∀ tag ∈ r.languages, lowercase tag = tag

@[simp] theorem languages_addAlias (r : Registry) (name newAlias : String) :
    (r.addAlias name newAlias).languages = r.languages := by
  unfold addAlias
  split <;> rfl

@[simp] theorem languages_addAliases (r : Registry) (name : String) (aliases : List String) :
    (aliases.foldl (fun r newAlias => r.addAlias name newAlias) r).languages = r.languages := by
  induction aliases generalizing r with
  | nil => rfl
  | cons newAlias aliases ih => rw [List.foldl_cons, ih, languages_addAlias]

namespace ListsLowercase

theorem addMachine (h : r.ListsLowercase) (tag : String) (m : Machine) :
    (r.addMachine tag m).ListsLowercase := by
  have hAdded : ∀ t ∈ if r.languages.contains (lowercase tag) then r.languages
      else r.languages ++ [lowercase tag], lowercase t = t := by
    intro t ht
    split at ht
    · exact h t ht
    · rcases List.mem_append.1 ht with ht | ht
      · exact h t ht
      · rw [List.mem_singleton.1 ht, lowercase_lowercase]
  unfold ListsLowercase Registry.addMachine
  dsimp only
  rw [languages_addAliases]
  split <;> exact hAdded

theorem addMachines (h : r.ListsLowercase) (entries : List (String × Machine)) :
    (entries.foldl (fun r entry => r.addMachine entry.1 entry.2) r).ListsLowercase := by
  induction entries generalizing r with
  | nil => exact h
  | cons entry entries ih => exact ih (h.addMachine entry.1 entry.2)

theorem after (h : r.ListsLowercase) (call : Call) : (r.after call).ListsLowercase := by
  unfold Registry.after
  cases hCall : r.call call with
  | error e => exact h
  | ok r' =>
    show r'.ListsLowercase
    cases call with
    | register tag g =>
      simp only [Registry.call, register] at hCall
      cases hCompile : g.compile with
      | error e =>
        rw [hCompile] at hCall
        cases hCall
      | ok m =>
        rw [hCompile] at hCall
        cases hCall
        exact h.addMachine tag m
    | addAlias name newAlias =>
      cases hCall
      unfold ListsLowercase
      rw [languages_addAlias]
      exact h
    | addPlain aliases =>
      simp only [Registry.call, addPlain, register] at hCall
      cases hCompile : ({ name := plainTag } : Grammar).compile with
      | error e =>
        rw [hCompile] at hCall
        cases hCall
      | ok m =>
        rw [hCompile] at hCall
        cases hCall
        unfold ListsLowercase
        rw [languages_addAliases]
        exact h.addMachine plainTag m
    | addGlobals globals =>
      cases hCall
      exact h.addMachines globals.entries

theorem run (calls : List Call) : (calls.foldl Registry.after .empty).ListsLowercase := by
  have hRun : ∀ {r : Registry}, r.ListsLowercase →
      (calls.foldl Registry.after r).ListsLowercase := by
    induction calls with
    | nil => exact id
    | cons call calls ih => exact fun h => ih (h.after call)
  exact hRun nofun

theorem candidates (h : r.ListsLowercase) (subset : Option (List String)) :
    ∀ tag ∈ r.candidates subset, lowercase tag = tag := by
  intro tag hTag
  cases subset with
  | none => exact h tag (List.mem_filter.1 hTag).1
  | some tags =>
    obtain ⟨t, -, rfl⟩ := List.mem_map.1 hTag
    exact lowercase_lowercase t

end ListsLowercase

theorem highlight_of_finds {content : String}
    (h : r.Finds (.ofList (unifyNewlines content.toList)) tag found) {request : Request}
    (hName : lowercase request.language = tag) : r.highlight content request =
      .ok (.ofTokens tag (unifyNewlines content.toList) found false request.merge) := by
  obtain ⟨m, hFind, hFound⟩ := h
  unfold highlight highlightBy
  dsimp only
  rw [hName, hFind]
  dsimp only
  rw [hFound]

/-! ### Plain text -/

/-- A line without categories, which has no piece if it is empty. -/
def plainLine (cs : List Char) : Line := if cs = [] then [] else [⟨String.ofList cs, []⟩]

theorem lines_addParts {parts : List (List Char)} (h : parts ≠ []) (merge : Bool)
    (complete : List Line) :
    ((LineBuilder.mk complete []).addParts merge [] parts).lines =
      complete.reverse ++ parts.map plainLine := by
  have hFirst : ∀ (complete : List Line) (part : List Char),
      ((LineBuilder.mk complete []).addText merge [] part).newLine =
        ⟨plainLine part :: complete, []⟩ := by
    intro complete part
    by_cases hPart : part = [] <;> simp [LineBuilder.addText, LineBuilder.newLine, plainLine, hPart]
  induction parts generalizing complete with
  | nil => exact absurd rfl h
  | cons part parts ih =>
    cases parts with
    | nil => simp [LineBuilder.addParts, LineBuilder.lines, hFirst]
    | cons next parts =>
      rw [LineBuilder.addParts, hFirst, ih (List.cons_ne_nil _ _)]
      · simp
      · exact List.cons_ne_nil _ _

theorem lines_plainTokens (text : List Char) (merge : Bool) :
    (LineBuilder.empty.addTokens merge text (plainTokens text).tokens).lines =
      (splitOn '\n' text).map plainLine := by
  unfold plainTokens
  dsimp only
  split
  · next hText =>
    subst hText
    simp [LineBuilder.addTokens, LineBuilder.lines, LineBuilder.newLine, LineBuilder.empty,
      splitOn, plainLine]
  · have hSplit := splitAtByte_append text []
    rw [List.append_nil] at hSplit
    rw [LineBuilder.addTokens, Nat.sub_zero, hSplit]
    have hNe : splitOn '\n' text ≠ [] := by
      rw [splitOn_eq]
      exact List.splitOn_ne_nil _ _
    exact lines_addParts hNe merge []

/-! ### Detection -/

theorem highlightAuto_of_findings_eq {r' : Registry} {content : String}
    {subset other : Option (List String)}
    (h : r'.findings (.ofList (unifyNewlines content.toList)) (r'.candidates other) =
      r.findings (.ofList (unifyNewlines content.toList)) (r.candidates subset)) :
    r'.highlightAuto content other = r.highlightAuto content subset := by
  unfold highlightAuto
  dsimp only
  rw [mostRelevant_eq_foldl, mostRelevant_eq_foldl, h]

/-- The language of a text is detected. If something is found in it in some of the candidates, they
have a foremost one, the earliest of the most relevant, and the text comes out as it is highlighted
on request in that language. If not, it comes out line by line as plain text. Candidates that are
not known, or that fail on the text in any way, make no difference to it. -/
theorem highlightAuto_after (calls : List Call) (content : String) (subset : Option (List String)) :
    let r := calls.foldl Registry.after .empty
    let text := unifyNewlines content.toList
    let tags := r.candidates subset
    let code := r.highlightAuto content subset
    ((∃ tag ∈ tags, ∃ found, r.Finds (.ofList text) tag found) → ∃ before tag after found,
      tags = before ++ tag :: after ∧ r.Finds (.ofList text) tag found ∧
      (∀ t ∈ before, ∀ f, r.Finds (.ofList text) t f → f.relevance < found.relevance) ∧
      (∀ t ∈ after, ∀ f, r.Finds (.ofList text) t f → f.relevance ≤ found.relevance) ∧
      lowercase tag = tag ∧ code = .ofTokens tag text found false true ∧
      ∀ name plainFallback, lowercase name = tag →
        r.highlight content { language := name, plainFallback } = .ok code) ∧
    ((∀ tag ∈ tags, ∀ found, ¬ r.Finds (.ofList text) tag found) →
      code = ⟨plainTag, 0, false, [], (linesOf content.toList).map plainLine⟩) ∧
    ∀ (r' : Registry) other,
      r'.findings (.ofList text) (r'.candidates other) = r.findings (.ofList text) tags →
        r'.highlightAuto content other = code := by
  intro r text tags code
  refine ⟨fun ⟨someTag, hMem, someFound, hSome⟩ => ?_, fun hNone => ?_,
    fun r' other h => ?_⟩
  · have hFindings : r.findings (.ofList text) tags ≠ [] := fun hNil =>
      findings_eq_nil_iff.1 hNil someTag hMem someFound hSome
    obtain ⟨before, tag, after, found, hTags, hBest, hFinds, hBefore, hAfter⟩ :=
      exists_of_findings_ne_nil hFindings
    have hTag : tag ∈ tags := by
      rw [hTags]
      exact List.mem_append_right _ List.mem_cons_self
    have hLower : lowercase tag = tag := (ListsLowercase.run calls).candidates subset tag hTag
    have hCode : code = .ofTokens tag text found false true := by
      show r.highlightAuto content subset = _
      unfold highlightAuto
      dsimp only
      rw [hBest]
    refine ⟨before, tag, after, found, hTags, hFinds, hBefore, hAfter, hLower, hCode, ?_⟩
    intro name plainFallback hName
    rw [hCode]
    exact highlight_of_finds hFinds hName
  · have hBest : r.mostRelevant (.ofList text) tags = none := by
      rw [mostRelevant_eq_foldl, findings_eq_nil_iff.2 hNone]
      rfl
    show r.highlightAuto content subset = _
    unfold highlightAuto
    dsimp only
    rw [hBest, ← splitOn_unifyNewlines, ← lines_plainTokens _ true]
    rfl
  · exact highlightAuto_of_findings_eq h

/-- The calls that make four languages known. The first three say differently how much the word `x`
speaks for them, and the last one does without it. -/
def rivals : List Call :=
  [.register "Quiet" { name := "quiet", keywords := some { keyword := ["x|1"] } },
    .register "Loud" { name := "loud", keywords := some { keyword := ["x|2"] } },
    .register "Echo" { name := "echo", keywords := some { keyword := ["x|2"] } },
    .register "Strict" { name := "strict", illegal := some "x" }]

/-- The first of the two loudest languages is taken, past one that rejects the text and one that is
not known, and whether these are tried makes no difference. -/
theorem highlightAuto_rivals :
    let r := rivals.foldl Registry.after .empty
    let code := r.highlightAuto "x\r\nx" (some ["STRICT", "nowhere", "Quiet", "LOUD", "echo"])
    (∃ tag ∈ r.candidates (some ["STRICT", "nowhere", "Quiet", "LOUD", "echo"]),
      ∃ found, r.Finds (.ofList (unifyNewlines "x\r\nx".toList)) tag found) ∧
    code.language = "loud" ∧ code.relevance = 4 ∧
    r.highlight "x\r\nx" { language := "Loud" } = .ok code ∧
    r.highlightAuto "x\r\nx" (some ["quiet", "loud", "echo"]) = code := by
  intro r code
  obtain ⟨hDetects, -, hOthers⟩ :=
    highlightAuto_after rivals "x\r\nx" (some ["STRICT", "nowhere", "Quiet", "LOUD", "echo"])
  have hSome : ∃ tag ∈ r.candidates (some ["STRICT", "nowhere", "Quiet", "LOUD", "echo"]),
      ∃ found, r.Finds (.ofList (unifyNewlines "x\r\nx".toList)) tag found := by
    by_contra hNone
    push Not at hNone
    have hTags : (r.findings (.ofList (unifyNewlines "x\r\nx".toList))
        (r.candidates (some ["STRICT", "nowhere", "Quiet", "LOUD", "echo"]))).map (·.1) =
          ["quiet", "loud", "echo"] := by decide +kernel
    rw [findings_eq_nil_iff.2 hNone] at hTags
    cases hTags
  have hLanguage : code.language = "loud" := by decide +kernel
  refine ⟨hSome, hLanguage, by decide +kernel, ?_, hOthers r _ (by decide +kernel)⟩
  obtain ⟨before, tag, after, found, -, -, -, -, -, hCode, hHighlight⟩ := hDetects hSome
  refine hHighlight "Loud" false ?_
  calc lowercase "Loud"
    _ = "loud" := by decide +kernel
    _ = tag := by rw [← hLanguage, show code = _ from hCode, Code.ofTokens]

end Registry

end Highlighter
