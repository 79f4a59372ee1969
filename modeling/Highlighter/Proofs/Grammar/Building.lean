import Highlighter.Proofs.Grammar.Image
import Highlighter.Proofs.Pattern.Immediate

/-! Steps in the construction of a machine that succeed. `Runs` says what a step gives and
what it makes of the tables; there is a rule for each way to put steps together, and one for
each entry into a table. -/

namespace Highlighter.Builder

/-- A step succeeds with a result and leads from one state to another. -/
def Runs {α : Type} (x : BuilderM α) (b : Builder) (a : α) (b' : Builder) : Prop :=
  x.run b = .ok (a, b')

section Runs

variable {α β : Type} {b b' : Builder}

theorem runs_pure {a r : α} : Runs (pure a) b r b' ↔ a = r ∧ b = b' := by
  show Except.ok (a, b) = Except.ok (r, b') ↔ _
  rw [Except.ok.injEq, Prod.mk.injEq]

theorem runs_bind {x : BuilderM α} {f : α → BuilderM β} {r : β} :
    Runs (x >>= f) b r b' ↔ ∃ a b1, Runs x b a b1 ∧ Runs (f a) b1 r b' := by
  unfold Runs
  rw [StateT.run_bind]
  constructor
  · intro h
    cases hx : x.run b with
    | error e =>
      rw [hx] at h
      cases h
    | ok p =>
      rw [hx] at h
      exact ⟨p.1, p.2, rfl, h⟩
  · rintro ⟨a, b1, hx, hf⟩
    rw [hx]
    exact hf

theorem runs_map {x : BuilderM α} {f : α → β} {r : β} :
    Runs (f <$> x) b r b' ↔ ∃ a, Runs x b a b' ∧ f a = r := by
  rw [map_eq_pure_bind, runs_bind]
  constructor
  · rintro ⟨a, b1, hx, hf⟩
    obtain ⟨hr, rfl⟩ := runs_pure.1 hf
    exact ⟨a, hx, hr⟩
  · rintro ⟨a, hx, hr⟩
    exact ⟨a, b', hx, runs_pure.2 ⟨hr, rfl⟩⟩

theorem runs_get {r : Builder} : Runs get b r b' ↔ b = r ∧ b = b' := runs_pure

theorem runs_set {s : Builder} {r : PUnit} : Runs (set s) b r b' ↔ s = b' := by
  show Except.ok (PUnit.unit, s) = Except.ok (r, b') ↔ _
  rw [Except.ok.injEq, Prod.mk.injEq]
  exact and_iff_right rfl

theorem runs_modify {f : Builder → Builder} {r : PUnit} : Runs (modify f) b r b' ↔ f b = b' :=
  runs_set (b := b)

theorem not_runs_throw {e : Error} {r : α} : ¬ Runs (throw e) b r b' := nofun

end Runs

/-- Tables only grow. -/
structure Grows (b b' : Builder) : Prop where
  grammar : b'.grammar = b.grammar
  caseInsensitive : b'.caseInsensitive = b.caseInsensitive
  regexes : b.regexes.toList <+: b'.regexes.toList
  keywordSets : b.keywordSets.toList <+: b'.keywordSets.toList

theorem Grows.refl (b : Builder) : Grows b b := ⟨rfl, rfl, List.prefix_rfl, List.prefix_rfl⟩

theorem Grows.trans {b b1 b2 : Builder} (h1 : Grows b b1) (h2 : Grows b1 b2) : Grows b b2 :=
  ⟨h2.grammar.trans h1.grammar, h2.caseInsensitive.trans h1.caseInsensitive,
    h1.regexes.trans h2.regexes, h1.keywordSets.trans h2.keywordSets⟩

/-- Patterns are entered with one case rule. -/
def Uniform (b : Builder) : Prop := ∀ r ∈ b.regexes, r.ignoreCase = b.caseInsensitive

theorem Grows.getElem?_regexes {b b' : Builder} (h : Grows b b') {i : Nat} {r : Regex}
    (hr : b.regexes[i]? = some r) : b'.regexes[i]? = some r := by
  obtain ⟨rest, hRest⟩ := h.regexes
  rw [← Array.getElem?_toList] at hr ⊢
  rw [← hRest, List.getElem?_append_left (List.getElem?_eq_some_iff.1 hr).1]
  exact hr

theorem Grows.getElem?_keywordSets {b b' : Builder} (h : Grows b b') {i : Nat} {k : KeywordIndex}
    (hk : b.keywordSets[i]? = some k) : b'.keywordSets[i]? = some k := by
  obtain ⟨rest, hRest⟩ := h.keywordSets
  rw [← Array.getElem?_toList] at hk ⊢
  rw [← hRest, List.getElem?_append_left (List.getElem?_eq_some_iff.1 hk).1]
  exact hk

/-- Something is entered into the tables of patterns and keywords. -/
structure Enters (b b' : Builder) : Prop where
  grows : Grows b b'
  uniform : b.Uniform → b'.Uniform
  modes : b'.modes = b.modes

theorem Enters.refl (b : Builder) : Enters b b := ⟨.refl b, id, rfl⟩

theorem Enters.trans {b b1 b2 : Builder} (h1 : Enters b b1) (h2 : Enters b1 b2) : Enters b b2 :=
  ⟨h1.grows.trans h2.grows, h2.uniform ∘ h1.uniform, h2.modes.trans h1.modes⟩

section Entries

variable {b b' : Builder}

theorem eq_of_runs_checkPlace {place r : Nat} {table : Table}
    (h : Runs (checkPlace place table) b r b') : r = place ∧ b' = b := by
  unfold checkPlace at h
  split at h
  · obtain ⟨rfl, rfl⟩ := runs_pure.1 h
    exact ⟨rfl, rfl⟩
  · obtain ⟨_, _, _, hThrow⟩ := runs_bind.1 h
    exact absurd hThrow not_runs_throw

/-- An entry of a table of `size` entries: the one that has been found, or a new one,
which leads to `entered`. -/
def enterAt (table : Table) (found : Option Nat) (size : Nat) (entered : Builder) : BuilderM Nat :=
  match found with
  | some place => checkPlace place table
  | none => do
    let place ← checkPlace size table
    set entered
    return place

theorem enterPattern_eq (pattern : String) : enterPattern pattern = get >>= fun b =>
    enterAt .regexes (b.regexes.findIdx? (·.pattern == pattern)) b.regexes.size
      { b with regexes := b.regexes.push (.ofPattern pattern b.caseInsensitive) } := rfl

theorem enterKeywords_eq (keywords : Keywords) : enterKeywords keywords = get >>= fun b =>
    enterAt .keywordSets
      (b.keywordSets.findIdx? (· == keywords.index b.caseInsensitive)) b.keywordSets.size
      { b with keywordSets := b.keywordSets.push (keywords.index b.caseInsensitive) } := rfl

theorem cases_of_runs_enterAt {table : Table} {found : Option Nat} {size place : Nat}
    {entered : Builder} (h : Runs (enterAt table found size entered) b place b') :
    (found = some place ∧ b' = b) ∨ (found = none ∧ place = size ∧ b' = entered) := by
  cases found with
  | some place' =>
    obtain ⟨rfl, rfl⟩ := eq_of_runs_checkPlace h
    exact .inl ⟨rfl, rfl⟩
  | none =>
    obtain ⟨_, _, hCheck, hRest⟩ := runs_bind.1 h
    obtain ⟨rfl, rfl⟩ := eq_of_runs_checkPlace hCheck
    obtain ⟨_, _, hSet, hPure⟩ := runs_bind.1 hRest
    obtain ⟨rfl, rfl⟩ := runs_pure.1 hPure
    exact .inr ⟨rfl, rfl, (runs_set.1 hSet).symm⟩

theorem enters_of_runs_enterPattern {pattern : String} {place : Nat} (hUniform : b.Uniform)
    (h : Runs (enterPattern pattern) b place b') :
    Enters b b' ∧ b'.regexes[place]? = some (.ofPattern pattern b.caseInsensitive) := by
  rw [enterPattern_eq] at h
  obtain ⟨_, _, hGet, h⟩ := runs_bind.1 h
  obtain ⟨rfl, rfl⟩ := runs_get.1 hGet
  rcases cases_of_runs_enterAt h with ⟨hFound, rfl⟩ | ⟨-, rfl, rfl⟩
  · obtain ⟨hLt, hPattern, -⟩ := Array.findIdx?_eq_some_iff_getElem.1 hFound
    refine ⟨.refl _, Array.getElem?_eq_some_iff.2 ⟨hLt, ?_⟩⟩
    exact Regex.ext_of_eq (beq_iff_eq.1 hPattern) (hUniform _ (Array.getElem_mem hLt))
  · refine ⟨⟨⟨rfl, rfl, ?_, List.prefix_rfl⟩, fun _ r hr => ?_, rfl⟩,
      Array.getElem?_push_size⟩
    · exact ⟨_, Array.toList_push.symm⟩
    · rcases Array.mem_push.1 hr with hr | rfl
      · exact hUniform r hr
      · rfl

theorem enters_of_runs_enterKeywords {keywords : Keywords} {place : Nat}
    (h : Runs (enterKeywords keywords) b place b') :
    Enters b b' ∧ b'.keywordSets[place]? = some (keywords.index b.caseInsensitive) := by
  rw [enterKeywords_eq] at h
  obtain ⟨_, _, hGet, h⟩ := runs_bind.1 h
  obtain ⟨rfl, rfl⟩ := runs_get.1 hGet
  rcases cases_of_runs_enterAt h with ⟨hFound, rfl⟩ | ⟨-, rfl, rfl⟩
  · obtain ⟨hLt, hIndex, -⟩ := Array.findIdx?_eq_some_iff_getElem.1 hFound
    exact ⟨.refl _, Array.getElem?_eq_some_iff.2 ⟨hLt, beq_iff_eq.1 hIndex⟩⟩
  · exact ⟨⟨⟨rfl, rfl, List.prefix_rfl, ⟨_, Array.toList_push.symm⟩⟩, id, rfl⟩,
      Array.getElem?_push_size⟩

theorem reserves_of_runs {n : Nat} {ids : List Nat} (h : Runs (reserve n) b ids b') :
    ids = List.range' b.modes.size n ∧ Grows b b' ∧ (b.Uniform → b'.Uniform) ∧
      ∃ added, added.length = n ∧ b'.modes.toList = b.modes.toList ++ added := by
  obtain ⟨_, _, hGet, h⟩ := runs_bind.1 h
  obtain ⟨rfl, rfl⟩ := runs_get.1 hGet
  dsimp only at h
  split at h
  · obtain ⟨_, _, hSet, h⟩ := runs_bind.1 h
    obtain ⟨rfl, rfl⟩ := runs_pure.1 h
    rw [← runs_set.1 hSet]
    have hPush : ∀ (ids : List Nat) (modes : Array Mode),
        (ids.foldl (fun modes id => modes.push { id }) modes).toList =
          modes.toList ++ ids.map fun id => ({ id } : Mode) := by simp
    refine ⟨rfl, ⟨rfl, rfl, List.prefix_rfl, List.prefix_rfl⟩, id, _, ?_, hPush _ _⟩
    rw [List.length_map, List.length_range']
  · exact absurd h not_runs_throw

theorem enters_of_runs_enterOptional {α β : Type} (table : Builder → Array β)
    {enter : α → BuilderM Nat} {entry : α → β} {o : Option α} {place : Option Nat}
    (hEnter : ∀ a place, Runs (enter a) b place b' → Enters b b' ∧
      (table b')[place]? = some (entry a)) (h : Runs (enterOptional enter o) b place b') :
    Enters b b' ∧ PlaceOf (table b') place (o.map entry) := by
  cases o with
  | none =>
    obtain ⟨rfl, rfl⟩ := runs_pure.1 h
    exact ⟨.refl b, rfl⟩
  | some a =>
    obtain ⟨place, _, hRuns, h⟩ := runs_bind.1 h
    obtain ⟨rfl, rfl⟩ := runs_pure.1 h
    obtain ⟨hEnters, hPlace⟩ := hEnter a place hRuns
    exact ⟨hEnters, congrArg some hPlace⟩

end Entries

end Highlighter.Builder

namespace Highlighter

open Builder

theorem Mode.Depicts.mono {mode : Mode} {b b' : Builder} {caseInsensitive isRoot : Bool}
    {s : ModeSettings} (h : mode.Depicts b.regexes b.keywordSets caseInsensitive isRoot s)
    (hGrows : Grows b b') : mode.Depicts b'.regexes b'.keywordSets caseInsensitive isRoot s :=
  { h with
    opening := h.opening.mono fun _ _ => hGrows.getElem?_regexes
    closing := h.closing.mono fun _ _ => hGrows.getElem?_regexes
    illegal := h.illegal.mono fun _ _ => hGrows.getElem?_regexes
    keywords := h.keywords.mono fun _ _ => hGrows.getElem?_keywordSets }

namespace Builder

theorem enters_of_runs_some_enterPattern {b b' : Builder} {pattern : String} {place : Option Nat}
    (hUniform : b.Uniform) (h : Runs (some <$> enterPattern pattern) b place b') :
    Enters b b' ∧ PlaceOf b'.regexes place (some (.ofPattern pattern b.caseInsensitive)) := by
  obtain ⟨place, hRuns, rfl⟩ := runs_map.1 h
  obtain ⟨hEnters, hPlace⟩ := enters_of_runs_enterPattern hUniform hRuns
  exact ⟨hEnters, congrArg some hPlace⟩

theorem enters_of_runs_enterOpening {b b' : Builder} {isRoot : Bool} {s : ModeSettings}
    {place : Option Nat} (hUniform : b.Uniform) (h : Runs (enterOpening isRoot s) b place b') :
    Enters b b' ∧ PlaceOf b'.regexes place
      (if isRoot then none else some (.ofPattern s.openingPattern b.caseInsensitive)) := by
  cases isRoot with
  | true =>
    obtain ⟨rfl, rfl⟩ := runs_pure.1 h
    exact ⟨.refl b, rfl⟩
  | false => exact enters_of_runs_some_enterPattern hUniform h

theorem enters_of_runs_enterClosing {b b' : Builder} {isRoot : Bool} {s : ModeSettings}
    {place : Option Nat} (hUniform : b.Uniform) (hRoot : isRoot = true → s.closing = none)
    (h : Runs (enterClosing isRoot s) b place b') :
    Enters b b' ∧ PlaceOf b'.regexes place
      (if isRoot then none else s.closingPattern.map (.ofPattern · b.caseInsensitive)) := by
  unfold enterClosing at h
  unfold ModeSettings.closingPattern
  split at h
  · next pattern hPattern =>
    cases isRoot with
    | true => cases (hRoot rfl).symm.trans hPattern
    | false =>
      rw [hPattern]
      exact enters_of_runs_some_enterPattern hUniform h
  · next hNone =>
    rw [hNone, Option.none_or]
    split at h
    · next hAbsent =>
      obtain ⟨rfl, rfl⟩ := runs_pure.1 h
      refine ⟨.refl b, ?_⟩
      cases isRoot with
      | true => rfl
      | false =>
        rw [Bool.false_or] at hAbsent
        rw [if_pos hAbsent]
        rfl
    · next hPresent =>
      rw [Bool.or_eq_true, not_or] at hPresent
      rw [if_neg hPresent.1, if_neg hPresent.2]
      exact enters_of_runs_some_enterPattern hUniform h

/-- A mode is filled in two steps: its settings are entered, then the modes within it, of which
nothing more is known here. -/
theorem exists_of_runs_fill {b b' : Builder} {id : Nat} {isRoot : Bool} {s : ModeSettings}
    {contains : Nat → BuilderM (List Nat)} (hUniform : b.Uniform)
    (hRoot : isRoot = true → s.closing = none) (h : Runs (fill id isRoot s contains) b () b') :
    ∃ b1 b2 ids mode, Enters b b1 ∧ Runs (contains id) b1 ids b2 ∧ mode.id = id ∧
      mode.contains = ids ∧ mode.Depicts b1.regexes b1.keywordSets b.caseInsensitive isRoot s ∧
      b' = { b2 with modes := b2.modes.setIfInBounds id mode } := by
  obtain ⟨opening, b1, hOpening, h⟩ := runs_bind.1 h
  obtain ⟨closing, b2, hClosing, h⟩ := runs_bind.1 h
  obtain ⟨keywords, b3, hKeywords, h⟩ := runs_bind.1 h
  obtain ⟨illegal, b4, hIllegal, h⟩ := runs_bind.1 h
  obtain ⟨ids, b5, hContains, h⟩ := runs_bind.1 h
  have h1 := enters_of_runs_enterOpening hUniform hOpening
  have hUniform1 := h1.1.uniform hUniform
  have h2 := enters_of_runs_enterClosing hUniform1 hRoot hClosing
  have hUniform2 := h2.1.uniform hUniform1
  have h3 := enters_of_runs_enterOptional (·.keywordSets)
    (fun _ _ => enters_of_runs_enterKeywords) hKeywords
  have h4 := enters_of_runs_enterOptional (·.regexes)
    (fun _ _ => enters_of_runs_enterPattern (h3.1.uniform hUniform2)) hIllegal
  -- The case rule never changes, and what has been entered stays at its place as the tables grow.
  obtain ⟨hEnters1, hOpening⟩ := h1
  obtain ⟨hEnters2, hClosing⟩ := h2
  obtain ⟨hEnters3, hKeywords⟩ := h3
  obtain ⟨hEnters4, hIllegal⟩ := h4
  have hCase1 := hEnters1.grows.caseInsensitive
  have hCase2 := hEnters2.grows.caseInsensitive.trans hCase1
  have hCase3 := hEnters3.grows.caseInsensitive.trans hCase2
  rw [hCase1] at hClosing
  rw [hCase2] at hKeywords
  rw [hCase3] at hIllegal
  have hEnters := hEnters3.trans hEnters4
  refine ⟨b4, b5, ids, _, hEnters1.trans (hEnters2.trans hEnters), hContains, rfl, rfl, ?_,
    (runs_modify.1 h).symm⟩
  exact
    { category := rfl
      opening := hOpening.mono fun _ _ => (hEnters2.trans hEnters).grows.getElem?_regexes
      closing := hClosing.mono fun _ _ => hEnters.grows.getElem?_regexes
      illegal := hIllegal
      keywords := hKeywords.mono fun _ _ => hEnters4.grows.getElem?_keywordSets
      relevance := rfl
      returnOpening := rfl
      excludeOpening := rfl
      returnClosing := rfl
      excludeClosing := rfl
      closesParent := rfl
      closesWithParent := rfl }

end Builder

/-- A machine whose patterns are spelled out. -/
def Machine.spelled (m : Machine) : Machine := { m with regexes := m.regexes.map (·.spelled) }

theorem Machine.spelled_eq (m : Machine) : m.spelled = m := by
  have hSame : Regex.spelled = id := funext Regex.spelled_eq
  rw [spelled, hSame, Array.map_id]

namespace Grammar

variable {g : Grammar} {m : Machine}

theorem assemble_eq_ok_iff : g.assemble = .ok m ↔ ∃ b,
    Builder.Runs (Builder.enterGrammar g) ⟨g.name, g.caseInsensitive, #[], #[], #[]⟩ () b ∧
    m = ⟨g.name, g.aliases, g.caseInsensitive, b.regexes, b.keywordSets, b.modes⟩ := by
  unfold assemble Builder.Runs
  constructor
  · intro h
    cases hRun : (Builder.enterGrammar g).run ⟨g.name, g.caseInsensitive, #[], #[], #[]⟩ with
    | error e =>
      rw [hRun] at h
      cases h
    | ok result =>
      rw [hRun] at h
      cases h
      exact ⟨result.2, rfl, rfl⟩
  · rintro ⟨b, hRun, rfl⟩
    rw [hRun]
    rfl

theorem compile_of_assemble_eq_ok (h : g.assemble = .ok m) : g.compile =
    match m.fault? with
    | some e => .error e
    | none => .ok m := by
  unfold compile
  rw [h]
  dsimp only [bind, Except.bind]
  cases m.fault? <;> rfl

theorem compile_of_assemble_eq_error {e : Error} (h : g.assemble = .error e) :
    g.compile = .error e := by
  unfold compile
  rw [h]
  rfl

/-- What is compiled is what has been assembled, and no pattern of it is broken by itself. -/
theorem compile_eq_ok_iff : g.compile = .ok m ↔ g.assemble = .ok m ∧ m.fault? = none := by
  cases hAssembled : g.assemble with
  | error e =>
    rw [compile_of_assemble_eq_error hAssembled]
    exact ⟨nofun, nofun⟩
  | ok assembled =>
    rw [compile_of_assemble_eq_ok hAssembled]
    cases hFault : assembled.fault? with
    | some e =>
      refine ⟨nofun, ?_⟩
      rintro ⟨⟨⟩, hNone⟩
      cases hFault.symm.trans hNone
    | none =>
      refine ⟨?_, fun h => h.1⟩
      rintro ⟨⟩
      exact ⟨rfl, hFault⟩

theorem assemble_of_compile_eq_ok (h : g.compile = .ok m) : g.assemble = .ok m :=
  (compile_eq_ok_iff.1 h).1

theorem fault?_of_compile_eq_ok (h : g.compile = .ok m) : m.fault? = none :=
  (compile_eq_ok_iff.1 h).2

/-- A grammar can be tested by what has been assembled. -/
theorem isSome_compile (h : g.assemble.toOption.any fun m => m.allRegexes.all (·.fault? = none)) :
    g.compile.toOption.isSome := by
  cases hAssembled : g.assemble with
  | error e =>
    rw [hAssembled] at h
    cases h
  | ok m =>
    rw [hAssembled] at h
    have hFault : m.fault? = none := List.findSome?_eq_none_iff.2 fun r hr => by
      rw [of_decide_eq_true (List.all_eq_true.1 h r hr)]
      rfl
    rw [compile_eq_ok_iff.2 ⟨hAssembled, hFault⟩]
    rfl

/-- A compiled grammar, for looking at it: its patterns have been tested and are spelled out. -/
theorem get_compile (h : g.compile.toOption.isSome) (h' : g.assemble.toOption.isSome) :
    g.compile.toOption.get h = (g.assemble.toOption.get h').spelled := by
  have hSame : g.compile.toOption = g.assemble.toOption := by
    cases hCompiled : g.compile with
    | error e =>
      rw [hCompiled] at h
      cases h
    | ok m => rw [assemble_of_compile_eq_ok hCompiled]
  rw [Machine.spelled_eq]
  exact Option.some.inj (by rw [Option.some_get, Option.some_get, hSame])

end Grammar

end Highlighter
