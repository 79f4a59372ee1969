import Highlighter.Proofs.Grammar.Effective
import Highlighter.Proofs.Grammar.Faithful

/-! A grammar whose inline modes have been spread compiles wherever the grammar itself does. The two
are put together in step: the same patterns and keywords are entered in the same order. Only the
places of variants are set aside at different times, for all variants of a mode at once or for one
after the other, and `Lags` says by how many places one construction is behind the other. -/

namespace Highlighter

namespace Builder

/-- The second construction has entered what the first one has, but `k` modes fewer. -/
def Lags (k : Nat) (b c : Builder) : Prop :=
  ∃ modes, c = { b with modes } ∧ modes.size + k = b.modes.size ∧ b.modes.size ≤ tableLimit

/-- Where the first step succeeds, so does the second one, with a related result. It is `k` modes
behind before and `k'` after. -/
def Tracks {α β : Type} (k k' : Nat) (rel : α → β → Prop) (x : BuilderM α)
    (y : BuilderM β) : Prop :=
  ∀ ⦃b c a b1⦄, Lags k b c → Runs x b a b1 →
    ∃ a' c1, Runs y c a' c1 ∧ rel a a' ∧ Lags k' b1 c1

/-- Nothing is said of two results. -/
def Unrelated {α β : Type} (_ : α) (_ : β) : Prop := True

section Rules

variable {α β α' β' : Type} {k k1 k2 : Nat} {rel : α → β → Prop}
  {rel' : α' → β' → Prop}

theorem Tracks.pure {a : α} {a' : β} (h : rel a a') :
    Tracks k k rel (Pure.pure a) (Pure.pure a') := by
  intro b c r b1 hLags hRuns
  obtain ⟨rfl, rfl⟩ := runs_pure.1 hRuns
  exact ⟨a', c, runs_pure.2 ⟨rfl, rfl⟩, h, hLags⟩

theorem Tracks.bind {x : BuilderM α} {y : BuilderM β} {f : α → BuilderM α'}
    {f' : β → BuilderM β'} (h : Tracks k k1 rel x y)
    (hRest : ∀ a a', rel a a' → Tracks k1 k2 rel' (f a) (f' a')) :
    Tracks k k2 rel' (x >>= f) (y >>= f') := by
  intro b c r b2 hLags hRuns
  obtain ⟨a, b1, hx, hf⟩ := runs_bind.1 hRuns
  obtain ⟨a', c1, hy, hRel, hLags1⟩ := h hLags hx
  obtain ⟨r', c2, hf', hRel', hLags2⟩ := hRest a a' hRel hLags1 hf
  exact ⟨r', c2, runs_bind.2 ⟨a', c1, hy, hf'⟩, hRel', hLags2⟩

theorem Tracks.map_some {x : BuilderM α} (h : Tracks k k1 Eq x x) :
    Tracks k k1 Eq (some <$> x) (some <$> x) := by
  rw [map_eq_pure_bind]
  exact h.bind fun a a' hEq => .pure (congrArg some hEq)

theorem tracks_get : Tracks k k (Lags k) get get := by
  intro b c r b1 hLags hRuns
  obtain ⟨rfl, rfl⟩ := runs_get.1 hRuns
  exact ⟨c, c, runs_get.2 ⟨rfl, rfl⟩, hLags, hLags⟩

theorem tracks_set {b c : Builder} (h : Lags k1 b c) : Tracks k k1 Unrelated (set b) (set c) := by
  intro _ _ _ b1 _ hRuns
  rw [← runs_set.1 hRuns]
  exact ⟨⟨⟩, c, runs_set.2 rfl, trivial, h⟩

end Rules

section Entries

variable {k : Nat}

theorem tracks_checkPlace (place : Nat) (table : Table) :
    Tracks k k Eq (checkPlace place table) (checkPlace place table) := by
  intro b c r b1 hLags hRuns
  unfold checkPlace at hRuns ⊢
  split at hRuns
  · next hLt =>
    obtain ⟨rfl, rfl⟩ := runs_pure.1 hRuns
    rw [if_pos hLt]
    exact ⟨place, c, runs_pure.2 ⟨rfl, rfl⟩, rfl, hLags⟩
  · obtain ⟨_, _, _, hThrow⟩ := runs_bind.1 hRuns
    exact absurd hThrow not_runs_throw

theorem tracks_enterAt {table : Table} {found : Option Nat} {size : Nat}
    {entered entered' : Builder} (h : Lags k entered entered') :
    Tracks k k Eq (enterAt table found size entered) (enterAt table found size entered') := by
  cases found with
  | some place => exact tracks_checkPlace place _
  | none =>
    refine (tracks_checkPlace _ _).bind fun place _ hEq => ?_
    exact (tracks_set h).bind fun _ _ _ => .pure hEq

theorem tracks_enterPattern (pattern : String) :
    Tracks k k Eq (enterPattern pattern) (enterPattern pattern) := by
  rw [enterPattern_eq]
  refine tracks_get.bind fun b c hLags => ?_
  obtain ⟨modes, rfl, hSize⟩ := hLags
  exact tracks_enterAt ⟨modes, rfl, hSize⟩

theorem tracks_enterKeywords (keywords : Keywords) :
    Tracks k k Eq (enterKeywords keywords) (enterKeywords keywords) := by
  rw [enterKeywords_eq]
  refine tracks_get.bind fun b c hLags => ?_
  obtain ⟨modes, rfl, hSize⟩ := hLags
  exact tracks_enterAt ⟨modes, rfl, hSize⟩

theorem tracks_enterOptional {α : Type} {enter : α → BuilderM Nat}
    (h : ∀ a, Tracks k k Eq (enter a) (enter a)) (o : Option α) :
    Tracks k k Eq (enterOptional enter o) (enterOptional enter o) := by
  cases o with
  | none => exact .pure rfl
  | some a => exact (h a).bind fun place place' hEq => .pure (congrArg some hEq)

theorem tracks_enterOpening (isRoot : Bool) (s : ModeSettings) :
    Tracks k k Eq (enterOpening isRoot s) (enterOpening isRoot s) := by
  cases isRoot with
  | true => exact .pure rfl
  | false => exact (tracks_enterPattern _).map_some

theorem tracks_enterClosing (isRoot : Bool) (s : ModeSettings) :
    Tracks k k Eq (enterClosing isRoot s) (enterClosing isRoot s) := by
  unfold enterClosing
  split
  · exact (tracks_enterPattern _).map_some
  · split
    · exact .pure rfl
    · exact (tracks_enterPattern _).map_some

theorem tracks_modify (id id' : Nat) (mode mode' : Mode) : Tracks k k Unrelated
    (modify fun b => { b with modes := b.modes.setIfInBounds id mode })
    (modify fun b => { b with modes := b.modes.setIfInBounds id' mode' }) := by
  intro b c r b1 hLags hRuns
  obtain ⟨modes, rfl, hSize⟩ := hLags
  rw [← runs_modify.1 hRuns]
  exact ⟨⟨⟩, _, runs_modify.2 rfl, trivial, modes.setIfInBounds id' mode',
    rfl, by simpa using hSize⟩

theorem tracks_fill {k' id id' : Nat} (isRoot : Bool) (s : ModeSettings)
    {contains contains' : Nat → BuilderM (List Nat)}
    (h : Tracks k k' Unrelated (contains id) (contains' id')) :
    Tracks k k' Unrelated (fill id isRoot s contains) (fill id' isRoot s contains') := by
  refine (tracks_enterOpening isRoot s).bind fun _ _ _ => ?_
  refine (tracks_enterClosing isRoot s).bind fun _ _ _ => ?_
  refine (tracks_enterOptional tracks_enterKeywords _).bind fun _ _ _ => ?_
  refine (tracks_enterOptional tracks_enterPattern _).bind fun _ _ _ => ?_
  refine h.bind fun _ _ _ => ?_
  exact tracks_modify id id' _ _

end Entries

/-! ### Places -/

section Places

variable {α β : Type} {k k' n : Nat} {rel : α → β → Prop}

theorem runs_reserve_iff {b b' : Builder} {ids : List Nat} : Runs (reserve n) b ids b' ↔
    b.modes.size + n ≤ tableLimit ∧ List.range' b.modes.size n = ids ∧
      { b with modes := ids.foldl (fun modes id => modes.push { id }) b.modes } = b' := by
  constructor
  · intro h
    obtain ⟨_, _, hGet, h⟩ := runs_bind.1 h
    obtain ⟨rfl, rfl⟩ := runs_get.1 hGet
    dsimp only at h
    split at h
    · next hLe =>
      obtain ⟨_, _, hSet, h⟩ := runs_bind.1 h
      obtain ⟨rfl, rfl⟩ := runs_pure.1 h
      exact ⟨hLe, rfl, runs_set.1 hSet⟩
    · exact absurd h not_runs_throw
  · rintro ⟨hLe, rfl, rfl⟩
    refine runs_bind.2 ⟨b, b, runs_get.2 ⟨rfl, rfl⟩, ?_⟩
    dsimp only
    rw [if_pos hLe]
    exact runs_bind.2 ⟨⟨⟩, _, runs_set.2 rfl, runs_pure.2 ⟨rfl, rfl⟩⟩

theorem size_foldl_push (ids : List Nat) (modes : Array Mode) :
    (ids.foldl (fun modes id => modes.push { id }) modes).size = modes.size + ids.length := by
  induction ids generalizing modes with
  | nil => rfl
  | cons id ids ih =>
    rw [List.foldl_cons, ih, Array.size_push, List.length_cons]
    omega

theorem tracks_reserve_left {f : List Nat → BuilderM α} {y : BuilderM β}
    (h : ∀ ids, ids.length = n → Tracks (k + n) k' rel (f ids) y) :
    Tracks k k' rel (reserve n >>= f) y := by
  intro b c r b2 hLags hRuns
  obtain ⟨ids, b1, hReserve, hRuns⟩ := runs_bind.1 hRuns
  obtain ⟨hLe, rfl, rfl⟩ := runs_reserve_iff.1 hReserve
  obtain ⟨modes, rfl, hSize, hLimit⟩ := hLags
  have hLength : (List.range' b.modes.size n).length = n := List.length_range'
  have hPushed := size_foldl_push (List.range' b.modes.size n) b.modes
  rw [hLength] at hPushed
  refine h _ hLength ?_ hRuns
  exact ⟨modes, rfl, by rw [hPushed]; omega, by rw [hPushed]; exact hLe⟩

theorem tracks_reserve_right {x : BuilderM α} {f : List Nat → BuilderM β}
    (h : ∀ id, Tracks k k' rel x (f [id])) : Tracks (k + 1) k' rel x (reserve 1 >>= f) := by
  intro b c r b1 hLags hRuns
  obtain ⟨modes, rfl, hSize, hLimit⟩ := hLags
  have hLags' : Lags k b { b with modes := modes.push { id := modes.size } } :=
    ⟨_, rfl, by rw [Array.size_push]; omega, hLimit⟩
  obtain ⟨r', c1, hRuns', hRel, hLags1⟩ := h modes.size hLags' hRuns
  have hReserve : Runs (reserve 1) { b with modes } [modes.size]
      { b with modes := modes.push { id := modes.size } } :=
    runs_reserve_iff.2 ⟨by show modes.size + 1 ≤ tableLimit; omega, rfl, rfl⟩
  exact ⟨r', c1, runs_bind.2 ⟨_, _, hReserve, hRuns'⟩, hRel, hLags1⟩

theorem tracks_reserve (n : Nat) :
    Tracks 0 0 (fun ids ids' => ids = ids' ∧ ids.length = n) (reserve n) (reserve n) := by
  intro b c ids b1 hLags hRuns
  obtain ⟨modes, rfl, hSize, hLimit⟩ := hLags
  obtain ⟨hLe, rfl, rfl⟩ := runs_reserve_iff.1 hRuns
  have hLength : (List.range' b.modes.size n).length = n := List.length_range'
  rw [Nat.add_zero] at hSize
  have hReserve : Runs (reserve n) { b with modes } (List.range' b.modes.size n)
      { b with modes :=
          (List.range' b.modes.size n).foldl (fun modes id => modes.push { id }) modes } :=
    runs_reserve_iff.2 ⟨by show modes.size + n ≤ tableLimit; omega, by rw [hSize], rfl⟩
  refine ⟨_, _, hReserve, ⟨rfl, hLength⟩, _, rfl, ?_, ?_⟩
  · rw [size_foldl_push, size_foldl_push, hSize]
    rfl
  · rw [size_foldl_push, hLength]
    exact hLe

end Places

/-! ### Modes -/

/-- A list of modes is entered in step with the list in which they are spread. -/
def TracksContents (contains : Option (List ModeRef)) : Prop :=
  ∀ (k : Nat) (named : List (String × List Nat)) (id id' : Nat), Tracks k k Unrelated
    (enterContents named id contains) (enterContents named id' (ModeRef.spreadContents contains))

/-- The entries of a list are entered in step with those that they are spread to. -/
def TracksRefs (refs : List ModeRef) : Prop :=
  ∀ (k : Nat) (named : List (String × List Nat)) (self self' : Nat) (done done' : List Nat),
    Tracks k k Unrelated (enterRefs named self done refs)
      (enterRefs named self' done' (ModeRef.spreadAll refs))

def fillEach (named : List (String × List Nat)) : List Nat → List ModeRule → BuilderM Unit
  | id :: ids, rule :: rules => do
    fill id false rule.settings (enterContents named · rule.contains)
    fillEach named ids rules
  | _, _ => return ()

section Modes

variable {named : List (String × List Nat)}

theorem fillVariants_eq (base : ModeRule) (ids : List Nat) (variants : List ModeRule) :
    fillVariants named base.settings (enterContents named · base.contains) ids variants =
      fillEach named ids (variants.map base.mergedWith) := by
  induction variants generalizing ids with
  | nil => cases ids <;> rfl
  | cons variant variants ih =>
    obtain ⟨own, within, inner⟩ := variant
    cases ids with
    | nil => rfl
    | cons id ids =>
      rw [fillVariants, ih]
      cases within with
      | none => rfl
      | some refs => rfl

theorem fillAll_eq {ids : List Nat} {rule : ModeRule} (h : ids.length = rule.expandedLength) :
    fillAll named ids rule = fillEach named ids rule.expanded := by
  obtain ⟨settings, contains, variants⟩ := rule
  cases variants with
  | nil =>
    obtain ⟨id, rfl⟩ := List.length_eq_one_iff.1 h
    exact (bind_pure _).symm
  | cons variant variants =>
    rw [fillAll]
    · exact fillVariants_eq (.mk settings contains (variant :: variants)) ids _
    · intro id rest hNone
      cases hNone
    · intro hNone
      cases hNone

theorem fillAll_plain (id : Nat) (rule : ModeRule) : fillAll named [id] rule.plain =
    fill id false rule.settings
      (enterContents named · (ModeRef.spreadContents rule.contains)) := by
  rw [ModeRule.plain, fillAll]

theorem enterRefs_append (self : Nat) (done : List Nat) (refs refs' : List ModeRef) :
    enterRefs named self done (refs ++ refs') =
      enterRefs named self done refs >>= fun ids => enterRefs named self ids.reverse refs' := by
  induction refs generalizing done with
  | nil => simp [enterRefs]
  | cons ref refs ih => simp [enterRefs, ih]

variable {k : Nat}

/-- The modes of a list are filled in step, wherever their places are. -/
theorem tracks_fillEach {ids ids' : List Nat} {rules : List ModeRule}
    (hIds : ids.length = rules.length) (hIds' : ids'.length = rules.length)
    (h : ∀ rule ∈ rules, TracksContents rule.contains) :
    Tracks k k Unrelated (fillEach named ids rules) (fillEach named ids' (rules.map .plain)) := by
  induction rules generalizing ids ids' with
  | nil =>
    obtain rfl := List.length_eq_zero_iff.1 hIds
    obtain rfl := List.length_eq_zero_iff.1 hIds'
    exact .pure trivial
  | cons rule rules ih =>
    obtain ⟨id, ids, rfl⟩ := List.exists_cons_of_length_eq_add_one hIds
    obtain ⟨id', ids', rfl⟩ := List.exists_cons_of_length_eq_add_one hIds'
    obtain ⟨hRule, hRules⟩ := List.forall_mem_cons.1 h
    refine (tracks_fill false rule.settings (hRule k named id id')).bind fun _ _ _ => ?_
    exact ih (Nat.succ.inj hIds) (Nat.succ.inj hIds') hRules

theorem tracks_fillEach_enterRefs {ids : List Nat} {rules : List ModeRule} {self : Nat}
    {done : List Nat} (hIds : ids.length = rules.length)
    (h : ∀ rule ∈ rules, TracksContents rule.contains) :
    Tracks (k + rules.length) k Unrelated (fillEach named ids rules)
      (enterRefs named self done (rules.map fun rule => .inline rule.plain)) := by
  induction rules generalizing ids done with
  | nil =>
    obtain rfl := List.length_eq_zero_iff.1 hIds
    exact .pure trivial
  | cons rule rules ih =>
    obtain ⟨id, ids, rfl⟩ := List.exists_cons_of_length_eq_add_one hIds
    obtain ⟨hRule, hRules⟩ := List.forall_mem_cons.1 h
    rw [List.map_cons, enterRefs, enterRef, bind_assoc, List.length_cons, ← Nat.add_assoc]
    -- The second construction catches up by the place of this mode, before it fills it.
    refine tracks_reserve_right fun id' => ?_
    rw [bind_assoc, fillAll_plain]
    refine (tracks_fill false rule.settings (hRule _ named id id')).bind fun _ _ _ => ?_
    exact ih (Nat.succ.inj hIds) hRules

theorem tracks_enterRef_named (name : String) (self self' : Nat) : Tracks k k Unrelated
    (enterRef named self (.named name)) (enterRef named self' (.named name)) := by
  rw [enterRef, enterRef]
  split
  · exact .pure trivial
  · split
    · exact .pure trivial
    · intro b c r b1 _ hRuns
      obtain ⟨_, _, _, hThrow⟩ := runs_bind.1 hRuns
      exact absurd hThrow not_runs_throw

theorem tracksContents_of_entries {rule : ModeRule} (h : TracksRefs rule.entries) :
    TracksContents rule.contains := by
  intro k named id id'
  unfold ModeRule.entries at h
  cases hContains : rule.contains with
  | none => exact .pure trivial
  | some refs =>
    rw [hContains] at h
    exact h k named id id' [] []

theorem hereditary_tracks : ModeRef.Hereditary TracksRefs
    (fun ref =>
      ∀ (k : Nat) (named : List (String × List Nat)) (self self' : Nat) (done' : List Nat),
      Tracks k k Unrelated (enterRef named self ref) (enterRefs named self' done' ref.spread)) where
  nil k named self self' done done' := .pure trivial
  cons ref refs hRef hRefs k named self self' done done' := by
    rw [ModeRef.spreadAll, enterRefs_append, enterRefs]
    refine (hRef k named self self' done').bind fun ids ids' _ => ?_
    exact hRefs k named self self' _ _
  named name k named self self' done' := by
    rw [ModeRef.spread, enterRefs, ← bind_pure (enterRef named self _)]
    exact (tracks_enterRef_named name self self').bind fun _ _ _ => .pure trivial
  inline rule hRules k named self self' done' := by
    have hContents := fun r hr => tracksContents_of_entries (hRules r hr)
    rw [ModeRef.spread_inline, enterRef, ← bind_pure (enterRefs named self' done' _)]
    refine tracks_reserve_left fun ids hIds => ?_
    rw [fillAll_eq hIds, ← rule.length_expanded]
    rw [← rule.length_expanded] at hIds
    exact (tracks_fillEach_enterRefs hIds hContents).bind fun _ _ _ => .pure trivial

end Modes

/-! ### Grammars -/

section Grammars

variable {named : List (String × List Nat)}

/-- A named mode has as many places as it stands for modes. -/
def Sized (places : String × List Nat) (entry : String × ModeRule) : Prop :=
  places.2.length = entry.2.expandedLength

theorem reserveNamed_map (entries : List (String × ModeRule)) :
    reserveNamed (entries.map fun e => (e.1, e.2.spreadWithin)) = reserveNamed entries := by
  simp only [reserveNamed, List.mapM_map, Function.comp_def, ModeRule.expandedLength_spreadWithin]

theorem tracks_reserveNamed (entries : List (String × ModeRule)) : Tracks 0 0
    (fun named named' => named = named' ∧ List.Forall₂ Sized named entries)
    (reserveNamed entries) (reserveNamed entries) := by
  induction entries with
  | nil => exact .pure ⟨rfl, .nil⟩
  | cons entry entries ih =>
    rw [reserveNamed, List.mapM_cons, bind_assoc]
    refine (tracks_reserve entry.2.expandedLength).bind ?_
    rintro ids _ ⟨rfl, hLength⟩
    rw [pure_bind]
    refine ih.bind ?_
    rintro named _ ⟨rfl, hSized⟩
    exact .pure ⟨rfl, .cons hLength hSized⟩

theorem tracks_fillNamed {places : List (String × List Nat)} {entries : List (String × ModeRule)}
    (h : List.Forall₂ Sized places entries) :
    Tracks 0 0 Unrelated (fillNamed named places entries)
      (fillNamed named places (entries.map fun e => (e.1, e.2.spreadWithin))) := by
  induction h with
  | nil => exact .pure trivial
  | @cons p e places entries hSized _ ih =>
    have hSpread : p.2.length = e.2.spreadWithin.expandedLength := by
      rw [ModeRule.expandedLength_spreadWithin]
      exact hSized
    have hIds : p.2.length = e.2.expanded.length := by
      rw [ModeRule.length_expanded]
      exact hSized
    have hContents := fun r hr => tracksContents_of_entries (hereditary_tracks.expanded e.2 r hr)
    rw [List.map_cons, fillNamed, fillNamed, fillAll_eq hSized, fillAll_eq hSpread,
      ModeRule.expanded_spreadWithin]
    refine (tracks_fillEach hIds hIds hContents).bind fun _ _ _ => ?_
    exact ih

theorem tracks_enterGrammar (g : Grammar) :
    Tracks 0 0 Unrelated (enterGrammar g) (enterGrammar g.spread) := by
  unfold enterGrammar
  rw [Grammar.entries_spread, reserveNamed_map]
  -- The root and the named modes have the same places in both, so that names resolve to the same.
  refine (tracks_reserve 1).bind fun _ _ _ => ?_
  refine (tracks_reserveNamed g.modes.entries).bind ?_
  rintro named _ ⟨rfl, hSized⟩
  refine (tracks_fill true g.root.settings ?_).bind fun _ _ _ => tracks_fillNamed hSized
  exact hereditary_tracks.list g.contains 0 named Machine.root Machine.root [] []

end Grammars

end Builder

namespace Grammar

/-- The tables of the grammar in which inline modes are spread have the same patterns and
keywords. -/
theorem exists_assemble_spread {g : Grammar} {m : Machine} (h : g.assemble = .ok m) :
    ∃ m', g.spread.assemble = .ok m' ∧ m'.regexes = m.regexes ∧
      m'.keywordSets = m.keywordSets := by
  obtain ⟨b, hRuns, rfl⟩ := assemble_eq_ok_iff.1 h
  have hLags : Builder.Lags 0 ⟨g.name, g.caseInsensitive, #[], #[], #[]⟩
      ⟨g.spread.name, g.spread.caseInsensitive, #[], #[], #[]⟩ :=
    ⟨#[], rfl, rfl, Nat.zero_le _⟩
  obtain ⟨⟨⟩, _, hRuns', -, modes, rfl, -⟩ := Builder.tracks_enterGrammar g hLags hRuns
  exact ⟨_, assemble_eq_ok_iff.2 ⟨_, hRuns', rfl⟩, rfl, rfl⟩

/-- Where a grammar compiles, so does the one in which inline modes are spread. -/
theorem exists_compile_spread {g : Grammar} {m : Machine} (h : g.compile = .ok m) :
    ∃ m', g.spread.compile = .ok m' := by
  obtain ⟨m', hAssembled, hRegexes, hKeywords⟩ :=
    exists_assemble_spread (assemble_of_compile_eq_ok h)
  have hFault : m'.fault? = none := by
    rw [← fault?_of_compile_eq_ok h]
    unfold Machine.fault? Machine.allRegexes
    rw [hRegexes, hKeywords]
  exact ⟨m', compile_eq_ok_iff.2 ⟨hAssembled, hFault⟩⟩

end Grammar

end Highlighter
