import Highlighter.Proofs.Grammar.Image
import Highlighter.Proofs.Grammar.Spread
import Highlighter.Proofs.Pattern.Immediate

/-! The modes of a grammar that take effect, and what they ask of its tables. A mode that has
variants takes effect by these, so the list of a mode whose variants all have lists of their own is
never looked at, and neither are variants of variants. -/

namespace Highlighter

mutual

/-- The modes that a mode stands for, each followed by those within it. -/
def ModeRule.effective : ModeRule → List ModeRule
  | .mk settings contains [] =>
    .mk settings contains [] :: (ModeRef.effectiveContents contains).getD []
  | .mk settings contains variants =>
    ModeRule.effectiveVariants (.mk settings contains [])
      ((ModeRef.effectiveContents contains).getD []) variants

/-- The modes that the variants of a mode stand for, each followed by those within it. `inner`
are those within the mode. -/
def ModeRule.effectiveVariants (base : ModeRule) (inner : List ModeRule) :
    List ModeRule → List ModeRule
  | [] => []
  | .mk own contains variants :: rest =>
    base.mergedWith (.mk own contains variants) ::
      ((ModeRef.effectiveContents contains).getD inner ++
        ModeRule.effectiveVariants base inner rest)

def ModeRef.effectiveContents : Option (List ModeRef) → Option (List ModeRule)
  | none => none
  | some refs => some (ModeRef.effectiveAll refs)

def ModeRef.effectiveAll : List ModeRef → List ModeRule
  | [] => []
  | ref :: refs => ModeRef.effective ref ++ ModeRef.effectiveAll refs

def ModeRef.effective : ModeRef → List ModeRule
  | .named _ => []
  | .inline rule => ModeRule.effective rule

end

namespace ModeRule

/-- Where a variant has a list, the one of its mode is not looked at. -/
theorem getD_effectiveContents (own base : Option (List ModeRef)) :
    (ModeRef.effectiveContents own).getD ((ModeRef.effectiveContents base).getD []) =
      ModeRef.effectiveAll ((own.or base).getD []) := by
  cases own with
  | none =>
    cases base with
    | none => simp [ModeRef.effectiveContents, ModeRef.effectiveAll]
    | some refs => simp [ModeRef.effectiveContents]
  | some refs => simp [ModeRef.effectiveContents]

theorem effectiveVariants_eq (base : ModeRule) (variants : List ModeRule) :
    effectiveVariants base ((ModeRef.effectiveContents base.contains).getD []) variants =
      (variants.map base.mergedWith).flatMap fun r => r :: ModeRef.effectiveAll r.entries := by
  induction variants with
  | nil => simp [effectiveVariants]
  | cons variant variants ih =>
    obtain ⟨own, contains, inner⟩ := variant
    rw [effectiveVariants, ih, getD_effectiveContents]
    rfl

/-- A mode takes effect by the modes that it stands for and by those within them. -/
theorem effective_eq (rule : ModeRule) :
    rule.effective = rule.expanded.flatMap fun r => r :: ModeRef.effectiveAll r.entries := by
  obtain ⟨settings, contains, variants⟩ := rule
  cases variants with
  | nil =>
    have hContents : (ModeRef.effectiveContents contains).getD [] = _ :=
      getD_effectiveContents none contains
    rw [effective, hContents]
    exact (List.append_nil _).symm
  | cons variant variants =>
    rw [effective.eq_2 _ _ _ (List.cons_ne_nil _ _), expanded_of_cons rfl]
    exact effectiveVariants_eq (.mk settings contains []) (variant :: variants)

end ModeRule

theorem ModeRule.mem_effective_of_mem_expanded (rule : ModeRule) {r : ModeRule}
    (h : r ∈ rule.expanded) : r ∈ rule.effective := by
  rw [effective_eq]
  exact List.mem_flatMap.2 ⟨r, h, List.mem_cons_self⟩

theorem ModeRef.effectiveAll_eq (refs : List ModeRef) :
    effectiveAll refs = refs.flatMap effective := by
  induction refs with
  | nil => simp [effectiveAll]
  | cons ref refs ih => simp [effectiveAll, ih]

/-- What holds for the entries of a list holds for the list, where a mode that is written out is
taken by the modes that it stands for. -/
structure ModeRef.Hereditary (all : List ModeRef → Prop) (each : ModeRef → Prop) : Prop where
  nil : all []
  cons : ∀ ref refs, each ref → all refs → all (ref :: refs)
  named : ∀ name, each (.named name)
  inline : ∀ rule : ModeRule, (∀ r ∈ rule.expanded, all r.entries) → each (.inline rule)

namespace ModeRef.Hereditary

variable {all : List ModeRef → Prop} {each : ModeRef → Prop}

mutual

theorem expanded (h : Hereditary all each) (rule : ModeRule) :
    ∀ r ∈ rule.expanded, all r.entries := by
  obtain ⟨settings, contains, variants⟩ := rule
  have hContains := h.contents contains
  cases variants with
  | nil =>
    intro r hr
    rw [List.mem_singleton.1 hr]
    exact hContains
  | cons variant variants =>
    have hVariants := h.variants (variant :: variants) hContains
    intro r hr
    rw [ModeRule.expanded_of_cons rfl] at hr
    obtain ⟨v, hv, rfl⟩ := List.mem_map.1 hr
    exact hVariants v hv
termination_by structural rule

theorem variants (h : Hereditary all each) (vs : List ModeRule) {contains : Option (List ModeRef)}
    (hContains : all (contains.getD [])) :
    ∀ v ∈ vs, all ((v.contains.or contains).getD []) := by
  cases vs with
  | nil => exact nofun
  | cons variant vs =>
    obtain ⟨settings, own, inner⟩ := variant
    have hOwn := h.contents own
    have hRest := h.variants vs hContains
    intro v hv
    rcases List.mem_cons.1 hv with rfl | hv
    · cases own with
      | none => exact hContains
      | some refs => exact hOwn
    · exact hRest v hv
termination_by structural vs

theorem contents (h : Hereditary all each) (contains : Option (List ModeRef)) :
    all (contains.getD []) := by
  cases contains with
  | none => exact h.nil
  | some refs => exact h.list refs
termination_by structural contains

theorem list (h : Hereditary all each) (refs : List ModeRef) : all refs := by
  cases refs with
  | nil => exact h.nil
  | cons ref refs => exact h.cons ref refs (h.entry ref) (h.list refs)
termination_by structural refs

theorem entry (h : Hereditary all each) (ref : ModeRef) : each ref := by
  cases ref with
  | named name => exact h.named name
  | inline rule => exact h.inline rule (h.expanded rule)
termination_by structural ref

end

end ModeRef.Hereditary

def ModeSettings.patterns (s : ModeSettings) : List String :=
  s.openingPattern :: (s.closingPattern.toList ++ s.illegal.toList)

namespace Grammar

@[simp] theorem illegal_root (g : Grammar) : g.root.settings.illegal = g.illegal := rfl

@[simp] theorem entries_root (g : Grammar) : g.root.entries = g.contains := rfl

/-- The modes that take effect, apart from the root. -/
def inner (g : Grammar) : List ModeRule :=
  ModeRef.effectiveAll g.contains ++ g.modes.entries.flatMap fun entry => entry.2.effective

/-- The modes that take effect. -/
def effective (g : Grammar) : List ModeRule := g.root :: g.inner

def patterns (g : Grammar) : List String :=
  g.illegal.toList ++ g.inner.flatMap fun rule => rule.settings.patterns

def keywordSets (g : Grammar) : List KeywordIndex :=
  (g.effective.filterMap fun rule => rule.settings.keywordTable).map (·.index g.caseInsensitive)

/-- How many entries a table has once each pattern and each keyword table has been entered. -/
def size (g : Grammar) : Table → Nat
  | .modes => g.effective.length
  | .regexes => g.patterns.eraseDups.length
  | .keywordSets => g.keywordSets.eraseDups.length

/-- The patterns that a text is searched by, those of modes first. -/
def regexes (g : Grammar) : List Regex :=
  g.patterns.eraseDups.map (.ofPattern · g.caseInsensitive) ++
    g.keywordSets.eraseDups.map (·.regex)

theorem mem_regexes {g : Grammar} {r : Regex} (h : r ∈ g.regexes) :
    r.ignoreCase = g.caseInsensitive ∧
      (r.pattern ∈ g.patterns ∨
        ∃ rule ∈ g.effective, ∃ words, rule.settings.keywordTable = some words ∧
          r.pattern = words.pattern.getD defaultKeywordPattern) := by
  rcases List.mem_append.1 h with h | h
  · obtain ⟨pattern, hPattern, rfl⟩ := List.mem_map.1 h
    exact ⟨rfl, .inl (List.mem_eraseDups.1 hPattern)⟩
  · obtain ⟨index, hIndex, rfl⟩ := List.mem_map.1 h
    obtain ⟨words, hWords, rfl⟩ := List.mem_map.1 (List.mem_eraseDups.1 hIndex)
    obtain ⟨rule, hRule, hTable⟩ := List.mem_filterMap.1 hWords
    exact ⟨rfl, .inr ⟨rule, hRule, words, hTable, rfl⟩⟩

/-- A mode that takes effect refers to a name. -/
def Refers (g : Grammar) (name : String) : Prop :=
  ∃ rule ∈ g.effective, .named name ∈ rule.entries

/-- All names that modes refer to are known. -/
def Resolved (g : Grammar) : Prop := ∀ name, g.Refers name → g.Knows (.named name)

def Fits (g : Grammar) : Prop := ∀ table, g.size table ≤ tableLimit

def Sound (g : Grammar) : Prop := ∀ r ∈ g.regexes, r.fault? = none

instance (g : Grammar) (ref : ModeRef) : Decidable (g.Knows ref) :=
  match ref with
  | .named name => inferInstanceAs (Decidable (name = "self" ∨ (g.modes.get? name).isSome))
  | .inline _ => .isTrue trivial

theorem resolved_iff {g : Grammar} :
    g.Resolved ↔ ∀ rule ∈ g.effective, ∀ ref ∈ rule.entries, g.Knows ref := by
  constructor
  · intro h rule hRule ref hRef
    cases ref with
    | named name => exact h name ⟨rule, hRule, hRef⟩
    | inline inner => exact trivial
  · rintro h name ⟨rule, hRule, hName⟩
    exact h rule hRule _ hName

theorem fits_iff {g : Grammar} : g.Fits ↔
    g.size .modes ≤ tableLimit ∧ g.size .regexes ≤ tableLimit ∧
      g.size .keywordSets ≤ tableLimit := by
  constructor
  · exact fun h => ⟨h _, h _, h _⟩
  · rintro ⟨hModes, hRegexes, hSets⟩ (_ | _ | _)
    · exact hModes
    · exact hRegexes
    · exact hSets

instance (g : Grammar) : Decidable g.Resolved := decidable_of_iff _ resolved_iff.symm

instance (g : Grammar) : Decidable g.Fits := decidable_of_iff _ fits_iff.symm

instance (g : Grammar) : Decidable g.Sound :=
  inferInstanceAs (Decidable (∀ r ∈ g.regexes, r.fault? = none))

/-! ### The addresses of modes that take effect -/

variable {g : Grammar}

theorem hereditary_closed : ModeRef.Hereditary
    (fun refs => ∀ r ∈ ModeRef.effectiveAll refs,
      ModeRef.effectiveAll r.entries ⊆ ModeRef.effectiveAll refs)
    (fun ref => ∀ r ∈ ref.effective, ModeRef.effectiveAll r.entries ⊆ ref.effective) where
  nil r hr := by simp [ModeRef.effectiveAll] at hr
  cons ref refs hRef hRefs r hr := by
    rw [ModeRef.effectiveAll] at hr ⊢
    rcases List.mem_append.1 hr with hr | hr
    · exact List.subset_append_of_subset_left _ (hRef r hr)
    · exact List.subset_append_of_subset_right _ (hRefs r hr)
  named name r hr := by simp [ModeRef.effective] at hr
  inline rule hRules r hr := by
    rw [ModeRef.effective, rule.effective_eq] at hr ⊢
    obtain ⟨outer, hOuter, hr⟩ := List.mem_flatMap.1 hr
    intro r' hr'
    refine List.mem_flatMap.2 ⟨outer, hOuter, ?_⟩
    rcases List.mem_cons.1 hr with rfl | hr
    · exact List.mem_cons_of_mem _ hr'
    · exact List.mem_cons_of_mem _ (hRules outer hOuter r hr hr')

theorem effectiveAll_subset {rule : ModeRule} (h : rule ∈ g.effective) :
    ModeRef.effectiveAll rule.entries ⊆ g.effective := by
  intro r hr
  refine List.mem_cons_of_mem _ ?_
  rcases List.mem_cons.1 h with rfl | h
  · exact List.mem_append_left _ hr
  rcases List.mem_append.1 h with h | h
  · exact List.mem_append_left _ (hereditary_closed.list g.contains rule h hr)
  · obtain ⟨named, hNamed, h⟩ := List.mem_flatMap.1 h
    refine List.mem_append_right _ (List.mem_flatMap.2 ⟨named, hNamed, ?_⟩)
    exact hereditary_closed.entry (.inline named.2) rule h hr

theorem hereditary_addressed : ModeRef.Hereditary
    (fun refs => ∀ (a : Address) (outer : ModeRule) (before : List ModeRef),
      g.modeAt? a = some outer → outer.entries = before ++ refs →
      ∀ r ∈ ModeRef.effectiveAll refs, ∃ a', g.modeAt? a' = some r)
    (fun ref => ∀ (a : Address) (outer : ModeRule) (entry : Nat),
      g.modeAt? a = some outer → outer.entries[entry]? = some ref →
      ∀ r ∈ ref.effective, ∃ a', g.modeAt? a' = some r) where
  nil a outer before hAt hEntries r hr := by simp [ModeRef.effectiveAll] at hr
  cons ref refs hRef hRefs a outer before hAt hEntries r hr := by
    rw [ModeRef.effectiveAll] at hr
    rcases List.mem_append.1 hr with hr | hr
    · exact hRef a outer before.length hAt (by simp [hEntries]) r hr
    · exact hRefs a outer (before ++ [ref]) hAt (by simp [hEntries]) r hr
  named name a outer entry hAt hEntry r hr := by simp [ModeRef.effective] at hr
  inline rule hRules a outer entry hAt hEntry r hr := by
    rw [ModeRef.effective, rule.effective_eq] at hr
    obtain ⟨variant, hVariant, hr⟩ := List.mem_flatMap.1 hr
    obtain ⟨v, hv⟩ := List.mem_iff_getElem?.1 hVariant
    have hInner : g.modeAt? (.inner a entry v) = some variant := by
      rw [modeAt?, hAt, Option.bind_some, ModeRule.inner?, hEntry]
      exact hv
    rcases List.mem_cons.1 hr with rfl | hr
    · exact ⟨_, hInner⟩
    · exact hRules variant hVariant _ variant [] hInner rfl r hr

/-- The modes that take effect are those that stand at some address. -/
theorem mem_effective_iff {rule : ModeRule} : rule ∈ g.effective ↔
    ∃ a, g.modeAt? a = some rule := by
  constructor
  · intro h
    rcases List.mem_cons.1 h with rfl | h
    · exact ⟨.root, rfl⟩
    rcases List.mem_append.1 h with h | h
    · exact hereditary_addressed.list g.contains .root g.root [] rfl rfl rule h
    · obtain ⟨⟨name, named⟩, hNamed, h⟩ := List.mem_flatMap.1 h
      rw [named.effective_eq] at h
      obtain ⟨variant, hVariant, h⟩ := List.mem_flatMap.1 h
      obtain ⟨v, hv⟩ := List.mem_iff_getElem?.1 hVariant
      have hAt : g.modeAt? (.named name v) = some variant := by
        rw [modeAt?, Dict.get?_eq_some_iff.2 hNamed]
        exact hv
      rcases List.mem_cons.1 h with rfl | h
      · exact ⟨_, hAt⟩
      · exact hereditary_addressed.list variant.entries _ variant [] hAt rfl rule h
  -- By induction on the address: where the mode around it takes effect, so does each mode within.
  · rintro ⟨a, h⟩
    induction a generalizing rule with
    | root =>
      cases h
      exact List.mem_cons_self
    | named name variant =>
      obtain ⟨named, hNamed, hVariant⟩ := Option.bind_eq_some_iff.1 h
      have hMem := named.mem_effective_of_mem_expanded (List.mem_of_getElem? hVariant)
      refine List.mem_cons_of_mem _ (List.mem_append_right _ ?_)
      exact List.mem_flatMap.2 ⟨(name, named), Dict.get?_eq_some_iff.1 hNamed, hMem⟩
    | inner around entry variant ih =>
      obtain ⟨outer, hOuter, hInner⟩ := Option.bind_eq_some_iff.1 h
      unfold ModeRule.inner? at hInner
      split at hInner
      · next written hEntry =>
        have hMem := written.mem_effective_of_mem_expanded (List.mem_of_getElem? hInner)
        apply effectiveAll_subset (ih hOuter)
        rw [ModeRef.effectiveAll_eq]
        refine List.mem_flatMap.2 ⟨.inline written, List.mem_of_getElem? hEntry, ?_⟩
        rwa [ModeRef.effective]
      · cases hInner

end Grammar

end Highlighter
