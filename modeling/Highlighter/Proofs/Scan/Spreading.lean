import Highlighter.Proofs.Grammar.Tracking
import Highlighter.Proofs.Scan.Alike

/-! Variants of inline modes are only a shorthand. Each mode of a grammar has its counterpart in the
grammar in which inline modes are spread, though at another address: the machines of the two, which
are images of them, are alike. -/

namespace Highlighter

namespace Grammar

/-- The mode at an address, and where it has gone when inline modes are spread. -/
structure Counterpart (g : Grammar) (a a' : Address) : Prop where
  root : a = .root ↔ a' = .root
  modes : ∃ rule, g.modeAt? a = some rule ∧ g.spread.modeAt? a' = some rule.plain

variable {g : Grammar} {a a' : Address} {rule : ModeRule}

theorem addressesFrom_append (g : Grammar) (a : Address) (first : Nat) (refs refs' : List ModeRef) :
    g.addressesFrom a first (refs ++ refs') =
      g.addressesFrom a first refs ++ g.addressesFrom a (first + refs.length) refs' := by
  simp only [addressesFrom, List.zipIdx_append, List.flatMap_append]

theorem addressesFrom_singleton (g : Grammar) (a : Address) (first : Nat) (ref : ModeRef) :
    g.addressesFrom a first [ref] = g.addressesOf a first ref := by
  simp [addressesFrom]

theorem addressesFrom_plain (g : Grammar) (a : Address) (first : Nat) (rules : List ModeRule) :
    g.addressesFrom a first (rules.map fun rule => .inline rule.plain) =
      (List.range rules.length).map fun v => .inner a (first + v) 0 := by
  induction rules generalizing first with
  | nil => rfl
  | cons rule rules ih =>
    have hRest := ih (first + 1)
    rw [List.map_cons, ← List.singleton_append, addressesFrom_append, addressesFrom_singleton]
    rw [List.length_singleton, hRest, List.length_cons, List.range_succ_eq_map, List.map_cons,
      List.map_map]
    simp [addressesOf, ModeRule.plain, ModeRule.expandedLength, ModeRule.variants,
      Function.comp_def, Nat.add_assoc, Nat.add_comm 1]

theorem counterpart_named {name : String} {mode : ModeRule} (hMode : g.modes.get? name = some mode)
    {v : Nat} (hv : v < mode.expandedLength) : g.Counterpart (.named name v) (.named name v) := by
  rw [← ModeRule.length_expanded] at hv
  refine ⟨⟨nofun, nofun⟩, mode.expanded[v], ?_, ?_⟩
  · rw [modeAt?, hMode, Option.bind_some, List.getElem?_eq_getElem hv]
  · rw [modeAt?, get?_spread, hMode, Option.map_some, Option.bind_some,
      ModeRule.expanded_spreadWithin,
      List.getElem?_map, List.getElem?_eq_getElem hv, Option.map_some]

/-- A variant of an inline mode becomes an entry of its own. -/
theorem counterpart_inner {mode : ModeRule} {entry entry' v : Nat} (hRule : g.modeAt? a = some rule)
    (hPlain : g.spread.modeAt? a' = some rule.plain)
    (hEntry : rule.entries[entry]? = some (.inline mode)) (hv : v < mode.expanded.length)
    (hEntry' : rule.plain.entries[entry']? = some (.inline (mode.expanded[v]).plain)) :
    g.Counterpart (.inner a entry v) (.inner a' entry' 0) := by
  refine ⟨⟨nofun, nofun⟩, mode.expanded[v], ?_, ?_⟩
  · rw [modeAt?, hRule, Option.bind_some, ModeRule.inner?, hEntry]
    exact List.getElem?_eq_getElem hv
  · rw [modeAt?, hPlain, Option.bind_some, ModeRule.inner?, hEntry']
    rfl

theorem entries_plain (rule : ModeRule) : rule.plain.entries = ModeRef.spreadAll rule.entries := by
  obtain ⟨settings, contains, variants⟩ := rule
  cases contains with
  | none => simp [ModeRule.plain, ModeRule.entries, ModeRule.contains, ModeRef.spreadContents,
      ModeRef.spreadAll]
  | some refs => simp [ModeRule.plain, ModeRule.entries, ModeRule.contains, ModeRef.spreadContents]

theorem forall₂_addressesOf (h : a = .root ↔ a' = .root) (hRule : g.modeAt? a = some rule)
    (hPlain : g.spread.modeAt? a' = some rule.plain) {done refs : List ModeRef} {ref : ModeRef}
    (hEntries : rule.entries = done ++ ref :: refs) :
    List.Forall₂ g.Counterpart (g.addressesOf a done.length ref)
      (g.spread.addressesFrom a' (ModeRef.spreadAll done).length ref.spread) := by
  cases ref with
  | named name =>
    rw [ModeRef.spread, addressesFrom_singleton, addressesOf, addressesOf]
    split
    · exact .cons ⟨h, rule, hRule, hPlain⟩ .nil
    · rw [get?_spread]
      cases hMode : g.modes.get? name with
      | none => exact .nil
      | some mode =>
        simp only [Option.map_some, ModeRule.expandedLength_spreadWithin, List.forall₂_same]
        intro x hx
        obtain ⟨v, hv, rfl⟩ := List.mem_map.1 hx
        exact counterpart_named hMode (List.mem_range.1 hv)
  | inline mode =>
    rw [ModeRef.spread_inline, addressesFrom_plain, addressesOf, ← mode.length_expanded]
    simp only [List.forall₂_map_left_iff, List.forall₂_map_right_iff, List.forall₂_same,
      List.mem_range]
    intro v hv
    refine counterpart_inner hRule hPlain ?_ hv ?_
    · rw [hEntries, List.getElem?_append_right (Nat.le_refl _), Nat.sub_self,
        List.getElem?_cons_zero]
    · rw [entries_plain, hEntries, ModeRef.spreadAll_append, ModeRef.spreadAll,
        ModeRef.spread_inline, List.getElem?_append_right (Nat.le_add_right _ _),
        Nat.add_sub_cancel_left, List.getElem?_append_left (by rw [List.length_map]; exact hv),
        List.getElem?_map, List.getElem?_eq_getElem hv, Option.map_some]

theorem forall₂_addressesFrom (h : a = .root ↔ a' = .root) (hRule : g.modeAt? a = some rule)
    (hPlain : g.spread.modeAt? a' = some rule.plain) {done refs : List ModeRef}
    (hEntries : rule.entries = done ++ refs) :
    List.Forall₂ g.Counterpart (g.addressesFrom a done.length refs)
      (g.spread.addressesFrom a' (ModeRef.spreadAll done).length (ModeRef.spreadAll refs)) := by
  induction refs generalizing done with
  | nil => exact .nil
  | cons ref refs ih =>
    have hFirst := forall₂_addressesOf h hRule hPlain hEntries
    have hEntries' : rule.entries = (done ++ [ref]) ++ refs := by
      rw [hEntries, List.append_assoc]
      rfl
    have hRest := ih hEntries'
    rw [ModeRef.spreadAll_append, List.length_append, List.length_append] at hRest
    rw [ModeRef.spreadAll, addressesFrom_append, ← List.singleton_append, addressesFrom_append,
      addressesFrom_singleton]
    refine List.rel_append hFirst ?_
    simpa [ModeRef.spreadAll] using hRest

end Grammar

def Machine.CounterpartAt (g : Grammar) (place place' : Address → Nat) (id id' : Nat) : Prop :=
  ∃ a a', g.Counterpart a a' ∧ place a = id ∧ place' a' = id'

theorem PlaceOf.map_eq {α : Type} {table table' : Array α} {place place' : Option Nat}
    {expected : Option α} (h : PlaceOf table place expected)
    (h' : PlaceOf table' place' expected) : place.map (table[·]?) = place'.map (table'[·]?) := by
  unfold PlaceOf at h h'
  rw [h, h']

theorem Machine.IsImage.alike_spread {g : Grammar} {m m' : Machine} {place place' : Address → Nat}
    (h : m.IsImage g place) (h' : m'.IsImage g.spread place') :
    m.Alike m' (CounterpartAt g place place') := by
  have hRoot : g.Counterpart .root .root := ⟨Iff.rfl, g.root, rfl, congrArg some g.root_spread⟩
  refine ⟨?_, ⟨.root, .root, hRoot, h.root, h'.root⟩, ?_⟩
  · rw [h.caseInsensitive, h'.caseInsensitive]
    rfl
  · rintro _ _ ⟨a, a', ⟨hBoth, rule, hRule, hPlain⟩, rfl, rfl⟩
    obtain ⟨hDepicts, hContains⟩ := h.depicts hRule
    obtain ⟨hDepicts', hContains'⟩ := h'.depicts hPlain
    have hSettings :
        (m'.mode (place' a')).Depicts m'.regexes m'.keywordSets g.caseInsensitive (a = .root)
          rule.settings := by
      rw [decide_eq_decide.2 hBoth]
      exact hDepicts'
    have hEntries := Grammar.forall₂_addressesFrom hBoth hRule hPlain (List.nil_append _).symm
    exact
      { category := hDepicts.category.trans hSettings.category.symm
        opening := hDepicts.opening.map_eq hSettings.opening
        closing := hDepicts.closing.map_eq hSettings.closing
        illegal := hDepicts.illegal.map_eq hSettings.illegal
        keywords := hDepicts.keywords.map_eq hSettings.keywords
        relevance := hDepicts.relevance.trans hSettings.relevance.symm
        returnOpening := hDepicts.returnOpening.trans hSettings.returnOpening.symm
        excludeOpening := hDepicts.excludeOpening.trans hSettings.excludeOpening.symm
        returnClosing := hDepicts.returnClosing.trans hSettings.returnClosing.symm
        excludeClosing := hDepicts.excludeClosing.trans hSettings.excludeClosing.symm
        closesParent := hDepicts.closesParent.trans hSettings.closesParent.symm
        closesWithParent := hDepicts.closesWithParent.trans hSettings.closesWithParent.symm
        contains := by
          rw [hContains, hContains', Grammar.entries_plain, List.forall₂_map_left_iff,
            List.forall₂_map_right_iff]
          exact hEntries.imp fun x x' hx => ⟨x, x', hx, rfl, rfl⟩ }

namespace Grammar

/-- Variants of inline modes are a shorthand for the modes that they stand for: writing these out
instead gives a grammar that compiles, and finds the same in any text. -/
theorem tokenize_spread {g : Grammar} {m : Machine} (h : g.compile = .ok m) :
    ∃ m', g.spread.compile = .ok m' ∧ ∀ (t : Tokenizer m) (t' : Tokenizer m') (text : String),
      (t'.tokenize text).1 = (t.tokenize text).1 := by
  obtain ⟨m', hCompile⟩ := exists_compile_spread h
  obtain ⟨b, os, hComplete, rfl⟩ := complete_of_assemble_eq_ok (assemble_of_compile_eq_ok h)
  obtain ⟨b', os', hComplete', rfl⟩ :=
    complete_of_assemble_eq_ok (assemble_of_compile_eq_ok hCompile)
  have hAlike := hComplete.isImage.alike_spread hComplete'.isImage
  exact ⟨_, hCompile, fun t t' text => (Tokenizer.tokenize_alike hAlike t t' text).symm⟩

/-- Lists in two kinds of brackets, which contain numbers of two forms and lists in turn. -/
def lists : Grammar where
  name := "lists"
  contains := [
    .inline (.mk { category := some .params }
      (some [.named "self", .named "comment",
        .inline (.mk { category := some .number } none
          [.ofSettings { opening := some "[0-9]+" }, .ofSettings { opening := some "-" }])])
      [.ofSettings { opening := some "<", closing := some ">" },
        .ofSettings { opening := some "/", closing := some "/" }]),
    .named "comment"]
  modes := .ofList [("comment", .ofSettings { category := some .comment, opening := some "#" })]

namespace lists

theorem isSome_compile : lists.compile.toOption.isSome := Grammar.isSome_compile (by decide +kernel)

def machine : Machine := lists.compile.toOption.get isSome_compile

theorem compile_eq : lists.compile = .ok machine := eq_ok_get isSome_compile

end lists

theorem tokenize_spread_lists : lists.contains.length = 2 ∧ lists.spread.contains.length = 3 ∧
    ∃ m', lists.spread.compile = .ok m' ∧ ∀ (t : Tokenizer lists.machine) (t' : Tokenizer m')
      (text : String), (t'.tokenize text).1 = (t.tokenize text).1 :=
  ⟨rfl, rfl, tokenize_spread lists.compile_eq⟩

end Grammar

end Highlighter
