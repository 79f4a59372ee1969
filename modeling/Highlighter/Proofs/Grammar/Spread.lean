import Highlighter.Grammar.Rule

/-! Grammars without inline variants. An inline mode that has variants may be spread: its place in
the list is taken by the modes that it stands for, each of them a mode without variants. -/

namespace Highlighter

mutual

/-- The modes that a mode stands for, with the modes within each of them spread. -/
def ModeRule.spread : ModeRule → List ModeRule
  | .mk settings contains [] => [.mk settings (ModeRef.spreadContents contains) []]
  | .mk settings contains variants =>
    ModeRule.spreadVariants settings (ModeRef.spreadContents contains) variants

def ModeRule.spreadVariants (settings : ModeSettings) (contains : Option (List ModeRef)) :
    List ModeRule → List ModeRule
  | [] => []
  | .mk own within _ :: variants =>
    .mk (settings.override own) ((ModeRef.spreadContents within).or contains) [] ::
      ModeRule.spreadVariants settings contains variants

def ModeRef.spreadContents : Option (List ModeRef) → Option (List ModeRef)
  | none => none
  | some refs => some (ModeRef.spreadAll refs)

def ModeRef.spreadAll : List ModeRef → List ModeRef
  | [] => []
  | ref :: refs => ModeRef.spread ref ++ ModeRef.spreadAll refs

def ModeRef.spread : ModeRef → List ModeRef
  | .named name => [.named name]
  | .inline rule => (ModeRule.spread rule).map .inline

end

namespace ModeRule

/-- The mode without its variants, with the modes within it spread. -/
def plain (rule : ModeRule) : ModeRule := mk rule.settings (ModeRef.spreadContents rule.contains) []

/-- The mode with its variants, with the modes within it and within them spread. -/
def spreadWithin (rule : ModeRule) : ModeRule :=
  mk rule.settings (ModeRef.spreadContents rule.contains)
    (rule.variants.map fun v => mk v.settings (ModeRef.spreadContents v.contains) v.variants)

end ModeRule

/-- The grammar in which each inline mode has been replaced by the modes that it stands for, at
every depth of the lists of the root and of the named modes. -/
def Grammar.spread (g : Grammar) : Grammar :=
  { g with contains := ModeRef.spreadAll g.contains, modes := g.modes.map ModeRule.spreadWithin }

namespace ModeRef

theorem spreadContents_or (own base : Option (List ModeRef)) :
    spreadContents (own.or base) = (spreadContents own).or (spreadContents base) := by
  cases own with
  | none => simp [spreadContents]
  | some refs => simp [spreadContents]

theorem spreadAll_append (refs refs' : List ModeRef) :
    spreadAll (refs ++ refs') = spreadAll refs ++ spreadAll refs' := by
  induction refs with
  | nil => simp [spreadAll]
  | cons ref refs ih => simp [spreadAll, ih]

end ModeRef

namespace ModeRule

theorem plain_mergedWith (base variant : ModeRule) : (base.mergedWith variant).plain =
    mk (base.settings.override variant.settings)
      ((ModeRef.spreadContents variant.contains).or (ModeRef.spreadContents base.contains)) [] := by
  rw [← ModeRef.spreadContents_or]
  rfl

theorem spreadVariants_eq (base : ModeRule) (variants : List ModeRule) :
    spreadVariants base.settings (ModeRef.spreadContents base.contains) variants =
      variants.map fun v => (base.mergedWith v).plain := by
  induction variants with
  | nil => simp [spreadVariants]
  | cons variant variants ih =>
    obtain ⟨own, within, inner⟩ := variant
    rw [spreadVariants, ih, List.map_cons, plain_mergedWith]
    rfl

theorem expanded_of_cons {rule variant : ModeRule} {variants : List ModeRule}
    (h : rule.variants = variant :: variants) :
    rule.expanded = rule.variants.map rule.mergedWith := by
  rw [expanded, h]

theorem spread_eq (rule : ModeRule) : rule.spread = rule.expanded.map plain := by
  obtain ⟨settings, contains, variants⟩ := rule
  cases variants with
  | nil =>
    rw [spread]
    rfl
  | cons variant variants =>
    rw [spread.eq_2 _ _ _ (List.cons_ne_nil _ _)]
    rw [expanded_of_cons rfl, List.map_map]
    exact spreadVariants_eq (mk settings contains (variant :: variants)) _

theorem variants_spreadWithin (rule : ModeRule) :
    rule.spreadWithin.variants = rule.variants.map fun v =>
    mk v.settings (ModeRef.spreadContents v.contains) v.variants := rfl

/-- A named mode stands for the same modes as before. -/
theorem expanded_spreadWithin (rule : ModeRule) :
    rule.spreadWithin.expanded = rule.expanded.map plain := by
  obtain ⟨settings, contains, variants⟩ := rule
  cases variants with
  | nil => rfl
  | cons variant variants =>
    rw [expanded_of_cons rfl, variants_spreadWithin, expanded_of_cons rfl, List.map_map,
      List.map_map]
    exact List.map_congr_left fun v _ =>
      (plain_mergedWith (mk settings contains (variant :: variants)) v).symm

theorem expandedLength_spreadWithin (rule : ModeRule) :
    rule.spreadWithin.expandedLength = rule.expandedLength := by
  simp [expandedLength, spreadWithin, variants]

end ModeRule

theorem ModeRef.spread_inline (rule : ModeRule) :
    spread (.inline rule) = rule.expanded.map fun variant => .inline variant.plain := by
  rw [spread, ModeRule.spread_eq, List.map_map]
  rfl

example : ModeRef.spread (.inline (.mk { category := some .number } (some [.named "self"])
      [.ofSettings { opening := some "[0-9]+" }, .containing { opening := some "-" } []])) =
    [.inline (.containing { category := some .number, opening := some "[0-9]+" } [.named "self"]),
      .inline (.containing { category := some .number, opening := some "-" } [])] := by
  rfl

theorem Dict.get?_map {α β : Type} (f : α → β) (d : Dict α) (key : String) :
    (d.map f).get? key = (d.get? key).map f := by
  show List.lookup key (d.entries.map fun e => (e.1, f e.2)) = (List.lookup key d.entries).map f
  induction d.entries with
  | nil => rfl
  | cons e entries ih =>
    rw [List.map_cons, List.lookup_cons, List.lookup_cons, ih]
    cases key == e.1 <;> rfl

namespace Grammar

theorem root_spread (g : Grammar) : g.spread.root = g.root.plain := rfl

theorem get?_spread (g : Grammar) (name : String) :
    g.spread.modes.get? name = (g.modes.get? name).map ModeRule.spreadWithin :=
  Dict.get?_map _ _ _

theorem entries_spread (g : Grammar) :
    g.spread.modes.entries = g.modes.entries.map fun e => (e.1, e.2.spreadWithin) := rfl

end Grammar

end Highlighter
