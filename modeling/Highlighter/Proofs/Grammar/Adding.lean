import Highlighter.Proofs.Grammar.Building
import Mathlib.Data.List.Forall2

/-! Adding the modes of a grammar to the tables. Beside the table of modes goes the list of their
addresses, which only grows. `Adds` says what a step of the construction does to both: what has been
filled stays filled, and places that are added are filled. -/

namespace Highlighter

namespace Address

/-- The second address is the first one or lies within it. -/
inductive Under (a : Address) : Address → Prop
  | self : Under a a
  | inner {x : Address} (h : Under a x) (entry variant : Nat) : Under a (.inner x entry variant)

def depth : Address → Nat
  | .root => 0
  | .named _ _ => 0
  | .inner around _ _ => around.depth + 1

variable {a b c x : Address}

theorem Under.depth_le (h : Under a x) : a.depth ≤ x.depth := by
  induction h with
  | self => exact Nat.le_refl _
  | inner _ entry variant ih => exact Nat.le_succ_of_le ih

theorem Under.trans (hab : Under a b) (hbc : Under b c) : Under a c := by
  induction hbc with
  | self => exact hab
  | inner _ entry variant ih => exact .inner ih entry variant

theorem Under.eq_of_depth_eq (ha : Under a x) (hb : Under b x)
    (hDepth : a.depth = b.depth) : a = b := by
  induction ha with
  | self =>
    cases hb with
    | self => rfl
    | inner h entry variant =>
      have hLe := h.depth_le
      simp only [depth] at hDepth
      omega
  | @inner y h entry variant ih =>
    cases hb with
    | self =>
      have hLe := h.depth_le
      simp only [depth] at hDepth
      omega
    | inner hb => exact ih hb

/-- The second address lies within the mode at the first one. -/
def Within (a x : Address) : Prop := ∃ entry variant, Under (.inner a entry variant) x

theorem Within.under (h : Within a x) : Under a x := by
  obtain ⟨entry, variant, h⟩ := h
  exact Under.trans (.inner .self entry variant) h

theorem Within.depth_lt (h : Within a x) : a.depth < x.depth := by
  obtain ⟨entry, variant, h⟩ := h
  exact h.depth_le

theorem Within.eq_of_depth_eq (ha : Within a x) (hb : Within b x) (hDepth : a.depth = b.depth) :
    a = b := by
  exact ha.under.eq_of_depth_eq hb.under hDepth

end Address

/-- The mode at an address stands at a place. -/
def StandsAt (os : List Address) (id : Nat) (a : Address) : Prop := os[id]? = some a

theorem StandsAt.mono {os os' : List Address} {id : Nat} {a : Address} (h : StandsAt os id a)
    (hPrefix : os <+: os') : StandsAt os' id a := by
  obtain ⟨rest, rfl⟩ := hPrefix
  unfold StandsAt at h ⊢
  rw [List.getElem?_append_left (List.getElem?_eq_some_iff.1 h).1]
  exact h

theorem forall₂_standsAt_append (os added : List Address) :
    List.Forall₂ (StandsAt (os ++ added)) (List.range' os.length added.length) added := by
  induction added generalizing os with
  | nil => exact .nil
  | cons a added ih =>
    have hRest := ih (os ++ [a])
    rw [List.append_assoc, List.length_append] at hRest
    exact .cons (by simp [StandsAt]) hRest

theorem exists_of_forall₂_right {α β : Type} {r : α → β → Prop} {left : List α}
    {right : List β} (h : List.Forall₂ r left right) {y : β} (hy : y ∈ right) :
    ∃ x ∈ left, r x y := by
  induction h with
  | nil => cases hy
  | @cons x _ _ _ hFirst _ ih =>
    rcases List.mem_cons.1 hy with rfl | hy
    · exact ⟨x, List.mem_cons_self, hFirst⟩
    · obtain ⟨z, hz, hRel⟩ := ih hy
      exact ⟨z, List.mem_cons_of_mem _ hz, hRel⟩

namespace Builder

/-- The places of the named modes are known. -/
def Resolves (g : Grammar) (named : List (String × List Nat)) (os : List Address) : Prop :=
  ∀ name ids, named.lookup name = some ids → ∃ rule, g.modes.get? name = some rule ∧
    List.Forall₂ (StandsAt os) ids ((List.range rule.expandedLength).map (.named name))

theorem Resolves.mono {g : Grammar} {named : List (String × List Nat)} {os os' : List Address}
    (h : Resolves g named os) (hPrefix : os <+: os') : Resolves g named os' := by
  intro name ids hIds
  obtain ⟨rule, hRule, hPlaces⟩ := h name ids hIds
  exact ⟨rule, hRule, hPlaces.imp fun _ _ hAt => hAt.mono hPrefix⟩

/-- A mode in the table is that of the grammar at an address. -/
structure Fills (g : Grammar) (b : Builder) (os : List Address) (i : Nat) (a : Address)
    (rule : ModeRule) (mode : Mode) : Prop where
  stands : StandsAt os i a
  isRule : g.modeAt? a = some rule
  isMode : b.modes[i]? = some mode
  id : mode.id = i
  depicts : mode.Depicts b.regexes b.keywordSets g.caseInsensitive (a = .root) rule.settings
  contains : List.Forall₂ (StandsAt os) mode.contains (g.addressesFrom a 0 rule.entries)
  known : ∀ ref ∈ rule.entries, g.Knows ref

def Filled (g : Grammar) (b : Builder) (os : List Address) (i : Nat) : Prop :=
  ∃ a rule mode, Fills g b os i a rule mode

theorem Filled.mono {g : Grammar} {b b' : Builder} {os os' : List Address} {i : Nat}
    (h : Filled g b os i) (hGrows : Grows b b') (hPrefix : os <+: os')
    (hMode : ∀ mode, b.modes[i]? = some mode → b'.modes[i]? = some mode) :
    Filled g b' os' i := by
  obtain ⟨a, rule, mode, h⟩ := h
  exact ⟨a, rule, mode,
    { stands := h.stands.mono hPrefix
      isRule := h.isRule
      isMode := hMode mode h.isMode
      id := h.id
      depicts := h.depicts.mono hGrows
      contains := h.contains.imp fun _ _ hAt => hAt.mono hPrefix
      known := h.known }⟩

/-- The tables of a grammar with the addresses of the modes so far. -/
structure Ready (g : Grammar) (b : Builder) (os : List Address) : Prop where
  uniform : b.Uniform
  caseInsensitive : b.caseInsensitive = g.caseInsensitive
  length : os.length = b.modes.size
  nodup : os.Nodup

/-- Modes are added, whose addresses are `fresh`. -/
structure Adds (g : Grammar) (b : Builder) (os : List Address) (b' : Builder) (os' : List Address)
    (fresh : Address → Prop) : Prop where
  ready : Ready g b' os'
  grows : Grows b b'
  addresses : os <+: os'
  kept : ∀ i, Filled g b os i → Filled g b' os' i
  added : ∀ i, os.length ≤ i → i < os'.length → Filled g b' os' i
  fresh : ∀ x ∈ os', x ∈ os ∨ fresh x

namespace Adds

variable {g : Grammar} {b b1 b2 : Builder} {os os1 os2 : List Address}
  {fresh fresh' : Address → Prop}

theorem refl (h : Ready g b os) : Adds g b os b os fresh :=
  ⟨h, .refl b, List.prefix_rfl, fun _ => id, fun i hLe hLt => by omega, fun _ => .inl⟩

theorem trans (h1 : Adds g b os b1 os1 fresh) (h2 : Adds g b1 os1 b2 os2 fresh) :
    Adds g b os b2 os2 fresh := by
  refine ⟨h2.ready, h1.grows.trans h2.grows, h1.addresses.trans h2.addresses,
    fun i hi => h2.kept i (h1.kept i hi), fun i hLe hLt => ?_, fun x hx => ?_⟩
  · by_cases hi : i < os1.length
    · exact h2.kept i (h1.added i hLe hi)
    · exact h2.added i (Nat.le_of_not_lt hi) hLt
  · rcases h2.fresh x hx with hx | hx
    · exact h1.fresh x hx
    · exact .inr hx

theorem mono (h : Adds g b os b1 os1 fresh) (hFresh : ∀ x, fresh x → fresh' x) :
    Adds g b os b1 os1 fresh' :=
  ⟨h.ready, h.grows, h.addresses, h.kept, h.added,
    fun x hx => (h.fresh x hx).imp_right (hFresh x)⟩

theorem of_enters (h : Enters b b1) (hReady : Ready g b os) : Adds g b os b1 os fresh := by
  have hMode : ∀ {i : Nat} {mode}, b.modes[i]? = some mode → b1.modes[i]? = some mode := by
    intro i mode hi
    rw [h.modes]
    exact hi
  refine ⟨⟨h.uniform hReady.uniform, ?_, ?_, hReady.nodup⟩, h.grows, List.prefix_rfl,
    fun i hi => ?_, fun i hLe hLt => by omega, fun _ => .inl⟩
  · rw [h.grows.caseInsensitive, hReady.caseInsensitive]
  · rw [h.modes, hReady.length]
  · exact hi.mono h.grows List.prefix_rfl fun _ => hMode

end Adds

end Builder

end Highlighter
