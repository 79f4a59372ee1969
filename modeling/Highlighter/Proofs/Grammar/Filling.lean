import Highlighter.Proofs.Grammar.Adding
import Mathlib.Data.List.Nodup

/-! Filling places with the modes of a grammar. The induction is over the mode as it is written: its
variants, the list of each, and the modes that the entries of a list write out. -/

namespace Highlighter.Builder

open Address

/-- Entering a list adds the modes within the mode that has it, and gives the places of its
entries. -/
def AddsContents (g : Grammar) (named : List (String × List Nat))
    (contains : Option (List ModeRef)) (enter : Nat → BuilderM (List Nat)) : Prop :=
  ∀ ⦃b b' : Builder⦄ ⦃os : List Address⦄ ⦃i : Nat⦄ ⦃a : Address⦄
    ⦃rule : ModeRule⦄ ⦃ids : List Nat⦄,
    Ready g b os → Resolves g named os → StandsAt os i a → g.modeAt? a = some rule →
    rule.contains = contains → (∀ x ∈ os, ¬ Within a x) → Runs (enter i) b ids b' →
    ∃ os', Adds g b os b' os' (Within a) ∧
      List.Forall₂ (StandsAt os') ids (g.addressesFrom a 0 rule.entries) ∧
      ∀ ref ∈ rule.entries, g.Knows ref

/-- Addresses of the variants of one mode. -/
structure Siblings (address : Nat → Address) : Prop where
  injective : Function.Injective address
  depth_eq : ∀ v w, (address v).depth = (address w).depth
  ne_root : ∀ v, address v ≠ .root

theorem Siblings.named (name : String) : Siblings (.named name) :=
  ⟨fun v w h => by cases h; rfl, fun _ _ => rfl, nofun⟩

theorem Siblings.inner (a : Address) (entry : Nat) : Siblings (.inner a entry) :=
  ⟨fun v w h => by cases h; rfl, fun _ _ => rfl, nofun⟩

variable {g : Grammar} {named : List (String × List Nat)} {b b' : Builder} {os : List Address}

theorem adds_of_runs_fill {contains : Option (List ModeRef)} {enter : Nat → BuilderM (List Nat)}
    (hEnter : AddsContents g named contains enter) {id : Nat} {a : Address} {rule : ModeRule}
    (hReady : Ready g b os) (hNamed : Resolves g named os) (hStands : StandsAt os id a)
    (hRule : g.modeAt? a = some rule) (hContains : rule.contains = contains)
    (hFresh : ∀ x ∈ os, ¬ Within a x)
    (h : Runs (fill id (a = .root) rule.settings enter) b () b') :
    ∃ os', Adds g b os b' os' (Within a) ∧ Filled g b' os' id := by
  have hRoot : decide (a = .root) = true → rule.settings.closing = none := by
    intro hRoot
    rw [of_decide_eq_true hRoot] at hRule
    cases hRule
    rfl
  obtain ⟨b1, b2, ids, mode, hEnters, hRuns, hId, hIds, hDepicts, rfl⟩ :=
    exists_of_runs_fill hReady.uniform hRoot h
  have hSettings : Adds g b os b1 os (Within a) := .of_enters hEnters hReady
  obtain ⟨os', hAdds, hPlaces, hKnown⟩ :=
    hEnter hSettings.ready hNamed hStands hRule hContains hFresh hRuns
  have hAll := hSettings.trans hAdds
  have hStands' := hStands.mono hAdds.addresses
  have hLt : id < b2.modes.size := by
    rw [← hAdds.ready.length]
    exact (List.getElem?_eq_some_iff.1 hStands').1
  rw [hReady.caseInsensitive] at hDepicts
  have hGrows : Grows b2 { b2 with modes := b2.modes.setIfInBounds id mode } :=
    ⟨rfl, rfl, List.prefix_rfl, List.prefix_rfl⟩
  have hFilled : Filled g { b2 with modes := b2.modes.setIfInBounds id mode } os' id :=
    ⟨a, rule, mode,
      { stands := hStands'
        isRule := hRule
        isMode := Array.getElem?_setIfInBounds_self_of_lt hLt
        id := hId
        depicts := hDepicts.mono (hAdds.grows.trans hGrows)
        contains := hIds ▸ hPlaces
        known := hKnown }⟩
  have hKept : ∀ i, Filled g b2 os' i →
      Filled g { b2 with modes := b2.modes.setIfInBounds id mode } os' i := by
    intro i hi
    by_cases hEq : id = i
    · exact hEq ▸ hFilled
    · refine hi.mono hGrows List.prefix_rfl fun _ hMode => ?_
      rw [← hMode]
      exact Array.getElem?_setIfInBounds_ne hEq
  have hReady' : Ready g { b2 with modes := b2.modes.setIfInBounds id mode } os' :=
    ⟨hAll.ready.uniform, hAll.ready.caseInsensitive, by simp [hAll.ready.length],
      hAll.ready.nodup⟩
  exact ⟨os', ⟨hReady', hAll.grows.trans hGrows, hAll.addresses,
    fun i hi => hKept i (hAll.kept i hi), fun i hLe hLt => hKept i (hAll.added i hLe hLt),
    hAll.fresh⟩, hFilled⟩

theorem ready_append (hReady : Ready g b os) {added : List Address} {b' : Builder}
    (hGrows : Grows b b') (hUniform : b'.Uniform)
    (hSize : b'.modes.size = b.modes.size + added.length) (hNodup : added.Nodup)
    (hNew : ∀ x ∈ added, x ∉ os) : Ready g b' (os ++ added) := by
  refine ⟨hUniform, ?_, ?_, ?_⟩
  · rw [hGrows.caseInsensitive, hReady.caseInsensitive]
  · rw [List.length_append, hReady.length, hSize]
  · exact List.Nodup.append hReady.nodup hNodup fun x hx hAdded => hNew x hAdded hx

/-- Places are set aside for the variants of a mode that is not there yet, and nothing is lost. -/
theorem reserve_siblings {address : Nat → Address} (hAddress : Siblings address) {n : Nat}
    {ids : List Nat} (hReady : Ready g b os) (hNew : ∀ v, address v ∉ os)
    (h : Runs (reserve n) b ids b') :
    Ready g b' (os ++ (List.range n).map address) ∧ Grows b b' ∧
      List.Forall₂ (StandsAt (os ++ (List.range n).map address)) ids
        ((List.range n).map address) ∧
      (∀ i, Filled g b os i → Filled g b' (os ++ (List.range n).map address) i) ∧
      ∀ i, os.length ≤ i → i < os.length + n → i ∈ ids := by
  obtain ⟨rfl, hGrows, hUniform, added, rfl, hModes⟩ := reserves_of_runs h
  have hSize : b'.modes.size = b.modes.size + added.length := by
    rw [← Array.length_toList, hModes, List.length_append, Array.length_toList]
  have hStands := forall₂_standsAt_append os ((List.range added.length).map address)
  rw [List.length_map, List.length_range, hReady.length] at hStands
  refine ⟨ready_append hReady hGrows (hUniform hReady.uniform) (by simp [hSize]) ?_ ?_, hGrows,
    hStands, fun i hi => ?_, fun i hLe hLt => ?_⟩
  · exact List.Nodup.map hAddress.injective List.nodup_range
  · intro x hx
    obtain ⟨v, -, rfl⟩ := List.mem_map.1 hx
    exact hNew v
  · refine hi.mono hGrows (List.prefix_append _ _) fun mode hMode => ?_
    rw [← Array.getElem?_toList] at hMode ⊢
    rw [hModes, List.getElem?_append_left (List.getElem?_eq_some_iff.1 hMode).1]
    exact hMode
  · rw [List.mem_range'_1, ← hReady.length]
    exact ⟨hLe, hLt⟩

mutual

theorem adds_of_runs_fillAll (rule : ModeRule) {b b' : Builder} {os : List Address}
    {address : Nat → Address} (hAddress : Siblings address) {ids : List Nat}
    (hReady : Ready g b os) (hNamed : Resolves g named os)
    (hRule : ∀ v, g.modeAt? (address v) = rule.expanded[v]?)
    (hStands : List.Forall₂ (StandsAt os) ids ((List.range rule.expandedLength).map address))
    (hFresh : ∀ x ∈ os, ∀ v, ¬ Within (address v) x)
    (h : Runs (fillAll named ids rule) b () b') :
    ∃ os', Adds g b os b' os' (fun x => ∃ v, Within (address v) x) ∧
      ∀ id ∈ ids, Filled g b' os' id := by
  obtain ⟨settings, contains, variants⟩ := rule
  have hContents : AddsContents g named contains (enterContents named · contains) :=
    addsContents_enterContents contains
  -- A mode without variants is its own and only variant.
  cases variants with
  | nil =>
    obtain ⟨id, ids, hId, hNil, rfl⟩ := List.forall₂_cons_right_iff.1 hStands
    obtain rfl := List.forall₂_nil_right_iff.1 hNil
    rw [fillAll] at h
    have hFill : Runs
        (fill id (address 0 = .root) settings (enterContents named · contains)) b () b' := by
      rw [decide_eq_false (hAddress.ne_root 0)]
      exact h
    obtain ⟨os', hAdds, hFilled⟩ := adds_of_runs_fill hContents hReady hNamed hId (hRule 0) rfl
      (fun x hx => hFresh x hx 0) hFill
    refine ⟨os', hAdds.mono fun x hx => ⟨0, hx⟩, fun i hi => ?_⟩
    rw [List.mem_singleton.1 hi]
    exact hFilled
  | cons variant variants =>
    have hRuns : Runs (fillVariants named settings (enterContents named · contains) ids
        (variant :: variants)) b () b' := by
      rw [fillAll] at h
      · exact h
      · exact nofun
      · exact nofun
    have hVariants : ∀ v own, (variant :: variants)[v]? = some own →
        g.modeAt? (address (0 + v)) = some ((ModeRule.mk settings contains []).mergedWith own) := by
      intro v own hOwn
      rw [Nat.zero_add, hRule]
      show ((variant :: variants).map (ModeRule.mergedWith _))[v]? = _
      rw [List.getElem?_map, hOwn]
      rfl
    have hLength : (ModeRule.mk settings contains (variant :: variants)).expandedLength =
        (variant :: variants).length := Nat.max_eq_left (Nat.succ_pos _)
    rw [hLength, List.range_eq_range'] at hStands
    obtain ⟨os', hAdds, hFilled⟩ :=
      adds_of_runs_fillVariants (variant :: variants) hContents hAddress
      hReady hNamed hVariants hStands (fun x hx v _ => hFresh x hx v) hRuns
    exact ⟨os', hAdds.mono fun x ⟨v, _, hx⟩ => ⟨v, hx⟩, hFilled⟩
termination_by structural rule

theorem adds_of_runs_fillVariants (variants : List ModeRule) {settings : ModeSettings}
    {contains : Option (List ModeRef)} {within : Nat → BuilderM (List Nat)}
    (hWithin : AddsContents g named contains within) {b b' : Builder} {os : List Address}
    {address : Nat → Address} (hAddress : Siblings address) {first : Nat} {ids : List Nat}
    (hReady : Ready g b os) (hNamed : Resolves g named os)
    (hRule : ∀ v variant, variants[v]? = some variant → g.modeAt? (address (first + v)) =
      some ((ModeRule.mk settings contains []).mergedWith variant))
    (hStands : List.Forall₂ (StandsAt os) ids ((List.range' first variants.length).map address))
    (hFresh : ∀ x ∈ os, ∀ v ≥ first, ¬ Within (address v) x)
    (h : Runs (fillVariants named settings within ids variants) b () b') :
    ∃ os', Adds g b os b' os' (fun x => ∃ v ≥ first, Within (address v) x) ∧
      ∀ id ∈ ids, Filled g b' os' id := by
  cases variants with
  | nil =>
    obtain rfl := List.forall₂_nil_right_iff.1 hStands
    rw [fillVariants] at h
    · obtain ⟨-, rfl⟩ := runs_pure.1 h
      exact ⟨os, .refl hReady, nofun⟩
    · intro _ _ _ _ _ _ hNil
      cases hNil
  | cons variant variants =>
    obtain ⟨own, refs, nested⟩ := variant
    obtain ⟨id, ids, hId, hIds, rfl⟩ := List.forall₂_cons_right_iff.1 hStands
    rw [fillVariants] at h
    obtain ⟨⟨⟩, b1, hFill, hRest⟩ := runs_bind.1 h
    have hFirst : ∀ enter, AddsContents g named (refs.or contains) enter →
        Runs (fill id false (settings.override own) enter) b () b1 →
        ∃ os1, Adds g b os b1 os1 (Within (address first)) ∧ Filled g b1 os1 id := by
      intro enter hEnter hFill
      rw [← decide_eq_false (hAddress.ne_root first)] at hFill
      exact adds_of_runs_fill hEnter hReady hNamed hId (hRule 0 _ rfl) rfl
        (fun x hx => hFresh x hx first (Nat.le_refl _)) hFill
    obtain ⟨os1, hAdds1, hFilled⟩ :
        ∃ os1, Adds g b os b1 os1 (Within (address first)) ∧ Filled g b1 os1 id := by
      cases refs with
      | none => exact hFirst within hWithin hFill
      | some refs => exact hFirst _ (addsContents_enterContents (some refs)) hFill
    -- What has been added lies within the first variant, and so within none of the others.
    have hFresh1 : ∀ x ∈ os1, ∀ v ≥ first + 1, ¬ Within (address v) x := by
      intro x hx v hv hWithin
      rcases hAdds1.fresh x hx with hOld | hNew
      · exact hFresh x hOld v (by omega) hWithin
      · have hEq := hAddress.injective (hNew.eq_of_depth_eq hWithin (hAddress.depth_eq first v))
        omega
    have hRule1 : ∀ v variant, variants[v]? = some variant →
        g.modeAt? (address (first + 1 + v)) =
        some ((ModeRule.mk settings contains []).mergedWith variant) := by
      intro v variant hVariant
      rw [Nat.add_assoc, Nat.add_comm 1 v]
      exact hRule (v + 1) variant hVariant
    have hIds1 := hIds.imp fun _ _ hAt => hAt.mono hAdds1.addresses
    obtain ⟨os2, hAdds2, hFilled2⟩ :=
      adds_of_runs_fillVariants variants hWithin hAddress hAdds1.ready
      (hNamed.mono hAdds1.addresses) hRule1 hIds1 hFresh1 hRest
    refine ⟨os2, (hAdds1.mono fun x hx => ⟨first, Nat.le_refl _, hx⟩).trans
      (hAdds2.mono fun x ⟨v, hv, hx⟩ => ⟨v, by omega, hx⟩), fun i hi => ?_⟩
    rcases List.mem_cons.1 hi with rfl | hi
    · exact hAdds2.kept i hFilled
    · exact hFilled2 i hi
termination_by structural variants

theorem addsContents_enterContents (contains : Option (List ModeRef)) :
    AddsContents g named contains (enterContents named · contains) := by
  intro b b' os i a rule ids hReady hNamed hStands hRule hContains hFresh h
  cases contains with
  | none =>
    have hNone : rule.entries = [] := by rw [ModeRule.entries, hContains]; rfl
    obtain ⟨rfl, rfl⟩ := runs_pure.1 h
    rw [hNone]
    exact ⟨os, .refl hReady, .nil, nofun⟩
  | some refs =>
    have hSome : rule.entries = refs := by rw [ModeRule.entries, hContains]; rfl
    obtain ⟨os', rest, rfl, hAdds, hPlaces, hKnown⟩ :=
      adds_of_runs_enterRefs refs hReady hNamed hStands
      hRule (fun k ref hRef => by rw [Nat.zero_add, hSome]; exact hRef)
      (fun x hx entry _ variant hUnder => hFresh x hx ⟨entry, variant, hUnder⟩) h
    rw [hSome]
    exact ⟨os', hAdds.mono fun x ⟨entry, _, variant, hx⟩ => ⟨entry, variant, hx⟩,
      hPlaces, hKnown⟩
termination_by structural contains

theorem adds_of_runs_enterRefs (refs : List ModeRef) {b b' : Builder} {os : List Address} {i : Nat}
    {a : Address} {rule : ModeRule} {first : Nat} {done ids : List Nat} (hReady : Ready g b os)
    (hNamed : Resolves g named os) (hStands : StandsAt os i a) (hRule : g.modeAt? a = some rule)
    (hRefs : ∀ k ref, refs[k]? = some ref → rule.entries[first + k]? = some ref)
    (hFresh : ∀ x ∈ os, ∀ entry ≥ first, ∀ variant, ¬ Under (.inner a entry variant) x)
    (h : Runs (enterRefs named i done refs) b ids b') :
    ∃ os' rest, ids = done.reverse ++ rest ∧
      Adds g b os b' os'
        (fun x => ∃ entry ≥ first, ∃ variant, Under (.inner a entry variant) x) ∧
      List.Forall₂ (StandsAt os') rest (g.addressesFrom a first refs) ∧
        ∀ ref ∈ refs, g.Knows ref := by
  cases refs with
  | nil =>
    rw [enterRefs] at h
    obtain ⟨rfl, rfl⟩ := runs_pure.1 h
    exact ⟨os, [], (List.append_nil _).symm, .refl hReady, .nil, nofun⟩
  | cons ref refs =>
    rw [enterRefs] at h
    obtain ⟨places, b1, hRef, hRest⟩ := runs_bind.1 h
    obtain ⟨os1, hAdds1, hPlaces1, hKnown1⟩ :=
      adds_of_runs_enterRef ref hReady hNamed hStands hRule
      (hRefs 0 ref rfl) (fun x hx variant => hFresh x hx first (Nat.le_refl _) variant) hRef
    -- What has been added lies within the first entry, and so within none of the others.
    have hFresh1 : ∀ x ∈ os1, ∀ entry ≥ first + 1, ∀ variant,
        ¬ Under (.inner a entry variant) x := by
      intro x hx entry hEntry variant hUnder
      rcases hAdds1.fresh x hx with hOld | ⟨variant', hNew⟩
      · exact hFresh x hOld entry (by omega) variant hUnder
      · cases hNew.eq_of_depth_eq hUnder rfl
        omega
    have hRefs1 : ∀ k ref, refs[k]? = some ref → rule.entries[first + 1 + k]? = some ref := by
      intro k ref hRef
      rw [Nat.add_assoc, Nat.add_comm 1 k]
      exact hRefs (k + 1) ref hRef
    obtain ⟨os2, rest, hIds, hAdds2, hPlaces2, hKnown2⟩ :=
      adds_of_runs_enterRefs refs hAdds1.ready
      (hNamed.mono hAdds1.addresses) (hStands.mono hAdds1.addresses) hRule hRefs1 hFresh1 hRest
    refine ⟨os2, places ++ rest, ?_, ?_, ?_, ?_⟩
    · rw [hIds, List.reverse_append, List.reverse_reverse, List.append_assoc]
    · exact (hAdds1.mono fun x ⟨variant, hx⟩ => ⟨first, Nat.le_refl _, variant, hx⟩).trans
        (hAdds2.mono fun x ⟨entry, hEntry, hx⟩ => ⟨entry, by omega, hx⟩)
    · exact List.rel_append (hPlaces1.imp fun _ _ hAt => hAt.mono hAdds2.addresses) hPlaces2
    · exact List.forall_mem_cons.2 ⟨hKnown1, hKnown2⟩
termination_by structural refs

theorem adds_of_runs_enterRef (ref : ModeRef) {b b' : Builder} {os : List Address} {i : Nat}
    {a : Address} {rule : ModeRule} {entry : Nat} {ids : List Nat} (hReady : Ready g b os)
    (hNamed : Resolves g named os) (hStands : StandsAt os i a) (hRule : g.modeAt? a = some rule)
    (hRef : rule.entries[entry]? = some ref)
    (hFresh : ∀ x ∈ os, ∀ variant, ¬ Under (.inner a entry variant) x)
    (h : Runs (enterRef named i ref) b ids b') :
    ∃ os', Adds g b os b' os' (fun x => ∃ variant, Under (.inner a entry variant) x) ∧
      List.Forall₂ (StandsAt os') ids (g.addressesOf a entry ref) ∧ g.Knows ref := by
  cases ref with
  | named name =>
    rw [enterRef] at h
    split at h
    · next hSelf =>
      obtain ⟨rfl, rfl⟩ := runs_pure.1 h
      rw [Grammar.addressesOf, if_pos hSelf]
      exact ⟨os, .refl hReady, .cons hStands .nil, .inl hSelf⟩
    · next hOther =>
      split at h
      · next places hLookup =>
        obtain ⟨rfl, rfl⟩ := runs_pure.1 h
        obtain ⟨rule, hMode, hPlaces⟩ := hNamed name places hLookup
        rw [Grammar.addressesOf, if_neg hOther, hMode]
        exact ⟨os, .refl hReady, hPlaces, .inr (by rw [hMode]; rfl)⟩
      · obtain ⟨_, _, -, hThrow⟩ := runs_bind.1 h
        exact absurd hThrow not_runs_throw
  | inline inner =>
    rw [enterRef] at h
    obtain ⟨places, b1, hReserve, h⟩ := runs_bind.1 h
    obtain ⟨⟨⟩, b2, hFill, h⟩ := runs_bind.1 h
    obtain ⟨rfl, rfl⟩ := runs_pure.1 h
    have hAddress := Siblings.inner a entry
    obtain ⟨hReady1, hGrows1, hPlaces1, hKept1, hAdded1⟩ := reserve_siblings hAddress hReady
      (fun variant hOld => hFresh _ hOld variant .self) hReserve
    have hRule1 : ∀ v, g.modeAt? (.inner a entry v) = inner.expanded[v]? := by
      intro v
      rw [Grammar.modeAt?, hRule, Option.bind_some, ModeRule.inner?, hRef]
    -- No variant of the entry lies within another one, as all of them are equally deep.
    have hFresh1 : ∀ x ∈ os ++ (List.range inner.expandedLength).map (.inner a entry), ∀ v,
        ¬ Within (.inner a entry v) x := by
      intro x hx v hWithin
      rcases List.mem_append.1 hx with hOld | hNew
      · exact hFresh x hOld v hWithin.under
      · obtain ⟨w, -, rfl⟩ := List.mem_map.1 hNew
        exact absurd hWithin.depth_lt (Nat.lt_irrefl _)
    have hPrefix : os <+: os ++ (List.range inner.expandedLength).map (.inner a entry) :=
      List.prefix_append _ _
    obtain ⟨os2, hAdds2, hFilled2⟩ :=
      adds_of_runs_fillAll inner hAddress hReady1 (hNamed.mono hPrefix)
      hRule1 hPlaces1 hFresh1 hFill
    refine ⟨os2, ⟨hAdds2.ready, hGrows1.trans hAdds2.grows, hPrefix.trans hAdds2.addresses,
      fun i hi => hAdds2.kept i (hKept1 i hi), fun i hLe hLt => ?_, fun x hx => ?_⟩,
      hPlaces1.imp fun _ _ hAt => hAt.mono hAdds2.addresses, trivial⟩
    -- A new place is that of a variant, which has just been filled, or that of a mode within one.
    · by_cases hi : i < os.length + inner.expandedLength
      · exact hFilled2 i (hAdded1 i hLe hi)
      · exact hAdds2.added i (by simpa using hi) hLt
    · rcases hAdds2.fresh x hx with hOld | ⟨v, hNew⟩
      · rcases List.mem_append.1 hOld with hOld | hSibling
        · exact .inl hOld
        · obtain ⟨v, -, rfl⟩ := List.mem_map.1 hSibling
          exact .inr ⟨v, .self⟩
      · exact .inr ⟨v, hNew.under⟩
termination_by structural ref

end

end Highlighter.Builder
