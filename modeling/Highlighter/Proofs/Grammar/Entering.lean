import Highlighter.Proofs.Grammar.Filling

/-! Entering a whole grammar. The root and the named modes get their places first, so
that references can be resolved; then their places are filled, and those of the modes
within them along with them. -/

namespace Highlighter

open Address

namespace Builder

/-- The places that have been set aside for a named mode. -/
def NamesAt (os : List Address) (places : String × List Nat) (entry : String × ModeRule) : Prop :=
  places.1 = entry.1 ∧
    List.Forall₂ (StandsAt os) places.2 ((List.range entry.2.expandedLength).map (.named entry.1))

theorem NamesAt.mono {os os' : List Address} {places : String × List Nat}
    {entry : String × ModeRule} (h : NamesAt os places entry) (hPrefix : os <+: os') :
    NamesAt os' places entry :=
  ⟨h.1, h.2.imp fun _ _ hAt => hAt.mono hPrefix⟩

theorem exists_of_lookup {os : List Address} {named : List (String × List Nat)}
    {entries : List (String × ModeRule)} (h : List.Forall₂ (NamesAt os) named entries)
    {name : String} {ids : List Nat} (hLookup : named.lookup name = some ids) :
    ∃ entry ∈ entries, NamesAt os (name, ids) entry := by
  induction h with
  | nil => cases hLookup
  | @cons places entry _ _ hAt _ ih =>
    rw [List.lookup_cons] at hLookup
    split at hLookup
    · next hEq =>
      cases hLookup
      rw [beq_iff_eq.1 hEq]
      exact ⟨entry, List.mem_cons_self, hAt⟩
    · obtain ⟨found, hFound, hAt⟩ := ih hLookup
      exact ⟨found, List.mem_cons_of_mem _ hFound, hAt⟩

variable {g : Grammar} {b b' : Builder} {os : List Address}

theorem reserves_of_runs_reserveNamed (entries : List (String × ModeRule))
    {named : List (String × List Nat)} (hReady : Ready g b os)
    (hNames : entries.Pairwise fun e e' => e.1 ≠ e'.1)
    (hNew : ∀ e ∈ entries, ∀ v, .named e.1 v ∉ os)
    (h : Runs (reserveNamed entries) b named b') :
    ∃ os', Ready g b' os' ∧ os <+: os' ∧ List.Forall₂ (NamesAt os') named entries ∧
      (∀ i, os.length ≤ i → i < os'.length → ∃ places ∈ named, i ∈ places.2) ∧
      ∀ x ∈ os', x ∈ os ∨ ∃ e ∈ entries, ∃ v, x = .named e.1 v := by
  induction entries generalizing b os named with
  | nil =>
    obtain ⟨rfl, rfl⟩ := runs_pure.1 h
    exact ⟨os, hReady, List.prefix_rfl, .nil, fun i hLe hLt => by omega, fun _ => .inl⟩
  | cons entry entries ih =>
    rw [reserveNamed, List.mapM_cons] at h
    obtain ⟨places, b1, hEntry, h⟩ := runs_bind.1 h
    obtain ⟨rest, b2, hRest, h⟩ := runs_bind.1 h
    obtain ⟨rfl, rfl⟩ := runs_pure.1 h
    obtain ⟨ids, b3, hReserve, hEntry⟩ := runs_bind.1 hEntry
    obtain ⟨rfl, rfl⟩ := runs_pure.1 hEntry
    obtain ⟨hOther, hNames⟩ := List.pairwise_cons.1 hNames
    obtain ⟨hReady1, -, hPlaces1, -, hAdded1⟩ :=
      reserve_siblings (Siblings.named entry.1) hReady (hNew entry List.mem_cons_self) hReserve
    -- Names are distinct, so none of the addresses just added is one of those to come.
    have hNew1 : ∀ e ∈ entries, ∀ v,
        .named e.1 v ∉ os ++ (List.range entry.2.expandedLength).map (.named entry.1) := by
      intro e he v hMem
      rcases List.mem_append.1 hMem with hMem | hMem
      · exact hNew e (List.mem_cons_of_mem _ he) v hMem
      · obtain ⟨w, -, hEq⟩ := List.mem_map.1 hMem
        injection hEq with hName
        exact hOther e he hName
    obtain ⟨os2, hReady2, hPrefix2, hPlaces2, hAdded2, hFresh2⟩ := ih hReady1 hNames hNew1 hRest
    refine ⟨os2, hReady2, (List.prefix_append _ _).trans hPrefix2,
      .cons ⟨rfl, hPlaces1.imp fun _ _ hAt => hAt.mono hPrefix2⟩ hPlaces2, fun i hLe hLt => ?_,
      fun x hx => ?_⟩
    · by_cases hi : i < os.length + entry.2.expandedLength
      · exact ⟨_, List.mem_cons_self, hAdded1 i hLe hi⟩
      · obtain ⟨places, hMem, hi⟩ := hAdded2 i (by simpa using hi) hLt
        exact ⟨places, List.mem_cons_of_mem _ hMem, hi⟩
    · rcases hFresh2 x hx with hOld | ⟨e, he, v, rfl⟩
      · rcases List.mem_append.1 hOld with hOld | hNamed
        · exact .inl hOld
        · obtain ⟨v, -, rfl⟩ := List.mem_map.1 hNamed
          exact .inr ⟨entry, List.mem_cons_self, v, rfl⟩
      · exact .inr ⟨e, List.mem_cons_of_mem _ he, v, rfl⟩

theorem adds_of_runs_fillNamed {named places : List (String × List Nat)}
    (entries : List (String × ModeRule)) (hReady : Ready g b os) (hNamed : Resolves g named os)
    (hPlaces : List.Forall₂ (NamesAt os) places entries)
    (hNames : entries.Pairwise fun e e' => e.1 ≠ e'.1)
    (hModes : ∀ e ∈ entries, g.modes.get? e.1 = some e.2)
    (hFresh : ∀ x ∈ os, ∀ e ∈ entries, ∀ v, ¬ Within (.named e.1 v) x)
    (h : Runs (fillNamed named places entries) b () b') :
    ∃ os', Adds g b os b' os' (fun x => ∃ e ∈ entries, ∃ v, Within (.named e.1 v) x) ∧
      ∀ p ∈ places, ∀ id ∈ p.2, Filled g b' os' id := by
  induction entries generalizing b os places with
  | nil =>
    cases hPlaces
    obtain ⟨-, rfl⟩ := runs_pure.1 h
    exact ⟨os, .refl hReady, nofun⟩
  | cons entry entries ih =>
    obtain ⟨⟨name, ids⟩, rest, ⟨hName, hIds⟩, hRest, rfl⟩ :=
      List.forall₂_cons_right_iff.1 hPlaces
    obtain ⟨⟨⟩, b1, hFill, h⟩ := runs_bind.1 h
    obtain ⟨hOther, hNames⟩ := List.pairwise_cons.1 hNames
    have hRule : ∀ v, g.modeAt? (.named entry.1 v) = entry.2.expanded[v]? := by
      intro v
      rw [Grammar.modeAt?, hModes entry List.mem_cons_self]
      rfl
    obtain ⟨os1, hAdds1, hFilled1⟩ :=
      adds_of_runs_fillAll entry.2 (Siblings.named entry.1) hReady
      hNamed hRule hIds (fun x hx => hFresh x hx entry List.mem_cons_self) hFill
    -- What has been added lies within the first mode, and so within none of the others.
    have hFresh1 : ∀ x ∈ os1, ∀ e ∈ entries, ∀ v, ¬ Within (.named e.1 v) x := by
      intro x hx e he v hWithin
      rcases hAdds1.fresh x hx with hOld | ⟨w, hNew⟩
      · exact hFresh x hOld e (List.mem_cons_of_mem _ he) v hWithin
      · injection hNew.eq_of_depth_eq hWithin rfl with hName
        exact hOther e he hName
    obtain ⟨os2, hAdds2, hFilled2⟩ := ih hAdds1.ready (hNamed.mono hAdds1.addresses)
      (hRest.imp fun _ _ hAt => hAt.mono hAdds1.addresses) hNames
      (fun e he => hModes e (List.mem_cons_of_mem _ he)) hFresh1 h
    refine ⟨os2, (hAdds1.mono fun x ⟨v, hx⟩ => ⟨entry, List.mem_cons_self, v, hx⟩).trans
      (hAdds2.mono fun x ⟨e, he, hx⟩ => ⟨e, List.mem_cons_of_mem _ he, hx⟩),
      fun p hp id hId => ?_⟩
    rcases List.mem_cons.1 hp with rfl | hp
    · exact hAdds2.kept id (hFilled1 id hId)
    · exact hFilled2 p hp id hId

/-- Places have been set aside for the root and the named modes, and for no others. -/
structure Reserved (g : Grammar) (b : Builder) (os : List Address)
    (named : List (String × List Nat)) : Prop where
  ready : Ready g b os
  root : StandsAt os Machine.root .root
  namesAt : List.Forall₂ (NamesAt os) named g.modes.entries
  isNamed : ∀ i, 1 ≤ i → i < os.length → ∃ places ∈ named, i ∈ places.2
  depth : ∀ x ∈ os, x.depth = 0

namespace Reserved

variable {named : List (String × List Nat)}

theorem resolves (h : Reserved g b os named) : Resolves g named os := by
  intro name ids hLookup
  obtain ⟨entry, hEntry, hName, hIds⟩ := exists_of_lookup h.namesAt hLookup
  cases hName
  exact ⟨entry.2, Dict.get?_eq_some_iff.2 hEntry, hIds⟩

theorem not_within (h : Reserved g b os named) {x : Address} (hx : x ∈ os) (a : Address) :
    ¬ Within a x := by
  intro hWithin
  have hLt := hWithin.depth_lt
  rw [h.depth x hx] at hLt
  exact Nat.not_lt_zero _ hLt

end Reserved

theorem pairwise_names (g : Grammar) : g.modes.entries.Pairwise fun e e' => e.1 ≠ e'.1 := by
  refine g.modes.sorted.imp ?_
  intro e e' hLt hEq
  rw [hEq] at hLt
  exact String.lt_irrefl _ hLt

theorem reserved_of_runs {b1 : Builder} {ids : List Nat} {named : List (String × List Nat)}
    (hReserve : Runs (reserve 1) ⟨g.name, g.caseInsensitive, #[], #[], #[]⟩ ids b1)
    (hReserveNamed : Runs (reserveNamed g.modes.entries) b1 named b') :
    ∃ os, Reserved g b' os named := by
  have hEmpty : Ready g ⟨g.name, g.caseInsensitive, #[], #[], #[]⟩ [] :=
    ⟨fun r hr => by simp at hr, rfl, rfl, .nil⟩
  obtain ⟨-, hGrows, hUniform, added, hAdded, hModes⟩ := reserves_of_runs hReserve
  have hReady : Ready g b1 ([] ++ [.root]) := by
    refine ready_append hEmpty hGrows (hUniform hEmpty.uniform) ?_ (List.nodup_singleton _) nofun
    rw [← Array.length_toList, hModes, List.length_append, hAdded]
    rfl
  have hRoot : StandsAt ([] ++ [.root]) Machine.root .root := rfl
  obtain ⟨os, hReady', hPrefix, hNamed, hPlaces, hFresh⟩ := reserves_of_runs_reserveNamed
    g.modes.entries hReady (pairwise_names g) (fun _ _ _ => by simp) hReserveNamed
  refine ⟨os, hReady', hRoot.mono hPrefix, hNamed, hPlaces, fun x hx => ?_⟩
  rcases hFresh x hx with hOld | ⟨e, -, v, rfl⟩
  · rw [List.mem_singleton.1 hOld]
    rfl
  · rfl

/-- The tables hold a mode for each address, and nothing else. -/
structure Complete (g : Grammar) (b : Builder) (os : List Address) : Prop where
  ready : Ready g b os
  filled : ∀ i < os.length, Filled g b os i
  root : StandsAt os Machine.root .root
  named : ∀ name rule, g.modes.get? name = some rule →
    ∀ v < rule.expandedLength, .named name v ∈ os

theorem complete_of_runs_enterGrammar
    (h : Runs (enterGrammar g) ⟨g.name, g.caseInsensitive, #[], #[], #[]⟩ () b') :
    ∃ os, Complete g b' os := by
  obtain ⟨ids, b1, hReserve, h⟩ := runs_bind.1 h
  obtain ⟨named, b2, hReserveNamed, h⟩ := runs_bind.1 h
  obtain ⟨⟨⟩, b3, hFill, hFillNamed⟩ := runs_bind.1 h
  obtain ⟨os2, hReserved⟩ := reserved_of_runs hReserve hReserveNamed
  obtain ⟨os3, hAdds3, hFilled3⟩ :=
    adds_of_runs_fill (addsContents_enterContents (some g.contains))
    hReserved.ready hReserved.resolves hReserved.root rfl rfl
    (fun x hx => hReserved.not_within hx .root) hFill
  -- What has been added lies within the root, and so within no named mode.
  have hFresh : ∀ x ∈ os3, ∀ e ∈ g.modes.entries, ∀ v, ¬ Within (.named e.1 v) x := by
    intro x hx e _ v hWithin
    rcases hAdds3.fresh x hx with hOld | hNew
    · exact hReserved.not_within hOld _ hWithin
    · cases hNew.eq_of_depth_eq hWithin rfl
  obtain ⟨os4, hAdds4, hFilled4⟩ := adds_of_runs_fillNamed g.modes.entries hAdds3.ready
    (hReserved.resolves.mono hAdds3.addresses)
    (hReserved.namesAt.imp fun _ _ hAt => hAt.mono hAdds3.addresses) (pairwise_names g)
    (fun e he => Dict.get?_eq_some_iff.2 he) hFresh hFillNamed
  have hPrefix := hAdds3.addresses.trans hAdds4.addresses
  refine ⟨os4, hAdds4.ready, fun i hi => ?_, hReserved.root.mono hPrefix,
    fun name rule hRule v hv => ?_⟩
  · by_cases hi3 : os3.length ≤ i
    · exact hAdds4.added i hi3 hi
    · by_cases hi2 : os2.length ≤ i
      · exact hAdds4.kept i (hAdds3.added i hi2 (Nat.lt_of_not_le hi3))
      · by_cases hi1 : 1 ≤ i
        · obtain ⟨places, hPlaces, hId⟩ := hReserved.isNamed i hi1 (Nat.lt_of_not_le hi2)
          exact hFilled4 places hPlaces i hId
        · obtain rfl : i = Machine.root := Nat.lt_one_iff.1 (Nat.lt_of_not_le hi1)
          exact hAdds4.kept _ hFilled3
  · obtain ⟨places, -, -, hIds⟩ :=
      exists_of_forall₂_right hReserved.namesAt (Dict.get?_eq_some_iff.1 hRule)
    obtain ⟨id, -, hId⟩ :=
      exists_of_forall₂_right hIds (List.mem_map_of_mem (List.mem_range.2 hv))
    exact List.mem_of_getElem? (hId.mono hPrefix)

end Builder

end Highlighter
