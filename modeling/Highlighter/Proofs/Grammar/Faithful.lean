import Highlighter.Proofs.Grammar.Entering

/-! A machine that has been compiled is the image of its grammar. The place of an address is where
it stands in the list of addresses beside the table of modes. -/

namespace Highlighter

open Builder

theorem StandsAt.idxOf_eq {os : List Address} (hNodup : os.Nodup) {i : Nat} {a : Address}
    (h : StandsAt os i a) : os.idxOf a = i := by
  obtain ⟨hLt, rfl⟩ := List.getElem?_eq_some_iff.1 h
  exact List.Nodup.idxOf_getElem hNodup i hLt

theorem eq_map_idxOf {os : List Address} (hNodup : os.Nodup) {ids : List Nat}
    {addresses : List Address} (h : List.Forall₂ (StandsAt os) ids addresses) :
    ids = addresses.map os.idxOf := by
  induction h with
  | nil => rfl
  | cons hFirst _ ih => rw [List.map_cons, hFirst.idxOf_eq hNodup, ← ih]

theorem Grammar.mem_addressesFrom {g : Grammar} {a : Address} {rule inner : ModeRule}
    {entry variant : Nat} (h : rule.inner? entry variant = some inner) :
    .inner a entry variant ∈ g.addressesFrom a 0 rule.entries := by
  unfold ModeRule.inner? at h
  split at h
  · next written hEntry =>
    have hLt := (List.getElem?_eq_some_iff.1 h).1
    rw [ModeRule.length_expanded] at hLt
    refine List.mem_flatMap.2
      ⟨(.inline written, entry), List.mem_zipIdx_iff_getElem?.2 hEntry, ?_⟩
    exact List.mem_map_of_mem (List.mem_range.2 hLt)
  · cases h

namespace Builder.Complete

variable {g : Grammar} {b : Builder} {os : List Address}

/-- The mode at an address is among those in the table: if it lies within another one, then the list
of that one gives its place. -/
theorem exists_fills (h : Complete g b os) {a : Address} {rule : ModeRule}
    (hRule : g.modeAt? a = some rule) : ∃ mode, Fills g b os (os.idxOf a) a rule mode := by
  have hStands : ∃ i, StandsAt os i a := by
    induction a generalizing rule with
    | root => exact ⟨_, h.root⟩
    | named name variant =>
      obtain ⟨mode, hMode, hVariant⟩ := Option.bind_eq_some_iff.1 hRule
      have hLt := (List.getElem?_eq_some_iff.1 hVariant).1
      rw [ModeRule.length_expanded] at hLt
      exact List.mem_iff_getElem?.1 (h.named name mode hMode variant hLt)
    | inner around entry variant ih =>
      obtain ⟨outer, hOuter, hInner⟩ := Option.bind_eq_some_iff.1 hRule
      obtain ⟨i, hi⟩ := ih hOuter
      obtain ⟨a, rule, mode, hFills⟩ := h.filled i (List.getElem?_eq_some_iff.1 hi).1
      cases Option.some.inj (hi.symm.trans hFills.stands)
      cases Option.some.inj (hOuter.symm.trans hFills.isRule)
      obtain ⟨id, -, hId⟩ :=
        exists_of_forall₂_right hFills.contains (Grammar.mem_addressesFrom hInner)
      exact ⟨id, hId⟩
  obtain ⟨i, hi⟩ := hStands
  rw [hi.idxOf_eq h.ready.nodup]
  obtain ⟨a, rule, mode, hFills⟩ := h.filled i (List.getElem?_eq_some_iff.1 hi).1
  cases Option.some.inj (hi.symm.trans hFills.stands)
  cases Option.some.inj (hRule.symm.trans hFills.isRule)
  exact ⟨mode, hFills⟩

theorem bijOn (h : Complete g b os) :
    Set.BijOn os.idxOf {a | (g.modeAt? a).isSome} (Set.Iio b.modes.size) := by
  have hMem : ∀ {a}, (g.modeAt? a).isSome → a ∈ os := by
    intro a ha
    obtain ⟨rule, hRule⟩ := Option.isSome_iff_exists.1 ha
    obtain ⟨mode, hFills⟩ := h.exists_fills hRule
    exact List.mem_of_getElem? hFills.stands
  refine ⟨fun a ha => ?_, fun a ha a' _ hEq => ?_, fun i hi => ?_⟩
  · rw [Set.mem_Iio, ← h.ready.length]
    exact List.idxOf_lt_length_of_mem (hMem ha)
  · exact (List.idxOf_inj (hMem ha)).1 hEq
  · rw [Set.mem_Iio, ← h.ready.length] at hi
    obtain ⟨a, rule, mode, hFills⟩ := h.filled i hi
    refine ⟨a, ?_, hFills.stands.idxOf_eq h.ready.nodup⟩
    show (g.modeAt? a).isSome = true
    rw [hFills.isRule]
    rfl

theorem isImage (h : Complete g b os) :
    Machine.IsImage ⟨g.name, g.aliases, g.caseInsensitive, b.regexes, b.keywordSets, b.modes⟩ g
      os.idxOf := by
  refine ⟨rfl, rfl, rfl, h.bijOn, h.root.idxOf_eq h.ready.nodup, fun a rule hRule => ?_,
    fun a rule hRule => ?_⟩
  · obtain ⟨mode, hFills⟩ := h.exists_fills hRule
    exact ⟨mode, hFills.isMode, hFills.id, hFills.depicts,
      eq_map_idxOf h.ready.nodup hFills.contains⟩
  · obtain ⟨mode, hFills⟩ := h.exists_fills hRule
    exact hFills.known

theorem exists_fills_of_getElem? (h : Complete g b os) {i : Nat} {mode : Mode}
    (hMode : b.modes[i]? = some mode) : ∃ a rule, Fills g b os i a rule mode := by
  have hLt := (Array.getElem?_eq_some_iff.1 hMode).1
  rw [← h.ready.length] at hLt
  obtain ⟨a, rule, mode', hFills⟩ := h.filled i hLt
  cases Option.some.inj (hMode.symm.trans hFills.isMode)
  exact ⟨a, rule, hFills⟩

theorem exists_fills_of_mem (h : Complete g b os) {mode : Mode} (hMode : mode ∈ b.modes) :
    ∃ i a rule, Fills g b os i a rule mode := by
  obtain ⟨i, hMode⟩ := Array.mem_iff_getElem?.1 hMode
  exact ⟨i, h.exists_fills_of_getElem? hMode⟩

theorem eq_root_iff (h : Complete g b os) {i : Nat} {a : Address} {rule : ModeRule} {mode : Mode}
    (hFills : Fills g b os i a rule mode) : a = .root ↔ i = Machine.root := by
  constructor
  · rintro rfl
    rw [← hFills.stands.idxOf_eq h.ready.nodup, h.root.idxOf_eq h.ready.nodup]
  · rintro rfl
    exact Option.some.inj (hFills.stands.symm.trans h.root)

/-- Only a mode that closes with the one around it has nothing to close on, apart from the root. -/
theorem closes_of_fills (h : Complete g b os) {i : Nat} {a : Address} {rule : ModeRule}
    {mode : Mode} (hFills : Fills g b os i a rule mode) :
    if i = Machine.root then mode.closing = none
    else mode.closing.isSome ∨ mode.closesWithParent = true := by
  have hClosing := hFills.depicts.closing.isSome_eq
  split
  · next hi =>
    rw [decide_eq_true ((h.eq_root_iff hFills).2 hi), if_pos rfl] at hClosing
    cases hNone : mode.closing with
    | none => rfl
    | some place =>
      rw [hNone] at hClosing
      cases hClosing
  · next hi =>
    rw [decide_eq_false (mt (h.eq_root_iff hFills).1 hi), if_neg Bool.false_ne_true,
      Option.isSome_map] at hClosing
    rw [hClosing, hFills.depicts.closesWithParent]
    cases hWith : rule.settings.closesWithParent.getD false with
    | true => exact .inr rfl
    | false => exact .inl (by simp [ModeSettings.closingPattern, hWith])

theorem wellFormed (h : Complete g b os) :
    Machine.WellFormed
      ⟨g.name, g.aliases, g.caseInsensitive, b.regexes, b.keywordSets, b.modes⟩ := by
  refine
    { id := fun i mode hMode => ?_
      opens := fun i mode hMode => ?_
      closes := fun i mode hMode => ?_
      contains := fun mode hMode id hId => ?_
      regexes := fun mode hMode place hPlace => ?_
      keywords := fun mode hMode place hPlace => ?_ }
  · obtain ⟨a, rule, hFills⟩ := h.exists_fills_of_getElem? hMode
    exact hFills.id
  · obtain ⟨a, rule, hFills⟩ := h.exists_fills_of_getElem? hMode
    rw [hFills.depicts.opening.isSome_eq, Ne, ← h.eq_root_iff hFills]
    by_cases hAddress : a = .root
    · simp [hAddress]
    · simp [hAddress]
  · obtain ⟨a, rule, hFills⟩ := h.exists_fills_of_getElem? hMode
    exact h.closes_of_fills hFills
  · obtain ⟨i, a, rule, hFills⟩ := h.exists_fills_of_mem hMode
    have hFlipped : List.Forall₂ (fun x id => StandsAt os id x) _ _ := hFills.contains.flip
    obtain ⟨x, -, hStands⟩ := exists_of_forall₂_right hFlipped hId
    show id < b.modes.size
    rw [← h.ready.length]
    exact (List.getElem?_eq_some_iff.1 hStands).1
  · obtain ⟨i, a, rule, hFills⟩ := h.exists_fills_of_mem hMode
    rcases hPlace with hPlace | hPlace | hPlace
    · exact hFills.depicts.opening.lt_size place hPlace
    · exact hFills.depicts.closing.lt_size place hPlace
    · exact hFills.depicts.illegal.lt_size place hPlace
  · obtain ⟨i, a, rule, hFills⟩ := h.exists_fills_of_mem hMode
    exact hFills.depicts.keywords.lt_size place hPlace

end Builder.Complete

namespace Grammar

theorem complete_of_assemble_eq_ok {g : Grammar} {m : Machine} (h : g.assemble = .ok m) :
    ∃ b os, Builder.Complete g b os ∧
      m = ⟨g.name, g.aliases, g.caseInsensitive, b.regexes, b.keywordSets, b.modes⟩ := by
  obtain ⟨b, hRuns, rfl⟩ := assemble_eq_ok_iff.1 h
  obtain ⟨os, hComplete⟩ := Builder.complete_of_runs_enterGrammar hRuns
  exact ⟨b, os, hComplete, rfl⟩

theorem exists_isImage {g : Grammar} {m : Machine} (h : g.compile = .ok m) :
    ∃ place, m.IsImage g place := by
  obtain ⟨b, os, hComplete, rfl⟩ := complete_of_assemble_eq_ok (assemble_of_compile_eq_ok h)
  exact ⟨os.idxOf, hComplete.isImage⟩

theorem wellFormed_of_compile_eq_ok {g : Grammar} {m : Machine} (h : g.compile = .ok m) :
    m.WellFormed := by
  obtain ⟨b, os, hComplete, rfl⟩ := complete_of_assemble_eq_ok (assemble_of_compile_eq_ok h)
  exact hComplete.wellFormed

/-- A compiled grammar is faithful: its modes are those of the grammar, one for each address. -/
theorem isImage_of_compile_eq_ok {g : Grammar} {m : Machine} (h : g.compile = .ok m) :
    ∃ place, m.IsImage g place ∧ m.WellFormed := by
  obtain ⟨place, hImage⟩ := exists_isImage h
  exact ⟨place, hImage, wellFormed_of_compile_eq_ok h⟩

/-- Arrays and records within one another, where a record has two forms. -/
def collections : Grammar where
  name := "collections"
  contains := [.named "array", .named "record",
    .inline (.ofSettings { opening := some "#", closesWithParent := some true })]
  modes := .ofList [
    ("array", .containing { opening := some "\\[", closing := some "\\]" }
      [.named "record", .named "self",
        .inline (.mk { category := some .number, closing := some "," } none
          [.ofSettings { opening := some "[0-9]+" }, .ofSettings { opening := some "-" }])]),
    ("record", .mk { category := some .params } (some [.named "array"])
      [.ofSettings { opening := some "\x7b", closing := some "\x7d" },
        .ofSettings { opening := some "<", closing := some ">" }])]

theorem eq_ok_get {ε α : Type} {x : Except ε α} (h : x.toOption.isSome) :
    x = .ok (x.toOption.get h) := by
  cases x with
  | error e => cases h
  | ok a => rfl

theorem collections.isSome_compile : collections.compile.toOption.isSome :=
  Grammar.isSome_compile (by decide +kernel)

def collections.machine : Machine := collections.compile.toOption.get isSome_compile

theorem isImage_collections : collections.machine.modes.size = 7 ∧
    ∃ place, collections.machine.IsImage collections place ∧ collections.machine.WellFormed :=
  ⟨by decide +kernel, isImage_of_compile_eq_ok (eq_ok_get collections.isSome_compile)⟩

end Grammar

end Highlighter
