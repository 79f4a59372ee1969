import Highlighter.Proofs.Text.Lowercase
import Highlighter.Registry

/-! A registry as a catalog. Places among the machines are an affair of the registry: to its users
it is a list of languages under their tags, and a map from aliases to the tags that they belong to.
`Refines` ties the two, each call that changes a registry keeps it, and so it holds after any
calls. -/

namespace Highlighter

open Text

/-- Languages under distinct tags, in the order in which the tags have been registered first, and
the tag that each alias belongs to. -/
structure Catalog where
  languages : List (String × Machine) := []
  owners : Dict String := .empty

namespace Catalog

/-- The tags in order. -/
def tags (c : Catalog) : List String := c.languages.map (·.1)

/-- Puts a language in the place of the one under its tag, or behind all others. -/
def put (tag : String) (m : Machine) : List (String × Machine) → List (String × Machine)
  | [] => [(tag, m)]
  | e :: es => if e.1 = tag then (tag, m) :: es else e :: put tag m es

/-- The tag that a name leads to: the name itself, or else the one that the alias belongs to. -/
def tag? (c : Catalog) (name : String) : Option String :=
  let name := lowercase name
  if name ∈ c.tags then some name else c.owners.get? name

def addAlias (c : Catalog) (name newAlias : String) : Catalog :=
  match c.tag? name with
  | some tag => { c with owners := c.owners.insert (lowercase newAlias) tag }
  | none => c

def addMachine (c : Catalog) (tag : String) (m : Machine) : Catalog :=
  let tag := lowercase tag
  { languages := put tag m c.languages
    owners := m.aliases.foldl
      (fun owners newAlias => owners.insert (lowercase newAlias) tag) c.owners }

end Catalog

/-- A call that changes a registry. The languages that are available everywhere are those at that
time. -/
inductive Call
  | register (tag : String) (g : Grammar)
  | addAlias (name newAlias : String)
  | addPlain (aliases : List String)
  | addGlobals (globals : Globals)

def Registry.call (r : Registry) : Call → Except Error Registry
  | .register tag g => r.register tag g
  | .addAlias name newAlias => .ok (r.addAlias name newAlias)
  | .addPlain aliases => r.addPlain aliases
  | .addGlobals globals => .ok (r.addGlobals globals)

def Catalog.call (c : Catalog) : Call → Except Error Catalog
  | .register tag g => g.compile.map (c.addMachine tag)
  | .addAlias name newAlias => .ok (c.addAlias name newAlias)
  | .addPlain aliases => ({ name := plainTag } : Grammar).compile.map fun m =>
    aliases.foldl (fun c newAlias => c.addAlias plainTag newAlias) (c.addMachine plainTag m)
  | .addGlobals globals =>
    .ok (globals.entries.foldl (fun c entry => c.addMachine entry.1 entry.2) c)

/-- The registry after a call. One that fails leaves it as it is. -/
def Registry.after (r : Registry) (call : Call) : Registry := (r.call call).toOption.getD r

/-- The catalog after a call. One that fails leaves it as it is. -/
def Catalog.after (c : Catalog) (call : Call) : Catalog := (c.call call).toOption.getD c

namespace Catalog

variable {tag t : String} {m : Machine}

theorem lookup_put (es : List (String × Machine)) :
    (put tag m es).lookup t = if t = tag then some m else es.lookup t := by
  induction es with
  | nil => exact Dict.lookup_cons_eq_ite
  | cons e es ih =>
    unfold put
    split
    · next he =>
      rw [Dict.lookup_cons_eq_ite, Dict.lookup_cons_eq_ite, he]
      by_cases ht : t = tag <;> simp [ht]
    · next he =>
      rw [Dict.lookup_cons_eq_ite, Dict.lookup_cons_eq_ite, ih]
      by_cases ht : t = tag
      · simp [ht, Ne.symm he]
      · simp [ht]

theorem map_fst_put (es : List (String × Machine)) : (put tag m es).map (·.1) =
    if tag ∈ es.map (·.1) then es.map (·.1) else es.map (·.1) ++ [tag] := by
  induction es with
  | nil => simp [put]
  | cons e es ih =>
    unfold put
    split
    · next he => simp [he]
    · next he =>
      rw [List.map_cons, ih]
      by_cases hMem : tag ∈ es.map (·.1)
      · simp [hMem]
      · simp [hMem, Ne.symm he]

theorem tags_put (c : Catalog) : ({ c with languages := put tag m c.languages } : Catalog).tags =
    if tag ∈ c.tags then c.tags else c.tags ++ [tag] := map_fst_put c.languages

theorem isSome_lookup_iff (es : List (String × Machine)) :
    (es.lookup t).isSome ↔ t ∈ es.map (·.1) := by
  induction es with
  | nil => simp
  | cons e es ih =>
    rw [Dict.lookup_cons_eq_ite, List.map_cons, List.mem_cons, ← ih]
    by_cases h : t = e.1 <;> simp [h]

end Catalog

/-- A registry is laid out as a catalog says. -/
structure Refines (r : Registry) (c : Catalog) : Prop where
  languages : r.languages = c.tags
  nodup : c.tags.Nodup
  machine : ∀ tag, (r.tags.get? tag).bind (r.machines[·]?) = c.languages.lookup tag
  lt_size : ∀ tag place, r.tags.get? tag = some place → place < r.machines.size
  injective : ∀ tag tag' place, r.tags.get? tag = some place →
    r.tags.get? tag' = some place → tag = tag'
  aliases : ∀ name, r.aliases.get? name = (c.owners.get? name).bind r.tags.get?
  owner_mem : ∀ name tag, c.owners.get? name = some tag → tag ∈ c.tags

namespace Refines

variable {r : Registry} {c : Catalog}

theorem empty : Refines .empty {} where
  languages := rfl
  nodup := .nil
  machine _ := rfl
  lt_size _ _ h := nomatch h
  injective _ _ _ h := nomatch h
  aliases _ := rfl
  owner_mem _ _ h := nomatch h

theorem isSome_tags_iff (h : Refines r c) (tag : String) : (r.tags.get? tag).isSome ↔
    tag ∈ c.tags := by
  rw [Catalog.tags, ← Catalog.isSome_lookup_iff, ← h.machine]
  cases hPlace : r.tags.get? tag with
  | none => simp
  | some place => simp [h.lt_size tag place hPlace]

theorem place?_eq (h : Refines r c) (name : String) :
    r.place? name = (c.tag? name).bind r.tags.get? := by
  simp only [Registry.place?, Catalog.tag?]
  split
  · next hMem =>
    obtain ⟨place, hPlace⟩ := Option.isSome_iff_exists.1 ((h.isSome_tags_iff _).2 hMem)
    simp [hPlace]
  · next hMem =>
    have hNone : r.tags.get? (lowercase name) = none := by
      rw [← Option.not_isSome_iff_eq_none, h.isSome_tags_iff]
      exact hMem
    rw [hNone, Option.none_or, h.aliases]

theorem tag?_mem (h : Refines r c) {name tag : String} (hTag : c.tag? name = some tag) :
    tag ∈ c.tags := by
  simp only [Catalog.tag?] at hTag
  split at hTag
  · next hMem =>
    cases hTag
    exact hMem
  · exact h.owner_mem _ _ hTag

theorem find?_eq (h : Refines r c) (name : String) :
    r.find? name = (c.languages.lookup (lowercase name)).or
      ((c.owners.get? (lowercase name)).bind (c.languages.lookup ·)) := by
  rw [Registry.find?, h.place?_eq, Option.bind_assoc]
  simp only [Catalog.tag?]
  split
  · next hMem =>
    obtain ⟨m, hm⟩ := Option.isSome_iff_exists.1 ((Catalog.isSome_lookup_iff _).2 hMem)
    show (r.tags.get? (lowercase name)).bind _ = _
    rw [h.machine, hm, Option.some_or]
  · next hMem =>
    have hNone : c.languages.lookup (lowercase name) = none := by
      rw [← Option.not_isSome_iff_eq_none, Catalog.isSome_lookup_iff]
      exact hMem
    rw [hNone, Option.none_or]
    exact congrArg _ (funext h.machine)

theorem own (h : Refines r c) {tag : String} {place : Nat} (hPlace : r.tags.get? tag = some place)
    (name : String) :
    Refines { r with aliases := r.aliases.insert name place }
      { c with owners := c.owners.insert name tag } where
  languages := h.languages
  nodup := h.nodup
  machine := h.machine
  lt_size := h.lt_size
  injective := h.injective
  aliases other := by
    rw [Dict.get?_insert, Dict.get?_insert, h.aliases]
    by_cases hName : other = name
    · simp [hName, hPlace]
    · simp [hName]
  owner_mem other owner hOwner := by
    rw [Dict.get?_insert] at hOwner
    split at hOwner
    · cases hOwner
      exact (h.isSome_tags_iff tag).1 (Option.isSome_iff_exists.2 ⟨place, hPlace⟩)
    · exact h.owner_mem other owner hOwner

theorem addAlias (h : Refines r c) (name newAlias : String) :
    Refines (r.addAlias name newAlias) (c.addAlias name newAlias) := by
  have hPlace := h.place?_eq name
  unfold Registry.addAlias Catalog.addAlias
  cases hTag : c.tag? name with
  | none =>
    rw [hTag] at hPlace
    rw [hPlace]
    exact h
  | some tag =>
    obtain ⟨place, hTagPlace⟩ :=
      Option.isSome_iff_exists.1 ((h.isSome_tags_iff tag).2 (h.tag?_mem hTag))
    rw [hTag, Option.bind_some, hTagPlace] at hPlace
    rw [hPlace]
    exact h.own hTagPlace _

theorem addAliases (h : Refines r c) (name : String) (aliases : List String) :
    Refines (aliases.foldl (fun r newAlias => r.addAlias name newAlias) r)
      (aliases.foldl (fun c newAlias => c.addAlias name newAlias) c) := by
  induction aliases generalizing r c with
  | nil => exact h
  | cons newAlias aliases ih => exact ih (h.addAlias name newAlias)

theorem replace (h : Refines r c) {tag : String} {place : Nat}
    (hPlace : r.tags.get? tag = some place) (m : Machine) :
    Refines { r with machines := r.machines.setIfInBounds place m }
      { c with languages := Catalog.put tag m c.languages } := by
  have hMem : tag ∈ c.tags :=
    (h.isSome_tags_iff tag).1 (Option.isSome_iff_exists.2 ⟨place, hPlace⟩)
  have hTags : ({ c with languages := Catalog.put tag m c.languages } : Catalog).tags = c.tags := by
    rw [Catalog.tags_put, if_pos hMem]
  refine
    { languages := h.languages.trans hTags.symm
      nodup := hTags.symm ▸ h.nodup
      machine := fun t => ?_
      lt_size := fun t p ht => ?_
      injective := h.injective
      aliases := h.aliases
      owner_mem := fun name t ht => hTags.symm ▸ h.owner_mem name t ht }
  · show (r.tags.get? t).bind ((r.machines.setIfInBounds place m)[·]?) = _
    rw [Catalog.lookup_put]
    split
    · next ht =>
      rw [ht, hPlace, Option.bind_some]
      exact Array.getElem?_setIfInBounds_self_of_lt (h.lt_size tag place hPlace)
    · next ht =>
      rw [← h.machine]
      cases hOther : r.tags.get? t with
      | none => rfl
      | some p =>
        have hNe : place ≠ p := fun hEq => ht (h.injective t tag p hOther (hEq ▸ hPlace))
        exact Array.getElem?_setIfInBounds_ne hNe
  · rw [Array.size_setIfInBounds]
    exact h.lt_size t p ht

theorem append (h : Refines r c) {tag : String} (hNew : r.tags.get? tag = none) (m : Machine) :
    Refines { r with
        machines := r.machines.push m, tags := r.tags.insert tag r.machines.size
        languages := r.languages ++ [tag] }
      { c with languages := Catalog.put tag m c.languages } := by
  have hMem : tag ∉ c.tags := by
    rw [← h.isSome_tags_iff, hNew]
    exact Bool.false_ne_true
  have hTags : ({ c with languages := Catalog.put tag m c.languages } : Catalog).tags =
      c.tags ++ [tag] := by
    rw [Catalog.tags_put, if_neg hMem]
  -- A tag leads to the new slot only if it is the new tag.
  have hLt : ∀ {t p}, (r.tags.insert tag r.machines.size).get? t = some p →
      t = tag ∧ p = r.machines.size ∨ r.tags.get? t = some p ∧ p < r.machines.size := by
    intro t p ht
    rw [Dict.get?_insert] at ht
    split at ht
    · next hEq => exact .inl ⟨hEq, (Option.some.inj ht).symm⟩
    · exact .inr ⟨ht, h.lt_size t p ht⟩
  refine
    { languages := (congrArg (· ++ [tag]) h.languages).trans hTags.symm
      nodup := ?_
      machine := fun t => ?_
      lt_size := fun t p ht => ?_
      injective := fun t t' p ht ht' => ?_
      aliases := fun name => ?_
      owner_mem := fun name t ht => ?_ }
  · rw [hTags, List.nodup_append]
    refine ⟨h.nodup, List.pairwise_singleton _ tag, fun a ha b hb hEq => ?_⟩
    rw [List.mem_singleton.1 hb] at hEq
    exact hMem (hEq ▸ ha)
  · show ((r.tags.insert tag r.machines.size).get? t).bind ((r.machines.push m)[·]?) = _
    rw [Catalog.lookup_put, Dict.get?_insert]
    split
    · rw [Option.bind_some, Array.getElem?_push_size]
    · rw [← h.machine]
      cases hOther : r.tags.get? t with
      | none => rfl
      | some p =>
        have hp := h.lt_size t p hOther
        rw [Option.bind_some, Option.bind_some, Array.getElem?_push_lt hp,
          Array.getElem?_eq_getElem hp]
  · rw [Array.size_push]
    rcases hLt ht with ⟨-, rfl⟩ | ⟨-, hp⟩
    · exact Nat.lt_succ_self _
    · exact Nat.lt_succ_of_lt hp
  · rcases hLt ht with ⟨rfl, hp⟩ | ⟨ht, hp⟩
      <;> rcases hLt ht' with ⟨rfl, hp'⟩ | ⟨ht', hp'⟩
    · rfl
    · omega
    · omega
    · exact h.injective t t' p ht ht'
  · show r.aliases.get? name = (c.owners.get? name).bind (r.tags.insert tag r.machines.size).get?
    rw [h.aliases]
    cases hOwner : c.owners.get? name with
    | none => rfl
    | some owner =>
      have hNe : owner ≠ tag := fun hEq => hMem (hEq ▸ h.owner_mem name owner hOwner)
      rw [Option.bind_some, Option.bind_some, Dict.get?_insert, if_neg hNe]
  · rw [hTags]
    exact List.mem_append_left _ (h.owner_mem name t ht)

/-- Aliases of a tag in lower case come to belong to just this tag. -/
theorem addAliases_of_mem {tag : String} (hLower : lowercase tag = tag) (hMem : tag ∈ c.tags)
    (aliases : List String) :
    aliases.foldl (fun c newAlias => c.addAlias tag newAlias) c = { c with
      owners := aliases.foldl
          (fun owners newAlias => owners.insert (lowercase newAlias) tag) c.owners } := by
  induction aliases generalizing c with
  | nil => rfl
  | cons newAlias aliases ih =>
    have hTag : c.tag? tag = some tag := by
      simp only [Catalog.tag?, hLower]
      exact if_pos hMem
    have hAdd : c.addAlias tag newAlias =
        { c with owners := c.owners.insert (lowercase newAlias) tag } := by
      rw [Catalog.addAlias, hTag]
    rw [List.foldl_cons, hAdd]
    exact ih hMem

theorem addMachine (h : Refines r c) (tag : String) (m : Machine) :
    Refines (r.addMachine tag m) (c.addMachine tag m) := by
  have hPut :
      ∃ r', Refines r' { c with languages := Catalog.put (lowercase tag) m c.languages } ∧
        r.addMachine tag m =
          m.aliases.foldl (fun r newAlias => r.addAlias (lowercase tag) newAlias) r' := by
    cases hPlace : r.tags.get? (lowercase tag) with
    | some place =>
      have hMem : lowercase tag ∈ c.tags :=
        (h.isSome_tags_iff _).1 (Option.isSome_iff_exists.2 ⟨place, hPlace⟩)
      refine ⟨_, h.replace hPlace m, ?_⟩
      simp [Registry.addMachine, hPlace, h.languages, hMem]
    | none =>
      have hMem : lowercase tag ∉ c.tags := by
        rw [← h.isSome_tags_iff, hPlace]
        exact Bool.false_ne_true
      refine ⟨_, h.append hPlace m, ?_⟩
      simp [Registry.addMachine, hPlace, h.languages, hMem]
  obtain ⟨r', hRefines, hEq⟩ := hPut
  have hMem : lowercase tag ∈
      ({ c with languages := Catalog.put (lowercase tag) m c.languages } : Catalog).tags := by
    rw [Catalog.tags_put]
    split
    · next hMem => exact hMem
    · exact List.mem_append_right _ List.mem_cons_self
  have hAliases := hRefines.addAliases (lowercase tag) m.aliases
  rw [addAliases_of_mem (lowercase_lowercase tag) hMem] at hAliases
  rw [hEq]
  exact hAliases

theorem addMachines (h : Refines r c) (entries : List (String × Machine)) :
    Refines (entries.foldl (fun r entry => r.addMachine entry.1 entry.2) r)
      (entries.foldl (fun c entry => c.addMachine entry.1 entry.2) c) := by
  induction entries generalizing r c with
  | nil => exact h
  | cons entry entries ih => exact ih (h.addMachine entry.1 entry.2)

theorem call (h : Refines r c) (call : Call) :
    (∃ e, r.call call = .error e ∧ c.call call = .error e) ∨
      ∃ r' c', r.call call = .ok r' ∧ c.call call = .ok c' ∧ Refines r' c' := by
  cases call with
  | register tag g =>
    simp only [Registry.call, Catalog.call, Registry.register]
    cases g.compile with
    | error e => exact .inl ⟨e, rfl, rfl⟩
    | ok m => exact .inr ⟨_, _, rfl, rfl, h.addMachine tag m⟩
  | addAlias name newAlias => exact .inr ⟨_, _, rfl, rfl, h.addAlias name newAlias⟩
  | addPlain aliases =>
    simp only [Registry.call, Catalog.call, Registry.addPlain, Registry.register]
    cases ({ name := plainTag } : Grammar).compile with
    | error e => exact .inl ⟨e, rfl, rfl⟩
    | ok m => exact .inr ⟨_, _, rfl, rfl, (h.addMachine plainTag m).addAliases plainTag aliases⟩
  | addGlobals globals => exact .inr ⟨_, _, rfl, rfl, h.addMachines globals.entries⟩

theorem after (h : Refines r c) (call : Call) : Refines (r.after call) (c.after call) := by
  unfold Registry.after Catalog.after
  rcases h.call call with ⟨e, hr, hc⟩ | ⟨r', c', hr, hc, hRefines⟩
  · rw [hr, hc]
    exact h
  · rw [hr, hc]
    exact hRefines

theorem run (calls : List Call) :
    Refines (calls.foldl Registry.after .empty) (calls.foldl Catalog.after {}) := by
  have hRun : ∀ {r c}, Refines r c →
      Refines (calls.foldl Registry.after r) (calls.foldl Catalog.after c) := by
    induction calls with
    | nil => exact id
    | cons call calls ih => exact fun h => ih (h.after call)
  exact hRun .empty

end Refines

/-- After any calls a registry answers as the catalog does that the same calls lead to. A name
leads to the language under the tag, or else to the latest one under the tag that the alias
belongs to; the languages are listed in the order of their first registration; tags and aliases
lead to slots that there are, and no two tags to the same one; and the next call fails just
where it does on the catalog. -/
theorem registry_refines_catalog (calls : List Call) :
    let r := calls.foldl Registry.after .empty
    let c := calls.foldl Catalog.after {}
    (∀ name, r.find? name = (c.languages.lookup (lowercase name)).or
      ((c.owners.get? (lowercase name)).bind (c.languages.lookup ·))) ∧
    r.languages = c.languages.map (·.1) ∧ r.languages.Nodup ∧
    (∀ name place, r.tags.get? name = some place ∨ r.aliases.get? name = some place →
      place < r.machines.size) ∧
    (∀ tag tag' place, r.tags.get? tag = some place → r.tags.get? tag' = some place →
      tag = tag') ∧
    ∀ call e, r.call call = .error e ↔ c.call call = .error e := by
  have h := Refines.run calls
  refine ⟨h.find?_eq, h.languages, h.languages ▸ h.nodup, fun name place hPlace => ?_,
    h.injective, fun call e => ?_⟩
  · rcases hPlace with hTag | hAlias
    · exact h.lt_size name place hTag
    · rw [h.aliases] at hAlias
      obtain ⟨tag, -, hTag⟩ := Option.bind_eq_some_iff.1 hAlias
      exact h.lt_size tag place hTag
  · rcases h.call call with ⟨e', hr, hc⟩ | ⟨r', c', hr, hc, -⟩
    · simp [hr, hc]
    · rw [hr, hc]
      exact ⟨nofun, nofun⟩

end Highlighter
