import Highlighter.Proofs.Grammar.Faithful
import Highlighter.Proofs.Registry.Catalog
import Highlighter.Proofs.Text.ByteOrder

/-! The languages that are available everywhere, as they are copied into a registry. They are kept
in no order, so a listing of them may come in any; since they are sorted by their tags before they
are added, neither that nor the order of the calls that made them available plays a part. Of several
that claim one alias, the last one by its tag is added last and gets it. -/

namespace Highlighter

open Text

namespace Dict

variable {α : Type}

theorem nodup_entries (d : Dict α) : d.entries.Nodup :=
  List.Pairwise.imp
    (fun {a b} (hLt : a.1 < b.1) (hEq : a = b) => String.lt_irrefl b.1 (hEq ▸ hLt)) d.sorted

theorem ext_get? {d d' : Dict α} (h : ∀ key, d.get? key = d'.get? key) : d = d' := by
  have hPerm : d.entries.Perm d'.entries := by
    refine (List.perm_ext_iff_of_nodup d.nodup_entries d'.nodup_entries).2 fun entry => ?_
    rw [← get?_eq_some_iff, ← get?_eq_some_iff, h]
  have hEntries : d.entries = d'.entries :=
    hPerm.eq_of_pairwise
      (fun a b _ _ hLt hGt => absurd hGt (String.lt_asymm hLt)) d.sorted d'.sorted
  cases d
  cases d'
  cases hEntries
  rfl

/-- However the entries are listed, they are in order once they have been sorted by
the bytes of their keys. -/
theorem mergeSort_listing (d : Dict α) {listing : List (String × α)}
    (h : listing.Perm d.entries) :
    listing.mergeSort (fun a b => decide (bytes a.1 ≤ bytes b.1)) = d.entries := by
  let le (a b : String × α) : Bool := decide (bytes a.1 ≤ bytes b.1)
  have hLe : ∀ a b, le a b = true ↔ a.1 ≤ b.1 := fun a b => by
    rw [decide_eq_true_iff, bytes_le_iff]
  have hSorted : (listing.mergeSort le).Pairwise fun a b => le a b = true := by
    refine List.pairwise_mergeSort (fun a b c hab hbc => ?_) (fun a b => ?_) listing
    · rw [hLe] at *
      exact String.le_trans hab hbc
    · rw [Bool.or_eq_true, hLe, hLe]
      exact String.le_total a.1 b.1
  have hEntries : d.entries.Pairwise fun a b => le a b = true :=
    d.sorted.imp fun hLt => (hLe _ _).2 (Std.le_of_lt hLt)
  have hPerm : (listing.mergeSort le).Perm d.entries := (listing.mergeSort_perm le).trans h
  refine hPerm.eq_of_pairwise (fun a b ha hb hab hba => ?_) hSorted hEntries
  -- Entries of one key are the same.
  obtain ⟨key, value⟩ := a
  obtain ⟨key', value'⟩ := b
  obtain rfl : key = key' := String.le_antisymm ((hLe _ _).1 hab) ((hLe _ _).1 hba)
  have hValue := get?_eq_some_iff.2 (hPerm.mem_iff.1 ha)
  rw [get?_eq_some_iff.2 hb] at hValue
  rw [Option.some.inj hValue]

end Dict

/-- A machine claims a name in lower case as an alias. -/
def Machine.claims (m : Machine) (name : String) : Bool :=
  m.aliases.any fun newAlias => lowercase newAlias == name

namespace Globals

/-- Makes grammars available everywhere one after another, each under a tag. -/
def registerAll (calls : List (String × Grammar)) : Except Error Globals :=
  calls.foldlM (fun globals call => Globals.register globals call.1 call.2) .empty

/-- The last grammar among some calls that is made available under a tag in lower case. -/
def lastRegistered? (calls : List (String × Grammar)) (tag : String) : Option Grammar :=
  (calls.reverse.find? fun call => lowercase call.1 == tag).map (·.2)

theorem lastRegistered?_cons (call : String × Grammar) (calls : List (String × Grammar))
    (tag : String) :
    lastRegistered? (call :: calls) tag =
      (lastRegistered? calls tag).or (if tag = lowercase call.1 then some call.2 else none) := by
  rw [lastRegistered?, List.reverse_cons, List.find?_append, Option.map_or, lastRegistered?]
  congr 1
  by_cases hTag : tag = lowercase call.1
  · simp [hTag]
  · simp [hTag, Ne.symm hTag]

theorem exists_of_lastRegistered? {calls : List (String × Grammar)} {tag : String} {g : Grammar}
    (h : lastRegistered? calls tag = some g) :
    ∃ call ∈ calls, lowercase call.1 = tag ∧ call.2 = g := by
  obtain ⟨call, hFind, rfl⟩ := Option.map_eq_some_iff.1 h
  have hTag : lowercase call.1 = tag := by simpa using List.find?_some hFind
  exact ⟨call, List.mem_reverse.1 (List.mem_of_find?_eq_some hFind), hTag, rfl⟩

theorem exists_foldlM_register {calls : List (String × Grammar)}
    (hCompile : ∀ call ∈ calls, ∃ m, call.2.compile = .ok m) (start : Globals) :
    ∃ globals : Globals, calls.foldlM
        (fun globals call => Globals.register globals call.1 call.2) start = .ok globals ∧
      ∀ tag, globals.get? tag =
        ((lastRegistered? calls tag).bind (·.compile.toOption)).or (start.get? tag) := by
  induction calls generalizing start with
  | nil => exact ⟨start, rfl, fun tag => rfl⟩
  | cons call calls ih =>
    obtain ⟨⟨m, hm⟩, hRest⟩ := List.forall_mem_cons.1 hCompile
    have hRegister :
        Globals.register start call.1 call.2 = .ok (start.insert (lowercase call.1) m) := by
      rw [register, hm]
      rfl
    obtain ⟨globals, hGlobals, hGet⟩ := ih hRest (start.insert (lowercase call.1) m)
    refine ⟨globals, ?_, fun tag => ?_⟩
    · rw [List.foldlM_cons, hRegister]
      exact hGlobals
    · rw [hGet, Dict.get?_insert, lastRegistered?_cons]
      cases hLast : lastRegistered? calls tag with
      | none =>
        by_cases hTag : tag = lowercase call.1
        · simp [hTag, hm, Except.toOption]
        · simp [hTag]
      | some g =>
        obtain ⟨later, hLater, -, rfl⟩ := exists_of_lastRegistered? hLast
        obtain ⟨m', hm'⟩ := hRest later hLater
        simp [hm', Except.toOption]

theorem exists_registerAll {calls : List (String × Grammar)}
    (hCompile : ∀ call ∈ calls, ∃ m, call.2.compile = .ok m) :
    ∃ globals : Globals, registerAll calls = .ok globals ∧
      ∀ tag, globals.get? tag = (lastRegistered? calls tag).bind (·.compile.toOption) := by
  obtain ⟨globals, hGlobals, hGet⟩ := exists_foldlM_register hCompile .empty
  exact ⟨globals, hGlobals, fun tag => (hGet tag).trans (Option.or_none)⟩

theorem lowercase_of_mem_keys {calls : List (String × Grammar)} {globals : Globals}
    (hGet : ∀ tag, globals.get? tag = (lastRegistered? calls tag).bind (·.compile.toOption))
    {entry : String × Machine} (h : entry ∈ globals.entries) : lowercase entry.1 = entry.1 := by
  have hEntry := hGet entry.1
  rw [Dict.get?_eq_some_iff.2 h] at hEntry
  obtain ⟨g, hLast, -⟩ := Option.bind_eq_some_iff.1 hEntry.symm
  obtain ⟨call, -, hTag, -⟩ := exists_of_lastRegistered? hLast
  rw [← hTag, lowercase_lowercase]

end Globals

namespace Catalog

variable {entries : List (String × Machine)}
  (hLower : ∀ entry ∈ entries, lowercase entry.1 = entry.1)

theorem get?_foldl_insert (aliases : List String) (owners : Dict String) (tag name : String) :
    (aliases.foldl (fun owners newAlias => owners.insert (lowercase newAlias) tag) owners).get?
        name =
      if aliases.any (fun newAlias => lowercase newAlias == name) then some tag
        else owners.get? name := by
  induction aliases generalizing owners with
  | nil => rfl
  | cons newAlias aliases ih =>
    rw [List.foldl_cons, ih, Dict.get?_insert, List.any_cons]
    by_cases hName : name = lowercase newAlias
    · simp [hName]
    · simp [hName, Ne.symm hName]

include hLower

/-- Under the tag of an entry there is its machine, and all others stay as they are. -/
theorem lookup_addMachines (hDistinct : entries.Pairwise fun a b => a.1 < b.1) (c : Catalog)
    (tag : String) :
    (entries.foldl (fun c entry => c.addMachine entry.1 entry.2) c).languages.lookup tag =
      (entries.lookup tag).or (c.languages.lookup tag) := by
  induction entries generalizing c with
  | nil => rfl
  | cons entry entries ih =>
    obtain ⟨hFirst, hRest⟩ := List.forall_mem_cons.1 hLower
    obtain ⟨hBefore, hDistinct⟩ := List.pairwise_cons.1 hDistinct
    have hPut : (c.addMachine entry.1 entry.2).languages = put entry.1 entry.2 c.languages := by
      rw [addMachine, hFirst]
    rw [List.foldl_cons, ih hRest hDistinct, hPut, lookup_put, Dict.lookup_cons_eq_ite]
    by_cases hTag : tag = entry.1
    · have hNone : entries.lookup tag = none := by
        refine List.lookup_eq_none_iff.2 fun other hOther => bne_iff_ne.2 fun hEq => ?_
        have hLt := hBefore other hOther
        rw [← hTag, ← hEq] at hLt
        exact String.lt_irrefl tag hLt
      rw [hNone, if_pos hTag, if_pos hTag]
      rfl
    · rw [if_neg hTag, if_neg hTag]

theorem tags_addMachines (hDistinct : entries.Pairwise fun a b => a.1 < b.1) (c : Catalog) :
    (entries.foldl (fun c entry => c.addMachine entry.1 entry.2) c).tags =
      c.tags ++ (entries.map (·.1)).filter fun tag => tag ∉ c.tags := by
  induction entries generalizing c with
  | nil => simp
  | cons entry entries ih =>
    obtain ⟨hFirst, hRest⟩ := List.forall_mem_cons.1 hLower
    obtain ⟨hBefore, hDistinct⟩ := List.pairwise_cons.1 hDistinct
    have hTags : (c.addMachine entry.1 entry.2).tags = if entry.1 ∈ c.tags then c.tags
        else c.tags ++ [entry.1] := by
      rw [addMachine, hFirst]
      exact c.tags_put
    rw [List.foldl_cons, ih hRest hDistinct, hTags, List.map_cons]
    by_cases hMem : entry.1 ∈ c.tags
    · rw [if_pos hMem, List.filter_cons_of_neg (by simp [hMem])]
    · have hOthers : (entries.map (·.1)).filter (fun tag => tag ∉ c.tags ++ [entry.1]) =
          (entries.map (·.1)).filter fun tag => tag ∉ c.tags := by
        refine List.filter_congr fun tag hTag => ?_
        obtain ⟨other, hOther, rfl⟩ := List.mem_map.1 hTag
        have hNe : other.1 ≠ entry.1 :=
          fun hEq => String.lt_irrefl entry.1 (hEq ▸ hBefore other hOther)
        simp [hNe]
      rw [if_neg hMem, hOthers, List.filter_cons_of_pos (by simp [hMem]), List.append_assoc,
        List.singleton_append]

/-- An alias belongs to the last entry that claims it, or else to what it belonged to before. -/
theorem owner_addMachines (c : Catalog) (name : String) :
    (entries.foldl (fun c entry => c.addMachine entry.1 entry.2) c).owners.get? name =
      ((entries.reverse.find? (·.2.claims name)).map (·.1)).or (c.owners.get? name) := by
  induction entries generalizing c with
  | nil => rfl
  | cons entry entries ih =>
    obtain ⟨hFirst, hRest⟩ := List.forall_mem_cons.1 hLower
    have hOwner : (c.addMachine entry.1 entry.2).owners.get? name =
        if entry.2.claims name then some entry.1 else c.owners.get? name := by
      rw [addMachine, hFirst]
      exact get?_foldl_insert ..
    rw [List.foldl_cons, ih hRest, hOwner, List.reverse_cons, List.find?_append, Option.map_or,
      Option.or_assoc]
    cases hClaims : entry.2.claims name <;> simp [hClaims]

end Catalog

namespace Registry

/-- Adds the languages that are available everywhere, from a listing of them in any order: they are
sorted by the bytes of their tags, and added one after another. -/
def addListed (r : Registry) (listing : List (String × Machine)) : Registry :=
  (listing.mergeSort fun a b => decide (bytes a.1 ≤ bytes b.1)).foldl
    (fun r entry => r.addMachine entry.1 entry.2) r

theorem addListed_eq (r : Registry) {globals : Globals} {listing : List (String × Machine)}
    (h : listing.Perm globals.entries) : r.addListed listing = r.addGlobals globals := by
  rw [addListed, Dict.mergeSort_listing globals h, addGlobals]

end Registry

namespace Refines

variable {r : Registry} {c : Catalog}

theorem contains_eq (h : Refines r c) (name : String) :
    r.contains name = (r.find? name).isSome := by
  rw [Registry.contains, Registry.find?, h.place?_eq]
  cases hTag : c.tag? name with
  | none => rfl
  | some tag =>
    cases hPlace : r.tags.get? tag with
    | none => simp [hPlace]
    | some place =>
      have hLt := h.lt_size tag place hPlace
      simp [hPlace, hLt]

/-- The last of the machines that claim a name is the one with the greatest tag. -/
theorem find?_reverse_claims (globals : Globals) {name tag : String} {m : Machine}
    (hGlobal : globals.get? tag = some m) (hClaims : m.claims name = true)
    (hGreatest : ∀ tag' m', globals.get? tag' = some m' → m'.claims name = true →
      tag' ≤ tag) : globals.entries.reverse.find? (·.2.claims name) = some (tag, m) := by
  have hMem : (tag, m) ∈ globals.entries.reverse :=
    List.mem_reverse.2 (Dict.get?_eq_some_iff.1 hGlobal)
  cases hFind : globals.entries.reverse.find? (·.2.claims name) with
  | none => exact absurd hClaims (List.find?_eq_none.1 hFind _ hMem)
  | some last =>
    obtain ⟨hLast, later, earlier, hSplit, hLater⟩ := List.find?_eq_some_iff_append.1 hFind
    have hSorted := globals.sorted
    rw [← List.reverse_reverse globals.entries, hSplit, List.reverse_append, List.reverse_cons,
      List.append_assoc, List.pairwise_append] at hSorted
    rw [hSplit, List.mem_append, List.mem_cons] at hMem
    rcases hMem with hMem | rfl | hMem
    · have hNot := hLater _ hMem
      rw [hClaims] at hNot
      cases hNot
    · rfl
    · have hLt : tag < last.1 := hSorted.2.2 _ (List.mem_reverse.2 hMem) last (by simp)
      have hLastMem : last ∈ globals.entries :=
        List.mem_reverse.1 (List.mem_of_find?_eq_some hFind)
      exact absurd hLt
        (String.not_lt.2 (hGreatest last.1 last.2 (Dict.get?_eq_some_iff.2 hLastMem) hLast))

theorem addGlobals (h : Refines r c) (globals : Globals) : Refines (r.addGlobals globals)
    (globals.entries.foldl (fun c entry => c.addMachine entry.1 entry.2) c) :=
  h.addMachines globals.entries

variable (h : Refines r c) {globals : Globals}
  (hLower : ∀ entry ∈ globals.entries, lowercase entry.1 = entry.1)
include h hLower

theorem languages_addGlobals : (r.addGlobals globals).languages =
    r.languages ++ globals.keys.filter fun tag => tag ∉ r.languages := by
  rw [(h.addGlobals globals).languages, Catalog.tags_addMachines hLower globals.sorted, h.languages]
  rfl

/-- A tag leads to the machine that is available everywhere under it, or else to what it led to
before. -/
theorem find?_addGlobals_of_tag {name : String}
    (hTag : lowercase name ∈ (r.addGlobals globals).languages) :
    (r.addGlobals globals).find? name = (globals.get? (lowercase name)).or (r.find? name) := by
  have hAdded := h.addGlobals globals
  rw [hAdded.languages, Catalog.tags, ← Catalog.isSome_lookup_iff] at hTag
  rw [hAdded.find?_eq, Option.or_of_isSome hTag,
    Catalog.lookup_addMachines hLower globals.sorted, h.find?_eq]
  rw [Catalog.lookup_addMachines hLower globals.sorted] at hTag
  show (globals.get? (lowercase name)).or _ = _
  cases hGlobal : globals.get? (lowercase name) with
  | some m => rfl
  | none =>
    have hOwn : (c.languages.lookup (lowercase name)).isSome := by
      rwa [show globals.entries.lookup (lowercase name) = none from hGlobal, Option.none_or] at hTag
    rw [Option.or_of_isSome hOwn]

/-- Of several machines that claim a name, the one with the greatest tag gets it,
unless the name is a tag. -/
theorem find?_addGlobals_of_claims {name tag : String} {m : Machine}
    (hAlias : lowercase name ∉ (r.addGlobals globals).languages)
    (hGlobal : globals.get? tag = some m) (hClaims : m.claims (lowercase name) = true)
    (hGreatest : ∀ tag' m', globals.get? tag' = some m' →
      m'.claims (lowercase name) = true → tag' ≤ tag) :
    (r.addGlobals globals).find? name = some m := by
  have hAdded := h.addGlobals globals
  rw [hAdded.languages, Catalog.tags, ← Catalog.isSome_lookup_iff,
    Option.not_isSome_iff_eq_none] at hAlias
  have hTag : globals.entries.lookup tag = some m := hGlobal
  rw [hAdded.find?_eq, hAlias, Option.none_or, Catalog.owner_addMachines hLower,
    find?_reverse_claims globals hGlobal hClaims hGreatest, Option.map_some, Option.some_or,
    Option.bind_some, Catalog.lookup_addMachines hLower globals.sorted, hTag, Option.some_or]

end Refines

namespace Registry

open Globals

/-- If two sequences of calls agree on the last grammar for each tag, then whatever order each is
made in, and in whatever order the languages are listed, copying them leads from one registry to one
registry, which is the one that `addGlobals` leads to. After any calls, the copied languages stand
behind those of the registry, in the order of their tags; a tag leads to the copied machine under
it, or else to what it led to before; and a name that is no tag leads to the machine of the greatest
tag, by its bytes, among those that claim it as an alias. -/
theorem addListed_registerAll {calls calls' : List (String × Grammar)}
    (hCompile : ∀ call ∈ calls ++ calls', ∃ m, call.2.compile = .ok m)
    (hLast : ∀ tag, lastRegistered? calls tag = lastRegistered? calls' tag) :
    ∃ globals globals' : Globals, registerAll calls = .ok globals ∧
      registerAll calls' = .ok globals' ∧
      (∀ tag, globals.get? tag = (lastRegistered? calls tag).bind (·.compile.toOption)) ∧
      ∀ listing listing' : List (String × Machine), listing.Perm globals.entries →
        listing'.Perm globals'.entries →
        (∀ r : Registry, r.addListed listing = r.addGlobals globals ∧
          r.addListed listing = r.addListed listing') ∧
        ∀ history : List Call,
          let r := history.foldl Registry.after .empty
          let copied := r.addListed listing
          copied.languages = r.languages ++ globals.keys.filter (fun tag => tag ∉ r.languages) ∧
          ∀ name, copied.contains name = (copied.find? name).isSome ∧
            (lowercase name ∈ copied.languages →
              copied.find? name = (globals.get? (lowercase name)).or (r.find? name)) ∧
            ∀ tag m, lowercase name ∉ copied.languages → globals.get? tag = some m →
              m.claims (lowercase name) = true →
              (∀ tag' m', globals.get? tag' = some m' → m'.claims (lowercase name) = true →
                bytes tag' ≤ bytes tag) →
              copied.find? name = some m := by
  obtain ⟨hFirst, hSecond⟩ := List.forall_mem_append.1 hCompile
  obtain ⟨globals, hGlobals, hGet⟩ := exists_registerAll hFirst
  obtain ⟨globals', hGlobals', hGet'⟩ := exists_registerAll hSecond
  -- Dictionaries are kept in one form, so that the same answers make them equal.
  obtain rfl : globals = globals' := Dict.ext_get? fun tag => by rw [hGet, hGet', hLast]
  refine ⟨globals, globals, hGlobals, hGlobals', hGet, fun listing listing' hListing hListing' =>
    ⟨fun r => ?_, fun history => ?_⟩⟩
  · have hSame := addListed_eq r hListing
    exact ⟨hSame, hSame.trans (addListed_eq r hListing').symm⟩
  · have hRefines := Refines.run history
    have hLower : ∀ entry ∈ globals.entries, lowercase entry.1 = entry.1 :=
      fun _ => lowercase_of_mem_keys hGet
    dsimp only
    rw [addListed_eq _ hListing]
    refine ⟨hRefines.languages_addGlobals hLower, fun name =>
      ⟨(hRefines.addGlobals globals).contains_eq name, hRefines.find?_addGlobals_of_tag hLower,
        fun tag m hAlias hGlobal hClaims hGreatest => ?_⟩⟩
    exact hRefines.find?_addGlobals_of_claims hLower hAlias hGlobal hClaims
      fun tag' m' hOther hOtherClaims => bytes_le_iff.1 (hGreatest tag' m' hOther hOtherClaims)

/-- A grammar that finds nothing, with an alias. -/
def aliased (name : String) : Grammar := { name, aliases := ["X"] }

/-- Some calls, and others that come to the same: they are made in another order, and
one is spelled otherwise. -/
def firstCalls : List (String × Grammar) := [("b", aliased "b"), ("A", {}), ("a", aliased "a")]

def otherCalls : List (String × Grammar) := [("a", aliased "a"), ("B", aliased "b")]

theorem eq_or_eq_of_lastRegistered? {tag : String} {g : Grammar}
    (h : lastRegistered? firstCalls tag = some g) : tag = "a" ∨ tag = "b" := by
  have hTags : ∀ call ∈ firstCalls, lowercase call.1 = "a" ∨ lowercase call.1 = "b" := by
    decide +kernel
  obtain ⟨call, hCall, rfl, -⟩ := exists_of_lastRegistered? h
  exact hTags call hCall

/-- Two languages claim one alias, which leads to the one with the greater tag. -/
theorem addListed_registerAll_rivals :
    (∀ call ∈ firstCalls ++ otherCalls, ∃ m, call.2.compile = .ok m) ∧
      (∀ tag, lastRegistered? firstCalls tag = lastRegistered? otherCalls tag) ∧
      ∃ globals globals' m, registerAll firstCalls = .ok globals ∧
        registerAll otherCalls = .ok globals' ∧
        (aliased "b").compile = .ok m ∧
        empty.addListed globals.entries.reverse = empty.addGlobals globals ∧
        empty.addListed globals.entries.reverse = empty.addListed globals'.entries ∧
        (empty.addListed globals.entries.reverse).find? "x" = some m := by
  have hCompile : ∀ call ∈ firstCalls ++ otherCalls, ∃ m, call.2.compile = .ok m := by
    have hAll : ∀ call ∈ firstCalls ++ otherCalls, call.2.compile.toOption.isSome := by
      decide +kernel
    exact fun call hCall => ⟨_, Grammar.eq_ok_get (hAll call hCall)⟩
  obtain ⟨ha, hA, hb, hB⟩ : lowercase "a" = "a" ∧ lowercase "A" = "a" ∧
      lowercase "b" = "b" ∧ lowercase "B" = "b" := by
    decide +kernel
  have hLast : ∀ tag, lastRegistered? firstCalls tag = lastRegistered? otherCalls tag := by
    intro tag
    simp only [firstCalls, otherCalls, lastRegistered?_cons, ha, hA, hb, hB]
    by_cases hTag : tag = "a"
    · rw [hTag]
      rfl
    · simp [hTag]
  have hLastB : lastRegistered? firstCalls "b" = some (aliased "b") := by
    simp only [firstCalls, lastRegistered?_cons, ha, hA, hb]
    rfl
  obtain ⟨m, hm⟩ : ∃ m, (aliased "b").compile = .ok m :=
    ⟨_, Grammar.eq_ok_get (by decide +kernel)⟩
  obtain ⟨globals, globals', hGlobals, hGlobals', hGet, hListed⟩ :=
    addListed_registerAll hCompile hLast
  obtain ⟨hSame, hAnswers⟩ :=
    hListed globals.entries.reverse globals'.entries (List.reverse_perm _) (.refl _)
  obtain ⟨hLanguages, hNames⟩ := hAnswers []
  have hTags : ∀ tag m', globals.get? tag = some m' → tag = "a" ∨ tag = "b" := by
    intro tag m' hTag
    rw [hGet] at hTag
    obtain ⟨g, hRegistered, -⟩ := Option.bind_eq_some_iff.1 hTag
    exact eq_or_eq_of_lastRegistered? hRegistered
  have hAlias : lowercase "x" ∉ (empty.addListed globals.entries.reverse).languages := by
    have hNot : lowercase "x" ≠ "a" ∧ lowercase "x" ≠ "b" := by decide +kernel
    intro hMem
    rw [show (empty.addListed globals.entries.reverse).languages = _ from hLanguages] at hMem
    obtain ⟨⟨tag, m'⟩, hEntry, rfl⟩ := List.mem_map.1 (List.mem_of_mem_filter hMem)
    exact (hTags _ m' (Dict.get?_eq_some_iff.2 hEntry)).elim hNot.1 hNot.2
  have hClaims : m.claims (lowercase "x") = true := by
    have hAny : (aliased "b").compile.toOption.any (·.claims (lowercase "x")) = true := by
      decide +kernel
    rwa [hm] at hAny
  have hB : globals.get? "b" = some m := by
    rw [hGet, hLastB, Option.bind_some, hm]
    rfl
  refine ⟨hCompile, hLast, globals, globals', m, hGlobals, hGlobals', hm, (hSame empty).1,
    (hSame empty).2, ?_⟩
  refine (hNames "x").2.2 "b" m hAlias hB hClaims fun tag' m' hTag _ => ?_
  rcases hTags tag' m' hTag with rfl | rfl <;> decide +kernel

end Registry

end Highlighter
