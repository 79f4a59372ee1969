import Highlighter.Grammar.Document
import Highlighter.Proofs.Json.Text

/-! A grammar is read from the document that it is written as, however its modes are nested: what is
not set is left out and comes back as not set, and an empty list that is set stays one. -/

namespace Highlighter

open Json

theorem Category.ofJson?_name (room : Nat) (c : Category) :
    ofJson? room (.string c.name) = some c := by
  cases c <;> rfl

namespace Keywords

variable {room : Nat}

/-- The members of the document of a table. -/
def members (k : Keywords) : List (String × Option Json) :=
  [("$pattern", k.pattern.map .string), ("keyword", some (.strings k.keyword)),
   ("literal", some (.strings k.literal)), ("built_in", some (.strings k.builtIn)),
   ("type", some (.strings k.type))]

theorem simple_toJson (k : Keywords) : k.toJson.Simple := by
  refine simple_present ?_
  simp only [List.forall_mem_cons]
  exact ⟨simple_of_mem_map fun s _ => .string s, simple_of_mem_some (simple_strings _),
    simple_of_mem_some (simple_strings _), simple_of_mem_some (simple_strings _),
    simple_of_mem_some (simple_strings _), nofun⟩

theorem ofJson?_toJson (k : Keywords) (h : k.toJson.depth ≤ room) :
    ofJson? room k.toJson = some k := by
  have hFields : fields? fieldNames 0 (.present k.members) = some (k.members.map (·.2)) :=
    fields?_present fieldNames rfl (by decide) 0
  unfold ofJson?
  rw [if_pos (k.simple_toJson.fits h)]
  change (fields? fieldNames 0 (.present k.members)).bind _ = _
  rw [hFields]
  simp [members, Fields.get, optional_string, orElse, strings?_strings]

theorem optional_toJson {x : Option Keywords} (h : ∀ k ∈ x, k.toJson.depth ≤ room) :
    optional (ofJson? room) (x.map toJson) = some x :=
  optional_map fun k hk => ⟨nofun, k.ofJson?_toJson (h k hk)⟩

end Keywords

theorem relevance?_nat (n : UInt32) : relevance? (.nat n.toNat) = some n := by
  have hLt : (n.toNat : Int) < UInt32.size := by exact_mod_cast n.toNat_lt
  rw [relevance?, Json.nat, natBelow?, if_pos ⟨Int.natCast_nonneg _, hLt⟩]
  simp

namespace ModeRule

def members (settings : ModeSettings) (contains : Option (List ModeRef))
    (variants : List ModeRule) : List (String × Option Json) :=
  settingMembers settings ++
    [("contains", contains.map fun refs => .array (refs.map refToJson)),
     ("variants", if variants = [] then none else some (.array (variants.map toJson)))]

theorem refsToJson_eq (refs : List ModeRef) : refsToJson refs = refs.map refToJson := by
  induction refs with
  | nil => rfl
  | cons ref refs ih => rw [refsToJson, ih, List.map_cons]

theorem rulesToJson_eq (rules : List ModeRule) : rulesToJson rules = rules.map toJson := by
  induction rules with
  | nil => rfl
  | cons rule rules ih => rw [rulesToJson, ih, List.map_cons]

theorem toJson_mk (settings : ModeSettings) (contains : Option (List ModeRef))
    (variants : List ModeRule) :
    toJson (.mk settings contains variants) = .present (members settings contains variants) := by
  rw [toJson.eq_def, members]
  cases contains <;> cases variants <;> simp [refsToJson_eq, rulesToJson_eq]

theorem simple_settingMembers (s : ModeSettings) :
    ∀ m ∈ settingMembers s, ∀ v ∈ m.2, v.Simple := by
  have hText : ∀ x : Option String, ∀ v ∈ x.map Json.string, v.Simple := fun _ =>
    simple_of_mem_map fun s _ => .string s
  have hFlag : ∀ x : Option Bool, ∀ v ∈ x.map Json.bool, v.Simple := fun _ =>
    simple_of_mem_map fun b _ => .bool b
  simp only [settingMembers, List.forall_mem_cons]
  exact ⟨simple_of_mem_map fun c _ => .string c.name, hText _, hText _, hText _, hFlag _, hFlag _,
    hFlag _, hFlag _, hFlag _, hFlag _, simple_of_mem_map fun k _ => k.simple_toJson, hText _,
    simple_of_mem_map fun n _ => .nat n.toNat_lt, nofun⟩

mutual

theorem simple_toJson : ∀ rule : ModeRule, rule.toJson.Simple
  | .mk settings contains variants => by
    rw [toJson_mk]
    refine simple_present (List.forall_mem_append.2 ⟨simple_settingMembers settings, ?_⟩)
    simp only [List.forall_mem_cons]
    refine ⟨?_, ?_, nofun⟩
    · cases contains with
      | none => nofun
      | some refs =>
        refine simple_of_mem_some (.array ?_)
        rw [← refsToJson_eq]
        exact simple_refsToJson refs
    · split
      · nofun
      · refine simple_of_mem_some (.array ?_)
        rw [← rulesToJson_eq]
        exact simple_rulesToJson variants

theorem simple_refToJson : ∀ ref : ModeRef, (refToJson ref).Simple
  | .named name => .string name
  | .inline rule => by
    rw [refToJson]
    exact simple_toJson rule

theorem simple_refsToJson : ∀ refs : List ModeRef, ∀ v ∈ refsToJson refs, v.Simple
  | [] => nofun
  | ref :: refs => by
    rw [refsToJson]
    exact List.forall_mem_cons.2 ⟨simple_refToJson ref, simple_refsToJson refs⟩

theorem simple_rulesToJson : ∀ rules : List ModeRule, ∀ v ∈ rulesToJson rules, v.Simple
  | [] => nofun
  | rule :: rules => by
    rw [rulesToJson]
    exact List.forall_mem_cons.2 ⟨simple_toJson rule, simple_rulesToJson rules⟩

end

variable {room : Nat}

theorem settings?_members {s : ModeSettings} (contains : Option (List ModeRef))
    (variants : List ModeRule) (h : ∀ k ∈ s.keywords, k.toJson.depth ≤ room) :
    settings? room ((members s contains variants).map (·.2)) = some s := by
  have hCategory : optional (Category.ofJson? room) (s.category.map fun c => .string c.name) =
      some s.category :=
    optional_map fun c _ => ⟨nofun, Category.ofJson?_name room c⟩
  have hKeywords := Keywords.optional_toJson h
  have hRelevance :
      optional relevance? (s.relevance.map fun n => .nat n.toNat) = some s.relevance :=
    optional_map fun n _ => ⟨nofun, relevance?_nat n⟩
  simp [settings?, members, settingMembers, Fields.get, optional_string, optional_bool, hCategory,
    hKeywords, hRelevance]

/-- An entry of a list is read from its document: a mode is an object, and never taken for a
name. -/
theorem ref?_refToJson {rule? : Json → Option ModeRule} {ref : ModeRef}
    (h : (refToJson ref).depth ≤ room) (hRule : ∀ inner : ModeRule,
      inner.toJson.depth ≤ room → rule? inner.toJson = some inner) :
    ref? rule? room (refToJson ref) = some ref := by
  unfold ref?
  rw [if_pos ((simple_refToJson ref).fits h)]
  cases ref with
  | named name => rfl
  | inline rule =>
    rw [refToJson] at h ⊢
    have hRead := hRule rule h
    obtain ⟨settings, contains, variants⟩ := rule
    rw [toJson_mk] at hRead ⊢
    change (rule? (.present (members settings contains variants))).map _ = _
    rw [hRead]
    rfl

theorem ofFields?_toJson {rule? : Json → Option ModeRule} {rule : ModeRule}
    (h : rule.toJson.depth ≤ room + 1) (hRule : ∀ inner : ModeRule,
      inner.toJson.depth ≤ room - 1 → rule? inner.toJson = some inner) :
    ofFields? rule? room rule.toJson = some rule := by
  obtain ⟨settings, contains, variants⟩ := rule
  rw [toJson_mk] at h ⊢
  have hDepth := depth_present_le.1 h
  have hFields : fields? fieldNames 0 (.present (members settings contains variants)) =
      some ((members settings contains variants).map (·.2)) :=
    fields?_present fieldNames rfl (by decide) 0
  have hSettings :
      settings? room ((members settings contains variants).map (·.2)) = some settings := by
    refine settings?_members contains variants fun k hk => ?_
    refine hDepth ("keywords", settings.keywords.map Keywords.toJson)
      (by simp [members, settingMembers]) _ ?_
    exact Option.mem_map_of_mem _ hk
  have hContains : optional (list? room (ref? rule? (room - 1)))
      (contains.map fun refs => .array (refs.map refToJson)) = some contains := by
    refine optional_map fun refs hRefs => ⟨nofun, ?_⟩
    have hList : (Json.array (refs.map refToJson)).depth ≤ room :=
      hDepth ("contains", contains.map fun refs => .array (refs.map refToJson))
        (by simp [members]) _ (Option.mem_map_of_mem _ hRefs)
    cases room with
    | zero => simp [depth] at hList
    | succ room =>
      exact list?_array fun ref hRef =>
        ref?_refToJson (depth_array_le.1 hList _ (List.mem_map_of_mem hRef)) hRule
  have hVariants : orElse (list? room rule?) []
      (if variants = [] then none else some (.array (variants.map toJson))) = some variants := by
    -- An empty list of variants is left out, and read as empty where it is missing.
    split
    · next hNil => rw [hNil, orElse]
    · next hNe =>
      have hList : (Json.array (variants.map toJson)).depth ≤ room :=
        hDepth ("variants", if variants = [] then none else some (.array (variants.map toJson)))
          (by simp [members]) _ (by simp [hNe])
      cases room with
      | zero => simp [depth] at hList
      | succ room =>
        exact list?_array fun rule hMem =>
          hRule rule (depth_array_le.1 hList _ (List.mem_map_of_mem hMem))
  unfold ofFields?
  rw [hFields]
  have hGet : Fields.get ((members settings contains variants).map (·.2)) 13 =
      contains.map fun refs => .array (refs.map refToJson) := rfl
  have hLast : Fields.get ((members settings contains variants).map (·.2)) 14 =
      if variants = [] then none else some (.array (variants.map toJson)) := rfl
  simp [hSettings, hGet, hLast, hContains, hVariants]

theorem ofJson?_succ (room : Nat) (j : Json) :
    ofJson? (room + 1) j = ofFields? (ofJson? (room - 1)) room j := by
  cases room with
  | zero => rfl
  | succ room => rfl

theorem ofJson?_toJson : ∀ (room : Nat) (rule : ModeRule), rule.toJson.depth ≤ room →
    ofJson? room rule.toJson = some rule := by
  intro room
  induction room using Nat.strongRecOn with
  | ind room ih =>
    intro rule h
    cases room with
    | zero =>
      obtain ⟨settings, contains, variants⟩ := rule
      rw [toJson_mk] at h
      simp [present, depth] at h
    | succ room =>
      -- A mode within this one has an object and an array around it more.
      rw [ofJson?_succ]
      refine ofFields?_toJson h fun inner hInner => ?_
      exact ih (room - 1) (by omega) inner hInner

end ModeRule

namespace Grammar

variable {room : Nat}

def members (g : Grammar) : List (String × Option Json) :=
  [("name", some (.string g.name)), ("aliases", some (.strings g.aliases)),
   ("caseInsensitive", some (.bool g.caseInsensitive)),
   ("keywords", g.keywords.map Keywords.toJson), ("illegal", g.illegal.map .string),
   ("contains", some (.array (ModeRule.refsToJson g.contains))), ("modes", modesToJson g.modes)]

theorem modesToJson_eq (modes : Dict ModeRule) : modesToJson modes = if modes.entries = [] then none
    else some (.object (modes.entries.map fun e => (e.1, e.2.toJson))) := by
  unfold modesToJson
  cases modes.entries <;> simp

/-- Named modes are read from their document, and none of them if there is no document. -/
theorem modes?_modesToJson {modes : Dict ModeRule}
    (h : ∀ j ∈ modesToJson modes, j.depth ≤ room) :
    orElse (modes? room) .empty (modesToJson modes) = some modes := by
  have hModes := modes.ofList_entries
  rw [modesToJson_eq] at h ⊢
  by_cases hNil : modes.entries = []
  · rw [hNil] at hModes
    rw [if_pos hNil]
    exact congrArg some hModes
  · rw [if_neg hNil] at h ⊢
    have hDepth := h _ rfl
    cases room with
    | zero => simp [depth] at hDepth
    | succ room =>
      have hEntries : entries? (room + 1) (ModeRule.ofJson? room)
          (.object (modes.entries.map fun e => (e.1, e.2.toJson))) = some modes.entries :=
        entries?_object fun e he =>
          ModeRule.ofJson?_toJson room e.2 (depth_object_le.1 hDepth _ (List.mem_map_of_mem he))
      change (entries? (room + 1) (ModeRule.ofJson? room) _).map _ = _
      rw [hEntries, Option.map_some, hModes]

theorem contains?_refsToJson {refs : List ModeRef}
    (h : (Json.array (ModeRule.refsToJson refs)).depth ≤ room) :
    contains? room (.array (ModeRule.refsToJson refs)) = some refs := by
  rw [ModeRule.refsToJson_eq] at h ⊢
  cases room with
  | zero => simp [depth] at h
  | succ room =>
    exact list?_array fun ref hRef =>
      ModeRule.ref?_refToJson (depth_array_le.1 h _ (List.mem_map_of_mem hRef))
      (ModeRule.ofJson?_toJson room)

theorem readWithin?_toJson {limit : Nat} {g : Grammar} (h : g.toJson.depth ≤ limit) :
    readWithin? limit g.toJson = some g := by
  have hFields : fields? fieldNames 0 (.present g.members) = some (g.members.map (·.2)) :=
    fields?_present fieldNames rfl (by decide) 0
  cases limit with
  | zero => simp [toJson, present, depth] at h
  | succ room =>
    have hDepth : ∀ m ∈ g.members, ∀ v ∈ m.2, v.depth ≤ room := depth_present_le.1 h
    have hAliases : texts? room (.strings g.aliases) = some g.aliases :=
      texts?_strings (hDepth ("aliases", some (.strings g.aliases)) (by simp [members]) _ rfl)
    have hKeywords :
        optional (Keywords.ofJson? room) (g.keywords.map Keywords.toJson) = some g.keywords :=
      Keywords.optional_toJson fun k hk => hDepth ("keywords", g.keywords.map Keywords.toJson)
        (by simp [members]) _ (Option.mem_map_of_mem _ hk)
    have hContains : contains? room (.array (ModeRule.refsToJson g.contains)) = some g.contains :=
      contains?_refsToJson (hDepth ("contains", some (.array (ModeRule.refsToJson g.contains)))
        (by simp [members]) _ rfl)
    have hModes : orElse (modes? room) .empty (modesToJson g.modes) = some g.modes :=
      modes?_modesToJson (hDepth ("modes", modesToJson g.modes) (by simp [members]))
    change (fields? fieldNames 0 (.present g.members)).bind _ = _
    rw [hFields]
    simp [members, Fields.get, orElse_some, string?, bool?, optional_string, hAliases, hKeywords,
      hContains, hModes]

theorem simple_toJson (g : Grammar) : g.toJson.Simple := by
  have hContains : (Json.array (ModeRule.refsToJson g.contains)).Simple :=
    .array (ModeRule.simple_refsToJson g.contains)
  have hModes : ∀ v ∈ modesToJson g.modes, v.Simple := by
    rw [modesToJson_eq]
    split
    · nofun
    · refine simple_of_mem_some (.object fun m hm => ?_)
      obtain ⟨e, -, rfl⟩ := List.mem_map.1 hm
      exact e.2.simple_toJson
  refine simple_present ?_
  simp only [List.forall_mem_cons]
  exact ⟨simple_of_mem_some (.string g.name), simple_of_mem_some (simple_strings g.aliases),
    simple_of_mem_some (.bool g.caseInsensitive), simple_of_mem_map fun k _ => k.simple_toJson,
    simple_of_mem_map fun s _ => .string s, simple_of_mem_some hContains, hModes, nofun⟩

/-- A grammar is read from what it is written as: from its document if there is room for all of
that, however deep it is, and from its text if that is nested no deeper than texts may be. So
whatever document a grammar has been read from, the one that is written for it is its canonical
form: it is read as the same grammar, and is what is written for that once more. -/
theorem ofText_toJson (g : Grammar) :
    (∀ limit, g.toJson.depth ≤ limit → readWithin? limit g.toJson = some g) ∧
    (g.toJson.depth ≤ nestingLimit → ofText g.toJson.compress = .ok g) ∧
    ∀ j limit canonical, (readWithin? limit j).map toJson = some canonical →
      ∀ room, canonical.depth ≤ room → readWithin? room canonical = readWithin? limit j ∧
        (readWithin? room canonical).map toJson = some canonical := by
  refine ⟨fun limit => readWithin?_toJson, fun hDepth => ?_, ?_⟩
  · have hRead : ofJson? g.toJson = some g := readWithin?_toJson hDepth
    rw [ofText, parse?_compress g.simple_toJson.isPlain, Option.bind_some, hRead]
  · intro j limit canonical hWritten room hDepth
    obtain ⟨loaded, hLoaded, rfl⟩ := Option.map_eq_some_iff.1 hWritten
    have hAgain : readWithin? room loaded.toJson = some loaded := readWithin?_toJson hDepth
    exact ⟨hAgain.trans hLoaded.symm, by rw [hAgain, Option.map_some]⟩

/-- A grammar with modes within modes, variants with and without settings, an empty list that is
set, settings that are false or zero, and tables with and without a pattern. -/
def nested : Grammar where
  name := "nested"
  aliases := ["n", "\"n\"\n"]
  caseInsensitive := true
  keywords := some { pattern := some "\\w+", keyword := ["let|3"] }
  contains :=
    [.named "self",
     .inline (.mk { category := some .string, opening := some "\"", returnOpening := some false,
                    relevance := some 0 } (some []) [.ofSettings { closing := some "\"" }, .empty])]
  modes := .ofList
    [("group", .containing { keywords := some { literal := ["on"] } }
       [.named "group", .inline (.containing { closesParent := some true } [.named "self"])])]

/-- A grammar as an array of its fields, of which only the first one is there. -/
def listed : Json := .array [.string "listed"]

theorem ofText_toJson_nested :
    nested.toJson.depth ≤ 6 ∧ readWithin? 6 nested.toJson = some nested ∧
      ofText nested.toJson.compress = .ok nested ∧
      ∃ canonical, (readWithin? 6 listed).map toJson = some canonical ∧
        canonical.depth ≤ 6 ∧
        canonical ≠ listed ∧ readWithin? 6 canonical = readWithin? 6 listed ∧
        (readWithin? 6 canonical).map toJson = some canonical := by
  have hDepth : nested.toJson.depth ≤ 6 := by decide +kernel
  obtain ⟨hDocument, hText, hCanonical⟩ := ofText_toJson nested
  have hRead : readWithin? 6 nested.toJson = some nested := hDocument 6 hDepth
  have hLoaded : readWithin? 6 listed = some { name := "listed" } := by rfl
  have hListed : (readWithin? 6 listed).map toJson = some (toJson { name := "listed" }) := by
    rw [hLoaded, Option.map_some]
  have hShallow : (toJson { name := "listed" }).depth ≤ 6 := by decide +kernel
  have hOther : toJson { name := "listed" } ≠ listed := nofun
  exact ⟨hDepth, hRead, hText (Nat.le_trans hDepth (by decide)), _, hListed, hShallow, hOther,
    hCanonical listed 6 _ hListed 6 hShallow⟩

end Grammar

end Highlighter
