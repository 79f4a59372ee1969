import Highlighter.Json.Schema

/-! Structured values that are read from what they have been written to. A reader that has room for
the arrays and objects which lie within one another in a document fits all of it, and each field of
a structure is found under its name. -/

namespace Highlighter.Json

/-! ### Depth -/

mutual

/-- How many arrays and objects lie within one another at the most. -/
def depth : Json → Nat
  | .array items => depthOfAll items + 1
  | .object members => depthOfMembers members + 1
  | _ => 0

def depthOfAll : List Json → Nat
  | [] => 0
  | v :: rest => max (depth v) (depthOfAll rest)

def depthOfMembers : List (String × Json) → Nat
  | [] => 0
  | (_, v) :: rest => max (depth v) (depthOfMembers rest)

end

variable {room : Nat}

theorem depthOfAll_le {items : List Json} : depthOfAll items ≤ room ↔
    ∀ v ∈ items, v.depth ≤ room := by
  induction items with
  | nil => simp [depthOfAll]
  | cons v items ih => rw [depthOfAll, Nat.max_le, ih, List.forall_mem_cons]

theorem depthOfMembers_le {members : List (String × Json)} :
    depthOfMembers members ≤ room ↔ ∀ m ∈ members, m.2.depth ≤ room := by
  induction members with
  | nil => simp [depthOfMembers]
  | cons m members ih => rw [depthOfMembers, Nat.max_le, ih, List.forall_mem_cons]

theorem depth_array_le {items : List Json} :
    (array items).depth ≤ room + 1 ↔ ∀ v ∈ items, v.depth ≤ room := by
  rw [depth, Nat.add_le_add_iff_right, depthOfAll_le]

theorem depth_object_le {members : List (String × Json)} :
    (object members).depth ≤ room + 1 ↔ ∀ m ∈ members, m.2.depth ≤ room := by
  rw [depth, Nat.add_le_add_iff_right, depthOfMembers_le]

theorem allFit_iff {items : List Json} : allFit room items ↔ ∀ v ∈ items, v.fits room := by
  induction items with
  | nil => simp [allFit]
  | cons v items ih => simp [allFit, ih]

theorem membersFit_iff {members : List (String × Json)} :
    membersFit room members ↔ ∀ m ∈ members, m.2.fits room := by
  induction members with
  | nil => simp [membersFit]
  | cons m members ih => simp [membersFit, ih]

theorem fits_array_iff {items : List Json} : (array items).fits (room + 1) ↔
    ∀ v ∈ items, v.fits room := by
  rw [fits, allFit_iff]

theorem forall_mem_present {P : Json → Prop} {members : List (String × Option Json)} :
    (∀ m ∈ members.filterMap fun m => m.2.map (m.1, ·), P m.2) ↔
      ∀ m ∈ members, ∀ v ∈ m.2, P v := by
  constructor
  · intro h m hm v hv
    refine h (m.1, v) (List.mem_filterMap.2 ⟨m, hm, ?_⟩)
    rw [Option.mem_def.1 hv]
    rfl
  · intro h m hm
    obtain ⟨n, hn, hMap⟩ := List.mem_filterMap.1 hm
    obtain ⟨v, hv, rfl⟩ := Option.map_eq_some_iff.1 hMap
    exact h n hn v hv

theorem depth_present_le {members : List (String × Option Json)} :
    (present members).depth ≤ room + 1 ↔
      ∀ m ∈ members, ∀ v ∈ m.2, v.depth ≤ room := by
  rw [present, depth_object_le, forall_mem_present (P := (depth · ≤ room))]

/-- Documents that structured values are written as: all numbers in them are whole, not
negative, and of 32 bits. -/
inductive Simple : Json → Prop
  | string (s : String) : Simple (.string s)
  | bool (b : Bool) : Simple (.bool b)
  | nat {n : Nat} (h : n < UInt32.size) : Simple (.nat n)
  | array {items : List Json} (h : ∀ v ∈ items, Simple v) : Simple (.array items)
  | object {members : List (String × Json)} (h : ∀ m ∈ members, Simple m.2) :
      Simple (.object members)

theorem fits_nat {n : Nat} (h : n < UInt32.size) : (nat n).fits room := by
  have hDigits : (Nat.toDigits 10 n).length ≤ 10 := by
    rw [← Nat.toList_repr, String.length_toList, Nat.length_repr_le_iff (by decide)]
    exact Nat.lt_trans h (by decide)
  simp only [nat, fits, isFinite, Int.natAbs_natCast, Int.add_zero, Bool.or_eq_true,
    decide_eq_true_eq]
  omega

/-- All of a simple document can be read if there is room for its arrays and objects. -/
theorem Simple.fits {j : Json} (h : j.Simple) (hDepth : j.depth ≤ room) : j.fits room := by
  induction h generalizing room with
  | string s => rfl
  | bool b => rfl
  | nat hn => exact fits_nat hn
  | array h ih =>
    cases room with
    | zero => simp [depth] at hDepth
    | succ room => exact fits_array_iff.2 fun v hv => ih v hv (depth_array_le.1 hDepth v hv)
  | object h ih =>
    cases room with
    | zero => simp [depth] at hDepth
    | succ room => exact membersFit_iff.2 fun m hm => ih m hm (depth_object_le.1 hDepth m hm)

theorem simple_strings (items : List String) : (strings items).Simple := by
  refine .array fun v hv => ?_
  obtain ⟨s, -, rfl⟩ := List.mem_map.1 hv
  exact .string s

theorem simple_present {members : List (String × Option Json)}
    (h : ∀ m ∈ members, ∀ v ∈ m.2, v.Simple) : (present members).Simple :=
  .object (forall_mem_present.2 h)

theorem simple_of_mem_some {v : Json} (h : v.Simple) : ∀ w ∈ some v, w.Simple := fun _ hw =>
  Option.mem_some.1 hw ▸ h

theorem simple_of_mem_map {α : Type} {write : α → Json} {x : Option α}
    (h : ∀ a ∈ x, (write a).Simple) : ∀ w ∈ x.map write, w.Simple := by
  intro w hw
  obtain ⟨a, ha, rfl⟩ := Option.map_eq_some_iff.1 hw
  exact h a ha

/-! ### Fields -/

theorem filter_present_eq_nil {members : List (String × Option Json)} {name : String}
    (h : name ∉ members.map (·.1)) :
    (members.filterMap fun m => m.2.map (m.1, ·)).filter (·.1 == name) = [] := by
  refine List.filter_eq_nil_iff.2 fun m hm hName => h ?_
  obtain ⟨n, hn, hMap⟩ := List.mem_filterMap.1 hm
  obtain ⟨v, -, rfl⟩ := Option.map_eq_some_iff.1 hMap
  exact List.mem_map.2 ⟨n, hn, beq_iff_eq.1 hName⟩

theorem filter_present {members : List (String × Option Json)} (h : (members.map (·.1)).Nodup)
    {m : String × Option Json} (hm : m ∈ members) :
    (members.filterMap fun m => m.2.map (m.1, ·)).filter (·.1 == m.1) =
      (m.2.map (m.1, ·)).toList := by
  induction members with
  | nil => cases hm
  | cons first members ih =>
    rw [List.map_cons, List.nodup_cons] at h
    rw [List.filterMap_cons]
    rcases List.mem_cons.1 hm with rfl | hm
    · -- Names differ from one another, so none of the members after it has the same one.
      cases hValue : m.2 <;> simp [filter_present_eq_nil h.1]
    · have hNe : first.1 ≠ m.1 := fun hEq => h.1 (hEq ▸ List.mem_map_of_mem hm)
      cases hValue : first.2 <;> simp [hNe, ih h.2 hm]

theorem optional_map {α : Type} {read : Json → Option α} {write : α → Json} {x : Option α}
    (h : ∀ v ∈ x, write v ≠ .null ∧ read (write v) = some v) :
    optional read (x.map write) = some x := by
  cases x with
  | none => rfl
  | some v =>
    obtain ⟨hNull, hRead⟩ := h v rfl
    rw [Option.map_some, optional]
    · rw [hRead]
      rfl
    · simpa using hNull

theorem optional_string (x : Option String) : optional string? (x.map .string) = some x :=
  optional_map fun _ _ => ⟨nofun, rfl⟩

theorem optional_bool (x : Option Bool) : optional bool? (x.map .bool) = some x :=
  optional_map fun _ _ => ⟨nofun, rfl⟩

theorem mapM_map {α β γ : Type} {read : β → Option γ} {write : α → β} {value : α → γ}
    {items : List α} (h : ∀ v ∈ items, read (write v) = some (value v)) :
    (items.map write).mapM read = some (items.map value) := by
  induction items with
  | nil => rfl
  | cons v items ih =>
    obtain ⟨hHead, hTail⟩ := List.forall_mem_cons.1 h
    rw [List.map_cons, List.mapM_cons, hHead, ih hTail]
    rfl

/-- The fields of a structure that has been written with all that are present are its own. -/
theorem fields?_present (names : List String) {members : List (String × Option Json)}
    (hNames : members.map (·.1) = names) (hNodup : names.Nodup) (least : Nat) :
    fields? names least (present members) = some (members.map (·.2)) := by
  subst hNames
  have hField : ∀ m ∈ members,
      field? (members.filterMap fun m => m.2.map (m.1, ·)) m.1 = some m.2 := by
    intro m hm
    rw [field?, filter_present hNodup hm]
    cases m.2 <;> rfl
  exact mapM_map hField

theorem orElse_some {α : Type} (read : Json → Option α) (fallback : α) (j : Json) :
    orElse read fallback (some j) = read j := rfl

theorem strings?_strings (items : List String) : (strings items).strings? = some items := by
  have hItems : (items.map string).mapM string? = some (items.map id) := mapM_map fun _ _ => rfl
  rwa [List.map_id] at hItems

theorem list?_array {α : Type} {read : Json → Option α} {write : α → Json} {items : List α}
    (h : ∀ v ∈ items, read (write v) = some v) :
    list? (room + 1) read (array (items.map write)) = some items := by
  have hItems : (items.map write).mapM read = some (items.map id) := mapM_map h
  rwa [List.map_id] at hItems

theorem texts?_strings {items : List String} (h : (strings items).depth ≤ room) :
    texts? room (strings items) = some items := by
  cases room with
  | zero => simp [strings, depth] at h
  | succ room => exact list?_array fun _ _ => rfl

theorem entries?_object {α : Type} {read : Json → Option α} {write : α → Json}
    {entries : List (String × α)} (h : ∀ e ∈ entries, read (write e.2) = some e.2) :
    entries? (room + 1) read (object (entries.map fun e => (e.1, write e.2))) = some entries := by
  have hEntries : (entries.map fun e => (e.1, write e.2)).mapM (fun m => (read m.2).map (m.1, ·)) =
      some (entries.map id) := mapM_map fun e he => by
    rw [h e he]
    rfl
  rwa [List.map_id] at hEntries

end Highlighter.Json
