/-! Finite maps from texts, listed in the order of their keys. Since the order is part of the type,
two dictionaries with the same entries are equal. -/

namespace Highlighter

/-- A finite map from texts. -/
structure Dict (α : Type) where
  entries : List (String × α)
  sorted : entries.Pairwise (fun a b => a.1 < b.1)

namespace Dict

variable {α : Type}

instance : Inhabited (Dict α) := ⟨⟨[], .nil⟩⟩

instance [DecidableEq α] : DecidableEq (Dict α) := fun a b =>
  if h : a.entries = b.entries then .isTrue (by cases a; cases b; cases h; rfl)
  else .isFalse fun e => h (e ▸ rfl)

instance [BEq α] : BEq (Dict α) := ⟨fun a b => a.entries == b.entries⟩

instance [Repr α] : Repr (Dict α) := ⟨fun d n => reprPrec d.entries n⟩

def empty : Dict α := ⟨[], .nil⟩

def get? (d : Dict α) (key : String) : Option α := d.entries.lookup key

theorem get?_eq_some_iff {d : Dict α} {key : String} {value : α} :
    d.get? key = some value ↔ (key, value) ∈ d.entries := by
  rw [get?, List.lookup_eq_some_iff]
  constructor
  · rintro ⟨left, right, hEntries, -⟩
    simp [hEntries]
  · intro h
    obtain ⟨left, right, hEntries⟩ := List.append_of_mem h
    refine ⟨left, right, hEntries, fun e he => ?_⟩
    have hSorted := d.sorted
    rw [hEntries] at hSorted
    have hLt := (List.pairwise_append.1 hSorted).2.2 e he (key, value) List.mem_cons_self
    exact bne_iff_ne.2 fun hEq => String.lt_irrefl key (hEq ▸ hLt)

def contains (d : Dict α) (key : String) : Bool := (d.get? key).isSome

/-- The keys in order. -/
def keys (d : Dict α) : List String := d.entries.map (·.1)

def size (d : Dict α) : Nat := d.entries.length

/-- Puts an entry in its place among sorted ones. One of the same key stays as it is. -/
def place (key : String) (value : α) : List (String × α) → List (String × α)
  | [] => [(key, value)]
  | e :: rest =>
    if key < e.1 then (key, value) :: e :: rest
    else if key = e.1 then e :: rest
    else e :: place key value rest

theorem mem_place {key : String} {value : α} {es : List (String × α)} {x : String × α}
    (h : x ∈ place key value es) : x = (key, value) ∨ x ∈ es := by
  induction es with
  | nil => simpa [place] using h
  | cons e rest ih =>
    unfold place at h
    split at h
    · simpa using h
    · split at h
      · exact .inr h
      · rcases List.mem_cons.1 h with h | h
        · exact .inr (h ▸ List.mem_cons_self)
        · exact (ih h).imp_right (List.mem_cons_of_mem _)

theorem pairwise_place {key : String} {value : α} {es : List (String × α)}
    (h : es.Pairwise fun a b => a.1 < b.1) :
    (place key value es).Pairwise fun a b => a.1 < b.1 := by
  induction es with
  | nil => simp [place]
  | cons e rest ih =>
    have hr := List.pairwise_cons.1 h
    unfold place
    split
    · next hlt =>
      refine List.pairwise_cons.2 ⟨fun x hx => ?_, h⟩
      rcases List.mem_cons.1 hx with rfl | hx
      · exact hlt
      · exact String.lt_trans hlt (hr.1 x hx)
    · split
      · exact h
      · next hlt hne =>
        refine List.pairwise_cons.2 ⟨fun x hx => ?_, ih hr.2⟩
        rcases mem_place hx with rfl | hx
        · exact Decidable.byContradiction fun hn =>
            hne (String.le_antisymm (String.not_lt.1 hn) (String.not_lt.1 hlt))
        · exact hr.1 x hx

/-- Adds an entry unless there is one of the same key. -/
def add (d : Dict α) (key : String) (value : α) : Dict α :=
  ⟨place key value d.entries, pairwise_place d.sorted⟩

theorem lookup_cons_eq_ite {k : String} {e : String × α} {es : List (String × α)} :
    (e :: es).lookup k = if k = e.1 then some e.2 else es.lookup k := by
  rw [List.lookup_cons]
  by_cases h : k = e.1
  · simp [h]
  · simp [h, beq_false_of_ne h]

theorem lookup_place {key k : String} {value : α} {es : List (String × α)}
    (h : ∀ e ∈ es, e.1 ≠ key) :
    (place key value es).lookup k = if k = key then some value else es.lookup k := by
  induction es with
  | nil => exact lookup_cons_eq_ite
  | cons e es ih =>
    have hNe := h e List.mem_cons_self
    have hRest := ih fun e he => h e (List.mem_cons_of_mem _ he)
    rw [place, if_neg hNe.symm]
    split
    · exact lookup_cons_eq_ite
    · rw [lookup_cons_eq_ite, lookup_cons_eq_ite, hRest]
      by_cases hk : k = key
      · simp [hk, hNe.symm]
      · simp [hk]

theorem place_of_mem {key : String} {value : α} {es : List (String × α)}
    (hSorted : es.Pairwise fun a b => a.1 < b.1) (h : ∃ e ∈ es, e.1 = key) :
    place key value es = es := by
  induction es with
  | nil =>
    obtain ⟨_, he, -⟩ := h
    cases he
  | cons e es ih =>
    obtain ⟨hFirst, hRest⟩ := List.pairwise_cons.1 hSorted
    obtain ⟨e', he', rfl⟩ := h
    rcases List.mem_cons.1 he' with rfl | hMem
    · rw [place, if_neg (String.lt_irrefl e'.1), if_pos rfl]
    · have hLt := hFirst e' hMem
      rw [place, if_neg (String.lt_asymm hLt), ih hRest ⟨e', hMem, rfl⟩]
      split
      · rfl
      · rfl

/-- An entry counts unless there is one of its key already. -/
theorem get?_add (d : Dict α) (key k : String) (value : α) :
    (d.add key value).get? k = (d.get? k).or (if k = key then some value else none) := by
  show (place key value d.entries).lookup k = _
  by_cases hPresent : ∃ e ∈ d.entries, e.1 = key
  · rw [place_of_mem d.sorted hPresent, ← get?]
    split
    · next hk =>
      obtain ⟨e, he, hKey⟩ := hPresent
      rw [hk, ← hKey, get?_eq_some_iff.2 he, Option.some_or]
    · rw [Option.or_none]
  · have hAbsent : ∀ e ∈ d.entries, e.1 ≠ key := fun e he hKey => hPresent ⟨e, he, hKey⟩
    rw [lookup_place hAbsent, ← get?]
    split
    · next hk =>
      have hNone : d.get? k = none := by
        refine List.lookup_eq_none_iff.2 fun e he => ?_
        rw [hk]
        exact bne_iff_ne.2 (hAbsent e he).symm
      rw [hNone, Option.none_or]
    · rw [Option.or_none]

theorem lookup_filter_ne {key k : String} {es : List (String × α)} :
    (es.filter fun e => e.1 != key).lookup k = if k = key then none else es.lookup k := by
  induction es with
  | nil => simp
  | cons e es ih =>
    rw [List.filter_cons, lookup_cons_eq_ite]
    by_cases he : e.1 = key
    · rw [if_neg (by simp [he]), ih, he]
      by_cases hk : k = key
      · simp [hk]
      · simp [hk]
    · rw [if_pos (by simp [he]), lookup_cons_eq_ite, ih]
      by_cases hk : k = key
      · simp [hk, Ne.symm he]
      · simp [hk]

/-- Puts an entry in place of the one of the same key, if there is one. -/
def insert (d : Dict α) (key : String) (value : α) : Dict α :=
  (⟨d.entries.filter fun e => e.1 != key, d.sorted.filter _⟩ : Dict α).add key value

theorem get?_insert (d : Dict α) (key k : String) (value : α) :
    (d.insert key value).get? k = if k = key then some value else d.get? k := by
  have hAbsent : ∀ e ∈ d.entries.filter fun e => e.1 != key, e.1 ≠ key := by
    intro e he
    simpa using (List.mem_filter.1 he).2
  show (place key value _).lookup k = _
  rw [lookup_place hAbsent, lookup_filter_ne, get?]
  split <;> rfl

def map {β : Type} (f : α → β) (d : Dict α) : Dict β :=
  ⟨d.entries.map fun e => (e.1, f e.2), List.pairwise_map.2 d.sorted⟩

/-- The dictionary of some entries, of which later ones replace earlier ones of the same key. -/
def ofList (entries : List (String × α)) : Dict α :=
  entries.foldr (fun e d => d.add e.1 e.2) empty

theorem place_of_forall_lt {key : String} {value : α} {es : List (String × α)}
    (h : ∀ e ∈ es, key < e.1) : place key value es = (key, value) :: es := by
  cases es with
  | nil => rfl
  | cons e es => rw [place, if_pos (h e List.mem_cons_self)]

theorem ofList_entries (d : Dict α) : ofList d.entries = d := by
  have hEntries : ∀ es : List (String × α), es.Pairwise (fun a b => a.1 < b.1) →
      (ofList es).entries = es := by
    intro es hSorted
    induction es with
    | nil => rfl
    | cons e es ih =>
      obtain ⟨hFirst, hRest⟩ := List.pairwise_cons.1 hSorted
      change place e.1 e.2 (ofList es).entries = e :: es
      rw [ih hRest, place_of_forall_lt hFirst]
  have hEq := hEntries d.entries d.sorted
  generalize ofList d.entries = other at hEq
  cases other
  cases d
  cases hEq
  rfl

/-- The dictionary of some entries, of which the first one of each key counts. -/
def ofFirst (entries : List (String × α)) : Dict α :=
  entries.foldl (fun d e => d.add e.1 e.2) empty

theorem get?_ofFirst (entries : List (String × α)) (k : String) :
    (ofFirst entries).get? k = entries.lookup k := by
  have hFold : ∀ d : Dict α, (entries.foldl (fun d e => d.add e.1 e.2) d).get? k =
      (d.get? k).or (entries.lookup k) := by
    induction entries with
    | nil => simp
    | cons e entries ih =>
      intro d
      rw [List.foldl_cons, ih, get?_add, Option.or_assoc, lookup_cons_eq_ite]
      split <;> rfl
  rw [ofFirst, hFold]
  rfl

end Dict

end Highlighter
