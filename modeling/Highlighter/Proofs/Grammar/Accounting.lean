import Highlighter.Proofs.Grammar.Effective
import Highlighter.Proofs.Grammar.Tracking
import Mathlib.Data.Set.Lattice

/-! Why the construction of a machine succeeds or fails. `Load` is what is asked of the tables, and
`Accounts` says of a step that it asks for a load: either the tables hold what has been asked for so
far, or that is more than they can hold, or a name is not known. -/

namespace Highlighter.Builder

/-- What is asked of tables: places for modes, patterns and keyword tables, and names that are to be
known. The same pattern may be asked for again. -/
@[ext] structure Load where
  modes : Nat
  patterns : List String
  keywordSets : List KeywordIndex
  names : Set String

namespace Load

instance : Zero Load := ⟨⟨0, [], [], ∅⟩⟩

instance : Add Load := ⟨fun l l' =>
  ⟨l.modes + l'.modes, l.patterns ++ l'.patterns, l.keywordSets ++ l'.keywordSets,
    l.names ∪ l'.names⟩⟩

section

variable (l l' : Load)

@[simp] theorem modes_zero : (0 : Load).modes = 0 := rfl
@[simp] theorem patterns_zero : (0 : Load).patterns = [] := rfl
@[simp] theorem keywordSets_zero : (0 : Load).keywordSets = [] := rfl
@[simp] theorem names_zero : (0 : Load).names = ∅ := rfl
@[simp] theorem modes_add : (l + l').modes = l.modes + l'.modes := rfl
@[simp] theorem patterns_add : (l + l').patterns = l.patterns ++ l'.patterns := rfl
@[simp] theorem keywordSets_add : (l + l').keywordSets = l.keywordSets ++ l'.keywordSets := rfl
@[simp] theorem names_add : (l + l').names = l.names ∪ l'.names := rfl

end

theorem add_assoc (l l' l'' : Load) : l + l' + l'' = l + (l' + l'') := by
  ext1
  · exact Nat.add_assoc _ _ _
  · exact List.append_assoc _ _ _
  · exact List.append_assoc _ _ _
  · exact Set.union_assoc _ _ _

@[simp] theorem add_zero (l : Load) : l + 0 = l := by ext1 <;> simp

@[simp] theorem zero_add (l : Load) : 0 + l = l := by ext1 <;> simp

def size (l : Load) : Table → Nat
  | .modes => l.modes
  | .regexes => l.patterns.eraseDups.length
  | .keywordSets => l.keywordSets.eraseDups.length

theorem size_le_add (l l' : Load) (table : Table) : l.size table ≤ (l + l').size table := by
  cases table with
  | modes => exact Nat.le_add_right _ _
  | regexes =>
    simp only [size, patterns_add, List.eraseDups_append, List.length_append]
    exact Nat.le_add_right _ _
  | keywordSets =>
    simp only [size, keywordSets_add, List.eraseDups_append, List.length_append]
    exact Nat.le_add_right _ _

end Load

variable {g : Grammar} {l l' : Load} {b : Builder} {α β : Type}

/-- The tables hold a load, and no more. -/
structure Holds (g : Grammar) (l : Load) (b : Builder) : Prop where
  grammar : b.grammar = g.name
  caseInsensitive : b.caseInsensitive = g.caseInsensitive
  modes : b.modes.size = l.modes
  regexes : b.regexes.toList = l.patterns.eraseDups.map (.ofPattern · g.caseInsensitive)
  keywordSets : b.keywordSets.toList = l.keywordSets.eraseDups
  fits : ∀ table, l.size table ≤ tableLimit
  known : ∀ name ∈ l.names, g.Knows (.named name)

/-- An error says what is wrong with a load. -/
inductive Blames (g : Grammar) (l : Load) : Error → Prop
  | unknown {name : String} (hAsked : name ∈ l.names) (hUnknown : ¬ g.Knows (.named name)) :
    Blames g l (.unknownMode g.name name)
  | tooLarge {table : Table} (hLarge : tableLimit < l.size table) :
      Blames g l (.tooLarge g.name table)

theorem Blames.add {e : Error} (h : Blames g l e) (l' : Load) : Blames g (l + l') e := by
  cases h with
  | unknown hAsked hUnknown => exact .unknown (.inl hAsked) hUnknown
  | tooLarge hLarge => exact .tooLarge (Nat.lt_of_lt_of_le hLarge (l.size_le_add l' _))

/-- A step asks for a load. Where it succeeds, its result is as `post` says. -/
def Accounts (g : Grammar) (x : BuilderM α) (l : Load) (post : α → Prop) : Prop :=
  ∀ ⦃before b⦄, Holds g before b →
    (∃ a b', Runs x b a b' ∧ post a ∧ Holds g (before + l) b') ∨
    ∃ e, x.run b = .error e ∧ Blames g (before + l) e

section Rules

variable {post : α → Prop} {post' : β → Prop}

theorem Accounts.pure {a : α} (h : post a) : Accounts g (Pure.pure a) 0 post := by
  intro before b hHolds
  rw [Load.add_zero]
  exact .inl ⟨a, b, runs_pure.2 ⟨rfl, rfl⟩, h, hHolds⟩

theorem Accounts.bind {x : BuilderM α} {f : α → BuilderM β} (h : Accounts g x l post)
    (hRest : ∀ a, post a → Accounts g (f a) l' post') :
    Accounts g (x >>= f) (l + l') post' := by
  intro before b hHolds
  rw [← Load.add_assoc]
  rcases h hHolds with ⟨a, b1, hx, hPost, hHolds1⟩ | ⟨e, hx, hBlames⟩
  · rcases hRest a hPost hHolds1 with ⟨r, b2, hf, hPost', hHolds2⟩ | ⟨e, hf, hBlames⟩
    · exact .inl ⟨r, b2, runs_bind.2 ⟨a, b1, hx, hf⟩, hPost', hHolds2⟩
    · refine .inr ⟨e, ?_, hBlames⟩
      rw [StateT.run_bind, show x.run b = _ from hx]
      exact hf
  · refine .inr ⟨e, ?_, hBlames.add l'⟩
    rw [StateT.run_bind, hx]
    rfl

theorem Accounts.bind_pure {x : BuilderM α} {f : α → β} (h : Accounts g x l post)
    (hPost : ∀ a, post a → post' (f a)) :
    Accounts g (x >>= fun a => Pure.pure (f a)) l post' := by
  have hBind := h.bind fun a ha => Accounts.pure (g := g) (hPost a ha)
  rwa [Load.add_zero] at hBind

theorem Accounts.map {x : BuilderM α} {f : α → β} (h : Accounts g x l post)
    (hPost : ∀ a, post a → post' (f a)) : Accounts g (f <$> x) l post' := by
  rw [map_eq_pure_bind]
  exact h.bind_pure hPost

end Rules

/-! ### Tables -/

section Entries

theorem eraseDups_concat {γ : Type} [BEq γ] [LawfulBEq γ] (xs : List γ) (x : γ) :
    (xs ++ [x]).eraseDups = if x ∈ xs then xs.eraseDups else xs.eraseDups ++ [x] := by
  rw [List.eraseDups_append]
  by_cases hx : x ∈ xs
  · simp [List.removeAll, hx]
  · simp [List.removeAll, hx, List.eraseDups_cons]

theorem run_reserve (n : Nat) (b : Builder) :
    (reserve n).run b =
      if b.modes.size + n ≤ tableLimit then
        .ok (List.range' b.modes.size n,
          { b with modes :=
              (List.range' b.modes.size n).foldl (fun modes id => modes.push { id }) b.modes })
      else .error (.tooLarge b.grammar .modes) := by
  show (if b.modes.size + n ≤ tableLimit then _ else _ : BuilderM (List Nat)).run b = _
  split <;> rfl

theorem run_checkPlace (place : Nat) (table : Table) (b : Builder) :
    (checkPlace place table).run b =
      if place < tableLimit then .ok (place, b) else .error (.tooLarge b.grammar table) := by
  unfold checkPlace
  split <;> rfl

theorem run_enterAt (table : Table) (found : Option Nat) (size : Nat) (entered b : Builder) :
    (enterAt table found size entered).run b =
      match found with
      | some place =>
        if place < tableLimit then .ok (place, b) else .error (.tooLarge b.grammar table)
      | none =>
        if size < tableLimit then .ok (size, entered)
        else .error (.tooLarge b.grammar table) := by
  cases found with
  | some place => exact run_checkPlace _ _ _
  | none =>
    rw [enterAt, StateT.run_bind, run_checkPlace]
    dsimp only
    split <;> rfl

theorem accounts_reserve (n : Nat) :
    Accounts g (reserve n) ⟨n, [], [], ∅⟩ fun ids => ids.length = n := by
  intro before b hHolds
  have hSize := hHolds.modes
  unfold Runs
  rw [run_reserve]
  by_cases hRoom : b.modes.size + n ≤ tableLimit
  · rw [if_pos hRoom]
    refine .inl ⟨_, _, rfl, List.length_range',
      ⟨hHolds.grammar, hHolds.caseInsensitive, ?_, ?_, ?_, ?_, ?_⟩⟩
    · rw [size_foldl_push, List.length_range', hSize]
      rfl
    · simpa using hHolds.regexes
    · simpa using hHolds.keywordSets
    · intro table
      cases table with
      | modes => rwa [hSize] at hRoom
      | regexes => simpa [Load.size] using hHolds.fits .regexes
      | keywordSets => simpa [Load.size] using hHolds.fits .keywordSets
    · simpa using hHolds.known
  · rw [if_neg hRoom, hHolds.grammar]
    refine .inr ⟨_, rfl, .tooLarge ?_⟩
    rw [hSize] at hRoom
    exact Nat.lt_of_not_le hRoom

/-- The tables hold what has been asked for before, as long as the names are known. -/
theorem Holds.congr (h : Holds g l b) (hModes : l'.modes = l.modes)
    (hPatterns : l'.patterns.eraseDups = l.patterns.eraseDups)
    (hSets : l'.keywordSets.eraseDups = l.keywordSets.eraseDups)
    (hKnown : ∀ name ∈ l'.names, g.Knows (.named name)) : Holds g l' b := by
  refine ⟨h.grammar, h.caseInsensitive, ?_, ?_, ?_, ?_, hKnown⟩
  · rw [h.modes, hModes]
  · rw [h.regexes, hPatterns]
  · rw [h.keywordSets, hSets]
  · intro table
    have hFits := h.fits table
    cases table with
    | modes => rwa [Load.size, hModes]
    | regexes => rwa [Load.size, hPatterns]
    | keywordSets => rwa [Load.size, hSets]

theorem findIdx?_entered {γ δ : Type} [BEq γ] [LawfulBEq γ] {table : Array δ} {xs : List γ}
    {f : γ → δ} {x : γ} (key : δ → Bool) (hTable : table.toList = xs.eraseDups.map f)
    (hKey : ∀ y, key (f y) = (y == x)) : match table.findIdx? key with
    | some place => x ∈ xs ∧ place < table.size
    | none => x ∉ xs := by
  cases hFound : table.findIdx? key with
  | some place =>
    obtain ⟨hLt, hEntry, -⟩ := Array.findIdx?_eq_some_iff_getElem.1 hFound
    have hPlace := Array.getElem_mem_toList hLt
    rw [hTable] at hPlace
    obtain ⟨y, hy, hEq⟩ := List.mem_map.1 hPlace
    rw [← hEq, hKey, beq_iff_eq] at hEntry
    rw [hEntry] at hy
    exact ⟨List.mem_eraseDups.1 hy, hLt⟩
  | none =>
    intro hMem
    have hEntry : f x ∈ table.toList := by
      rw [hTable]
      exact List.mem_map_of_mem (List.mem_eraseDups.2 hMem)
    have hDiffers := Array.findIdx?_eq_none_iff.1 hFound _ (Array.mem_def.2 hEntry)
    rw [hKey, beq_self_eq_true] at hDiffers
    cases hDiffers

/-- What is asked for is in its table already, or makes the table larger by one entry. -/
theorem accounts_enterAt {x : BuilderM Nat} {table : Table} {found : Builder → Option Nat}
    {size : Builder → Nat} {entered : Builder → Builder}
    (hEq : x = get >>= fun b => enterAt table (found b) (size b) (entered b))
    (h : ∀ ⦃before b⦄, Holds g before b → match found b with
      | some place => place < tableLimit ∧ Holds g (before + l) b
      | none => (before + l).size table = size b + 1 ∧
          (size b < tableLimit → Holds g (before + l) (entered b))) :
    Accounts g x l fun _ => True := by
  intro before b hHolds
  have hEntry := h hHolds
  have hRun : x.run b = (enterAt table (found b) (size b) (entered b)).run b := by
    rw [hEq]
    rfl
  unfold Runs
  rw [hRun, run_enterAt]
  split at hEntry
  · next place _ => exact .inl ⟨place, b, if_pos hEntry.1, trivial, hEntry.2⟩
  · by_cases hRoom : size b < tableLimit
    · exact .inl ⟨_, _, if_pos hRoom, trivial, hEntry.2 hRoom⟩
    · refine .inr ⟨_, if_neg hRoom, ?_⟩
      rw [hHolds.grammar]
      exact .tooLarge (by rw [hEntry.1]; omega)

theorem accounts_enterPattern (pattern : String) :
    Accounts g (enterPattern pattern) ⟨0, [pattern], [], ∅⟩ fun _ => True := by
  refine accounts_enterAt (enterPattern_eq pattern) fun before b hHolds => ?_
  have hSize : b.regexes.size = before.patterns.eraseDups.length := by
    rw [← Array.length_toList, hHolds.regexes, List.length_map]
  have hLimit : before.patterns.eraseDups.length ≤ tableLimit := hHolds.fits .regexes
  have hEntered := eraseDups_concat before.patterns pattern
  have hSearch := findIdx?_entered (·.pattern == pattern) hHolds.regexes fun _ => rfl
  split at hSearch
  · rw [if_pos hSearch.1] at hEntered
    refine ⟨by omega, hHolds.congr rfl hEntered ?_ ?_⟩
    · simp
    · simpa using hHolds.known
  · rw [if_neg hSearch] at hEntered
    have hGrown : (before + ⟨0, [pattern], [], ∅⟩).size .regexes = b.regexes.size + 1 := by
      rw [hSize]
      simpa [Load.size] using congrArg List.length hEntered
    refine ⟨hGrown,
      fun hRoom => ⟨hHolds.grammar, hHolds.caseInsensitive, hHolds.modes, ?_, ?_, ?_, ?_⟩⟩
    · rw [Load.patterns_add, hEntered, Array.toList_push, hHolds.regexes, hHolds.caseInsensitive,
        List.map_append]
      rfl
    · simpa using hHolds.keywordSets
    · intro table
      cases table with
      | modes => exact hHolds.fits .modes
      | regexes => rwa [hGrown]
      | keywordSets => simpa [Load.size] using hHolds.fits .keywordSets
    · simpa using hHolds.known

theorem accounts_enterKeywords (keywords : Keywords) :
    Accounts g (enterKeywords keywords) ⟨0, [], [keywords.index g.caseInsensitive], ∅⟩
      fun _ => True := by
  refine accounts_enterAt (enterKeywords_eq keywords) fun before b hHolds => ?_
  have hSize : b.keywordSets.size = before.keywordSets.eraseDups.length := by
    rw [← Array.length_toList, hHolds.keywordSets]
  have hLimit : before.keywordSets.eraseDups.length ≤ tableLimit := hHolds.fits .keywordSets
  have hEntered := eraseDups_concat before.keywordSets (keywords.index g.caseInsensitive)
  have hTable : b.keywordSets.toList = before.keywordSets.eraseDups.map id := by
    rw [hHolds.keywordSets, List.map_id]
  have hSearch := findIdx?_entered (· == keywords.index g.caseInsensitive) hTable fun _ => rfl
  rw [hHolds.caseInsensitive]
  split at hSearch
  · rw [if_pos hSearch.1] at hEntered
    refine ⟨by omega, hHolds.congr rfl ?_ hEntered ?_⟩
    · simp
    · simpa using hHolds.known
  · rw [if_neg hSearch] at hEntered
    have hGrown :
        (before + ⟨0, [], [keywords.index g.caseInsensitive], ∅⟩).size .keywordSets =
          b.keywordSets.size + 1 := by
      rw [hSize]
      simpa [Load.size] using congrArg List.length hEntered
    refine ⟨hGrown, fun hRoom => ⟨hHolds.grammar, rfl, hHolds.modes, ?_, ?_, ?_, ?_⟩⟩
    · simpa using hHolds.regexes
    · rw [Load.keywordSets_add, hEntered, Array.toList_push, hHolds.keywordSets]
    · intro table
      cases table with
      | modes => exact hHolds.fits .modes
      | regexes => simpa [Load.size] using hHolds.fits .regexes
      | keywordSets => rwa [hGrown]
    · simpa using hHolds.known

theorem accounts_enterOptional {γ : Type} {enter : γ → BuilderM Nat} (load : Option γ → Load)
    (hNone : load none = 0) (hSome : ∀ a, Accounts g (enter a) (load (some a)) fun _ => True)
    (o : Option γ) : Accounts g (enterOptional enter o) (load o) fun _ => True := by
  cases o with
  | none =>
    rw [hNone]
    exact .pure trivial
  | some a => exact (hSome a).bind_pure fun _ _ => trivial

theorem accounts_modify {f : Builder → Builder} (h : ∀ l b, Holds g l b → Holds g l (f b)) :
    Accounts g (modify f) 0 fun _ => True := by
  intro before b hHolds
  rw [Load.add_zero]
  exact .inl ⟨⟨⟩, _, runs_modify.2 rfl, trivial, h before b hHolds⟩

theorem Holds.setMode (h : Holds g l b) (id : Nat) (mode : Mode) :
    Holds g l { b with modes := b.modes.setIfInBounds id mode } :=
  { h with modes := Array.size_setIfInBounds.trans h.modes }

end Entries

/-! ### Modes -/

namespace Load

def ofSettings (g : Grammar) (isRoot : Bool) (s : ModeSettings) : Load :=
  ⟨0, if isRoot then s.illegal.toList else s.patterns,
    s.keywordTable.toList.map (·.index g.caseInsensitive), ∅⟩

def ofRules (g : Grammar) (refs : List ModeRef) (rules : List ModeRule) : Load :=
  ⟨rules.length, rules.flatMap (·.settings.patterns),
    (rules.filterMap (·.settings.keywordTable)).map (·.index g.caseInsensitive),
    {name | .named name ∈ refs ∨ ∃ rule ∈ rules, .named name ∈ rule.entries}⟩

def ofRefs (g : Grammar) (refs : List ModeRef) : Load := ofRules g refs (ModeRef.effectiveAll refs)

def places (n : Nat) : Load := ⟨n, [], [], ∅⟩

def ofFilling (g : Grammar) : List ModeRule → Load
  | [] => 0
  | rule :: rules => ofSettings g false rule.settings + ofRefs g rule.entries + ofFilling g rules

theorem places_add_comm (n : Nat) (l : Load) : places n + l = l + places n := by
  ext1
  · exact Nat.add_comm _ _
  · simp [places]
  · simp [places]
  · simp [places]

theorem places_add_places (n n' : Nat) : places n + places n' = places (n + n') := by
  ext1 <;> simp [places]

theorem ofRules_append (refs refs' : List ModeRef) (rules rules' : List ModeRule) :
    ofRules g (refs ++ refs') (rules ++ rules') =
      ofRules g refs rules + ofRules g refs' rules' := by
  ext1
  · simp [ofRules]
  · simp [ofRules]
  · simp [ofRules]
  · ext name
    simp only [ofRules, names_add, Set.mem_union, Set.mem_ofPred_eq, List.mem_append,
      or_and_right, exists_or]
    exact or_or_or_comm

theorem ofRules_cons (rule : ModeRule) :
    ofRules g [] (rule :: ModeRef.effectiveAll rule.entries) =
      places 1 + (ofSettings g false rule.settings + ofRefs g rule.entries) := by
  ext1
  · simp [ofRules, ofRefs, places, ofSettings, Nat.add_comm]
  · simp [ofRules, ofRefs, places, ofSettings]
  · cases hTable : rule.settings.keywordTable
      <;> simp [ofRules, ofRefs, places, ofSettings, hTable]
  · simp [ofRules, ofRefs, places, ofSettings]

theorem ofRefs_cons (ref : ModeRef) (refs : List ModeRef) :
    ofRefs g (ref :: refs) = ofRules g [ref] ref.effective + ofRefs g refs := by
  rw [ofRefs, ModeRef.effectiveAll, ← List.singleton_append, ofRules_append]
  rfl

/-- The places that have been set aside are those of the modes that are filled. -/
theorem places_add_ofFilling (rules : List ModeRule) :
    places rules.length + ofFilling g rules =
      ofRules g [] (rules.flatMap fun rule => rule :: ModeRef.effectiveAll rule.entries) := by
  induction rules with
  | nil => ext1 <;> simp [places, ofFilling, ofRules]
  | cons rule rules ih =>
    have hSplit : ofRules g [] ((rule :: ModeRef.effectiveAll rule.entries) ++ _) = _ :=
      ofRules_append [] [] _ (rules.flatMap fun rule => rule :: ModeRef.effectiveAll rule.entries)
    rw [List.flatMap_cons, hSplit, ← ih, ofRules_cons, ofFilling]
    generalize ofSettings g false rule.settings + ofRefs g rule.entries = own
    calc places (rules.length + 1) + (own + ofFilling g rules)
      _ = places 1 + (places rules.length + own) + ofFilling g rules := by
        rw [Nat.add_comm, ← places_add_places]
        simp only [add_assoc]
      _ = places 1 + own + (places rules.length + ofFilling g rules) := by
        rw [places_add_comm rules.length]
        simp only [add_assoc]

theorem ofFilling_append (rules rules' : List ModeRule) :
    ofFilling g (rules ++ rules') = ofFilling g rules + ofFilling g rules' := by
  induction rules with
  | nil => exact (zero_add _).symm
  | cons rule rules ih =>
    rw [List.cons_append, ofFilling, ofFilling, ih]
    simp only [add_assoc]

end Load

section Modes

open Load

variable {named : List (String × List Nat)}

theorem accounts_enterOpening (s : ModeSettings) :
    Accounts g (enterOpening false s) ⟨0, [s.openingPattern], [], ∅⟩ fun _ => True :=
  (accounts_enterPattern _).map fun _ _ => trivial

theorem accounts_enterClosing (s : ModeSettings) :
    Accounts g (enterClosing false s) ⟨0, s.closingPattern.toList, [], ∅⟩ fun _ => True := by
  unfold enterClosing ModeSettings.closingPattern
  cases s.closing with
  | some pattern => exact (accounts_enterPattern pattern).map fun _ _ => trivial
  | none =>
    cases s.closesWithParent.getD false with
    | true => exact .pure trivial
    | false => exact (accounts_enterPattern immediateEnd).map fun _ _ => trivial

theorem accounts_fill {id : Nat} {isRoot : Bool} {s : ModeSettings}
    {contains : Nat → BuilderM (List Nat)} (hRoot : isRoot = true → s.closing = none)
    (h : Accounts g (contains id) l fun _ => True) :
    Accounts g (fill id isRoot s contains) (ofSettings g isRoot s + l) fun _ => True := by
  have hOpening : Accounts g (enterOpening isRoot s)
      ⟨0, if isRoot then [] else [s.openingPattern], [], ∅⟩ fun _ => True := by
    cases isRoot with
    | true => exact .pure trivial
    | false => exact accounts_enterOpening s
  have hClosing : Accounts g (enterClosing isRoot s)
      ⟨0, if isRoot then [] else s.closingPattern.toList, [], ∅⟩ fun _ => True := by
    cases isRoot with
    | true =>
      unfold enterClosing
      rw [hRoot rfl]
      exact .pure trivial
    | false => exact accounts_enterClosing s
  have hKeywords := accounts_enterOptional (g := g)
    (fun o => ⟨0, [], o.toList.map (·.index g.caseInsensitive), ∅⟩) rfl
      accounts_enterKeywords s.keywordTable
  have hIllegal := accounts_enterOptional (g := g)
    (fun o => ⟨0, o.toList, [], ∅⟩) rfl accounts_enterPattern s.illegal
  -- The load of the settings, taken apart in the order in which they are entered.
  have hLoad : ofSettings g isRoot s + l =
      ⟨0, if isRoot then [] else [s.openingPattern], [], ∅⟩ +
        (⟨0, if isRoot then [] else s.closingPattern.toList, [], ∅⟩ +
          (⟨0, [], s.keywordTable.toList.map (·.index g.caseInsensitive), ∅⟩ +
            (⟨0, s.illegal.toList, [], ∅⟩ + (l + 0)))) := by
    cases isRoot with
    | true => ext1 <;> simp [ofSettings]
    | false => ext1 <;> simp [ofSettings, ModeSettings.patterns]
  rw [hLoad]
  refine hOpening.bind fun opening _ => hClosing.bind fun closing _ => ?_
  refine hKeywords.bind fun keywords _ => hIllegal.bind fun illegal _ => ?_
  exact h.bind fun contains _ => accounts_modify fun l b hHolds => hHolds.setMode id _

theorem accounts_fillEach {ids : List Nat} {rules : List ModeRule}
    (hIds : ids.length = rules.length) (h : ∀ rule ∈ rules, ∀ id,
      Accounts g (enterContents named id rule.contains) (ofRefs g rule.entries) fun _ => True) :
    Accounts g (fillEach named ids rules) (ofFilling g rules) fun _ => True := by
  induction rules generalizing ids with
  | nil =>
    obtain rfl := List.length_eq_zero_iff.1 hIds
    exact .pure trivial
  | cons rule rules ih =>
    obtain ⟨id, ids, rfl⟩ := List.exists_cons_of_length_eq_add_one hIds
    obtain ⟨hRule, hRules⟩ := List.forall_mem_cons.1 h
    have hFill : Accounts g (fill id false rule.settings (enterContents named · rule.contains))
        (ofSettings g false rule.settings + ofRefs g rule.entries) fun _ => True :=
      accounts_fill (absurd · Bool.false_ne_true) (hRule id)
    exact hFill.bind fun _ _ => ih (Nat.succ.inj hIds) hRules

/-- The places of named modes are those of the modes of a grammar. -/
def Names (g : Grammar) (named : List (String × List Nat)) : Prop :=
  ∀ name, (named.lookup name).isSome = (g.modes.get? name).isSome

theorem enterContents_eq (self : Nat) (rule : ModeRule) :
    enterContents named self rule.contains = enterRefs named self [] rule.entries := by
  unfold ModeRule.entries
  cases rule.contains with
  | none => simp [enterContents, enterRefs]
  | some refs => simp [enterContents]

theorem accounts_known {a : α} {names : Set String}
    (h : ∀ name ∈ names, g.Knows (.named name)) :
    Accounts g (Pure.pure a) ⟨0, [], [], names⟩ fun _ => True := by
  intro before b hHolds
  refine .inl ⟨a, b, runs_pure.2 ⟨rfl, rfl⟩, trivial, hHolds.congr rfl ?_ ?_ ?_⟩
  · simp
  · simp
  · rintro name (hName | hName)
    · exact hHolds.known name hName
    · exact h name hName

theorem accounts_enterRef_named (hNames : Names g named) (name : String) (self : Nat) :
    Accounts g (enterRef named self (.named name)) ⟨0, [], [], {name}⟩ fun _ => True := by
  have hKnows : (named.lookup name).isSome →
      ∀ n ∈ ({name} : Set String), g.Knows (.named n) := by
    rintro hFound n rfl
    rw [hNames] at hFound
    exact .inr hFound
  rw [enterRef]
  split
  · next hSelf =>
    apply accounts_known
    rintro n rfl
    exact .inl hSelf
  · next hSelf =>
    split
    · next hFound => exact accounts_known (hKnows (by rw [hFound]; rfl))
    · next hMissing =>
      intro before b hHolds
      refine .inr ⟨.unknownMode b.grammar name, rfl, ?_⟩
      rw [hHolds.grammar]
      refine .unknown (.inr rfl) ?_
      rintro (hEq | hFound)
      · exact hSelf hEq
      · rw [← hNames, hMissing] at hFound
        cases hFound

theorem accounts_fillAll {ids : List Nat} {rule : ModeRule}
    (hIds : ids.length = rule.expandedLength) (h : ∀ r ∈ rule.expanded, ∀ self done,
      Accounts g (enterRefs named self done r.entries) (ofRefs g r.entries) fun _ => True) :
    Accounts g (fillAll named ids rule) (ofFilling g rule.expanded) fun _ => True := by
  have hLength : ids.length = rule.expanded.length := by rw [hIds, rule.length_expanded]
  rw [fillAll_eq hIds]
  refine accounts_fillEach hLength fun r hr id => ?_
  rw [enterContents_eq]
  exact h r hr id []

theorem hereditary_accounts (hNames : Names g named) : ModeRef.Hereditary
    (fun refs => ∀ self done, Accounts g (enterRefs named self done refs) (ofRefs g refs) fun _ =>
      True)
    (fun ref => ∀ self, Accounts g (enterRef named self ref) (ofRules g [ref] ref.effective)
      fun _ => True) where
  nil self done := by
    have hEmpty : ofRefs g [] = 0 := by
      ext1 <;> simp [ofRefs, ofRules, ModeRef.effectiveAll]
    rw [enterRefs, hEmpty]
    exact .pure trivial
  cons ref refs hRef hRefs self done := by
    rw [ofRefs_cons, enterRefs]
    exact (hRef self).bind fun ids _ => hRefs self _
  named name self := by
    have hName :
        ofRules g [.named name] (ModeRef.named name).effective = ⟨0, [], [], {name}⟩ := by
      ext1
      · simp [ofRules, ModeRef.effective]
      · simp [ofRules, ModeRef.effective]
      · simp [ofRules, ModeRef.effective]
      · ext n
        simp [ofRules, ModeRef.effective]
    rw [hName]
    exact accounts_enterRef_named hNames name self
  inline rule hRules self := by
    have hLoad : ofRules g [.inline rule] (ModeRef.inline rule).effective =
        places rule.expandedLength + ofFilling g rule.expanded := by
      rw [← rule.length_expanded, places_add_ofFilling, ModeRef.effective, rule.effective_eq]
      ext1 <;> simp [ofRules]
    rw [enterRef, hLoad]
    exact (accounts_reserve _).bind fun ids hIds =>
      (accounts_fillAll hIds hRules).bind_pure fun _ _ => trivial

/-! ### Grammars -/

theorem accounts_reserveNamed (entries : List (String × ModeRule)) :
    Accounts g (reserveNamed entries) (places (entries.flatMap (·.2.expanded)).length) fun named =>
      List.Forall₂ (fun p e => p.1 = e.1 ∧ Sized p e) named entries := by
  induction entries with
  | nil => exact .pure .nil
  | cons entry entries ih =>
    rw [reserveNamed, List.mapM_cons, List.flatMap_cons, List.length_append, ← places_add_places,
      ModeRule.length_expanded]
    have hReserve : Accounts g (do return (entry.1, ← reserve entry.2.expandedLength))
        (places entry.2.expandedLength) fun p => p.1 = entry.1 ∧ Sized p entry :=
      (accounts_reserve _).bind_pure fun ids hIds => ⟨rfl, hIds⟩
    exact hReserve.bind fun p hp => ih.bind_pure fun named hNamed => .cons hp hNamed

theorem accounts_fillNamed (hNames : Names g named) {places : List (String × List Nat)}
    {entries : List (String × ModeRule)}
    (h : List.Forall₂ (fun p e => p.1 = e.1 ∧ Sized p e) places entries) :
    Accounts g (fillNamed named places entries) (ofFilling g (entries.flatMap (·.2.expanded)))
      fun _ => True := by
  induction h with
  | nil => exact .pure trivial
  | cons hEntry _ ih =>
    rw [fillNamed, List.flatMap_cons, ofFilling_append]
    have hLists := (hereditary_accounts hNames).expanded
    exact (accounts_fillAll hEntry.2 (hLists _)).bind fun _ _ => ih

theorem names_of_forall₂ {entries : List (String × ModeRule)}
    (h : List.Forall₂ (fun p e => p.1 = e.1 ∧ Sized p e) named entries) (name : String) :
    (named.lookup name).isSome = (entries.lookup name).isSome := by
  induction h with
  | nil => rfl
  | cons hEntry _ ih =>
    rw [Dict.lookup_cons_eq_ite, Dict.lookup_cons_eq_ite, hEntry.1]
    split
    · rfl
    · exact ih

/-- What all modes of a grammar ask for. -/
def Load.ofGrammar (g : Grammar) : Load :=
  ⟨g.effective.length, g.patterns, g.keywordSets, {name | g.Refers name}⟩

theorem Load.ofGrammar_eq (g : Grammar) : ofGrammar g =
    places 1 + (places (g.modes.entries.flatMap (·.2.expanded)).length +
      (ofSettings g true g.root.settings + ofRefs g g.contains +
        ofFilling g (g.modes.entries.flatMap (·.2.expanded)))) := by
  have hNamed : (g.modes.entries.flatMap (·.2.expanded)).flatMap
      (fun rule => rule :: ModeRef.effectiveAll rule.entries) =
        g.modes.entries.flatMap fun entry => entry.2.effective := by
    simp only [List.flatMap_assoc, ModeRule.effective_eq]
  have hInner : ofRefs g g.contains + ofRules g []
      (g.modes.entries.flatMap fun e => e.2.effective) = ofRules g g.contains g.inner := by
    rw [Grammar.inner, ofRefs, ← ofRules_append, List.append_nil]
  have hPlaces : places (g.modes.entries.flatMap (·.2.expanded)).length +
      (ofSettings g true g.root.settings + ofRefs g g.contains +
        ofFilling g (g.modes.entries.flatMap (·.2.expanded))) =
      ofSettings g true g.root.settings + ofRules g g.contains g.inner := by
    rw [← add_assoc, places_add_comm, add_assoc, places_add_ofFilling, hNamed, add_assoc, hInner]
  rw [hPlaces]
  ext1
  · simp [ofGrammar, places, ofSettings, ofRules, Grammar.effective, Nat.add_comm]
  · simp [ofGrammar, places, ofSettings, ofRules, Grammar.patterns]
  · cases hTable : g.root.settings.keywordTable <;>
      simp [ofGrammar, places, ofSettings, ofRules, Grammar.keywordSets, Grammar.effective, hTable]
  · ext name
    simp [ofGrammar, places, ofSettings, ofRules, Grammar.Refers, Grammar.effective]

theorem accounts_enterGrammar (g : Grammar) :
    Accounts g (enterGrammar g) (ofGrammar g) fun _ => True := by
  rw [ofGrammar_eq]
  refine (accounts_reserve 1).bind fun _ _ => ?_
  refine (accounts_reserveNamed g.modes.entries).bind fun named hNamed => ?_
  have hNames : Names g named := names_of_forall₂ hNamed
  refine Accounts.bind (accounts_fill (fun _ => rfl) ?_) fun _ _ => accounts_fillNamed hNames hNamed
  rw [enterContents]
  exact (hereditary_accounts hNames).list g.contains Machine.root []

end Modes

end Highlighter.Builder
