import Highlighter.Proofs.Grammar.Faithful
import Highlighter.Proofs.Scan.Loops
import Highlighter.Proofs.Scan.Stack

/-! When scanning never comes upon a broken pattern. That each pattern of a machine has been checked
does not suffice: a mode that ends with the one around it is searched for by an end that is put
together from two, and a pattern that names groups is read differently among the terminators of a
mode, where its other groups capture as well. Nothing else can go wrong. -/

namespace Highlighter

open Text Pattern

namespace Pattern

/-- Reading a pattern comes upon a group with a name. -/
def namesGroups (ignoreCase : Bool) (pattern : List Char) : Bool :=
  match (Reader.start ⟨ignoreCase, false, false⟩).run pattern.length pattern with
  | .ok reader => !reader.names.isEmpty
  | .error _ => false

/-- Where no group has a name, it is of no matter what such groups would do to the others. -/
theorem compile_eq_of_not_namesGroups {ignoreCase : Bool} {pattern : List Char}
    (h : namesGroups ignoreCase pattern = false) (captureAll captureAll' : Bool) :
    compile ⟨ignoreCase, captureAll⟩ pattern =
      compile ⟨ignoreCase, captureAll'⟩ pattern := by
  have hTree : readTree ⟨ignoreCase, captureAll⟩ pattern =
      readTree ⟨ignoreCase, captureAll'⟩ pattern := by
    unfold readTree
    unfold namesGroups at h
    cases hRun : (Reader.start ⟨ignoreCase, false, false⟩).run pattern.length pattern with
    | error e => rfl
    | ok reader =>
      have hNames : reader.names = [] := by simpa [hRun] using h
      simp only [bind, Except.bind, hNames, List.isEmpty_nil, Bool.not_true, Bool.false_and]
  unfold compile
  rw [hTree]

end Pattern

namespace Machine

/-- What ends the text of a mode within others: the end that it resolves to depends on the modes
around it, which may be nested to any depth. -/
inductive EndsOn (m : Machine) : Nat → Option String → Prop
  | root : EndsOn m root none
  | within {around id : Nat} {closing : Option String} (h : EndsOn m around closing)
    (hWithin : id ∈ (m.mode around).contains) : EndsOn m id (m.terminatorEnd id closing)

/-- A pattern is put together from the end of a mode and that of one around it. -/
def Joins (m : Machine) (pattern : String) : Prop :=
  ∃ around parent id own, m.EndsOn around (some parent) ∧ id ∈ (m.mode around).contains ∧
    (m.mode id).closesWithParent = true ∧ (m.mode id).closing.map m.pattern = some own ∧
    pattern = "(?:" ++ own ++ ")|(?:" ++ parent ++ ")"

/-- A pattern has a program among the terminators of a mode. -/
def Searchable (m : Machine) (pattern : String) : Prop :=
  ∃ program,
    Pattern.compile ⟨m.caseInsensitive, true⟩ (asciiClasses pattern).toList = .ok program

/-- The patterns of a machine go together. -/
structure Compatible (m : Machine) : Prop where
  /-- The end of a mode goes together with that of a mode around it. -/
  joins : ∀ pattern, m.Joins pattern → m.Searchable pattern
  /-- The groups of a pattern may capture beside those that it names. -/
  names : ∀ r ∈ m.regexes, namesGroups m.caseInsensitive (asciiClasses r.pattern).toList =
    true → m.Searchable r.pattern

/-- The patterns of a machine have been checked one by one. -/
def Checked (m : Machine) : Prop :=
  ∀ r ∈ m.regexes, r.ignoreCase = m.caseInsensitive ∧ r.fault? = none

variable {m : Machine}

theorem EndsOn.mem_of_closed {ends : List (Nat × Option String)}
    (hRoot : (Machine.root, none) ∈ ends) (hClosed : ∀ e ∈ ends,
      ∀ id ∈ (m.mode e.1).contains, (id, m.terminatorEnd id e.2) ∈ ends) {id : Nat}
    {closing : Option String} (h : m.EndsOn id closing) : (id, closing) ∈ ends := by
  induction h with
  | root => exact hRoot
  | within _ hWithin ih => exact hClosed _ ih _ hWithin

theorem Joins.exists_endsOn {pattern : String} (h : m.Joins pattern) :
    ∃ id, m.EndsOn id (some pattern) := by
  obtain ⟨around, parent, id, own, hAround, hWithin, hWith, hOwn, rfl⟩ := h
  refine ⟨id, ?_⟩
  have hEnd :
      m.terminatorEnd id (some parent) = some ("(?:" ++ own ++ ")|(?:" ++ parent ++ ")") := by
    unfold terminatorEnd
    dsimp only
    rw [if_pos hWith, hOwn]
  rw [← hEnd]
  exact .within hAround hWithin

/-- Where modes resolve to few ends, it can be checked that patterns go together. -/
theorem compatible_of_closed (ends : List (Nat × Option String)) (hRoot : (root, none) ∈ ends)
    (hClosed : ∀ e ∈ ends, ∀ id ∈ (m.mode e.1).contains,
      (id, m.terminatorEnd id e.2) ∈ ends) (hEnds : ∀ e ∈ ends, ∀ pattern ∈ e.2.toList,
      (Pattern.compile ⟨m.caseInsensitive, true⟩ (asciiClasses pattern).toList).toOption.isSome)
    (hNames : ∀ r ∈ m.regexes.toList,
      namesGroups m.caseInsensitive (asciiClasses r.pattern).toList = true → (Pattern.compile
      ⟨m.caseInsensitive, true⟩ (asciiClasses r.pattern).toList).toOption.isSome) :
    m.Compatible := by
  have hSearchable : ∀ pattern : String, (Pattern.compile ⟨m.caseInsensitive, true⟩
      (asciiClasses pattern).toList).toOption.isSome → m.Searchable pattern :=
    fun pattern hSome => ⟨_, Grammar.eq_ok_get hSome⟩
  refine ⟨fun pattern hJoins => ?_, fun r hMem hNaming => ?_⟩
  · obtain ⟨id, hEndsOn⟩ := hJoins.exists_endsOn
    exact hSearchable pattern
      (hEnds _ (hEndsOn.mem_of_closed hRoot hClosed) pattern (Option.mem_toList.2 rfl))
  · exact hSearchable _ (hNames r (Array.mem_toList_iff.2 hMem) hNaming)

theorem terminatorEnd_cases {id : Nat} {parent : Option String} {pattern : String}
    (h : m.terminatorEnd id parent = some pattern) :
    (∃ regex, pattern = m.pattern regex) ∨ parent = some pattern ∨
      ∃ own around, (m.mode id).closesWithParent = true ∧
        (m.mode id).closing.map m.pattern = some own ∧
        parent = some around ∧ pattern = "(?:" ++ own ++ ")|(?:" ++ around ++ ")" := by
  have hOwn : (m.mode id).closing.map m.pattern = some pattern →
      ∃ regex, pattern = m.pattern regex := by
    intro hOwn
    obtain ⟨regex, -, rfl⟩ := Option.map_eq_some_iff.1 hOwn
    exact ⟨regex, rfl⟩
  unfold terminatorEnd at h
  dsimp only at h
  split at h
  · next hWith =>
    split at h
    · next own around hClosing =>
      cases h
      exact .inr (.inr ⟨own, around, hWith, hClosing, rfl, rfl⟩)
    · exact .inr (.inl h)
    · exact .inl (hOwn h)
  · exact .inl (hOwn h)

theorem EndsOn.pattern_or_joins {id : Nat} {pattern : String} (h : m.EndsOn id (some pattern)) :
    (∃ regex, pattern = m.pattern regex) ∨ m.Joins pattern := by
  generalize hClosing : some pattern = closing at h
  induction h with
  | root => cases hClosing
  | @within around id parent hAround hWithin ih =>
    rcases terminatorEnd_cases hClosing.symm with
      hOwn | rfl | ⟨own, closing, hWith, hOwn, rfl, hEq⟩
    · exact .inl hOwn
    · exact ih rfl
    · exact .inr ⟨around, closing, id, own, hAround, hWithin, hWith, hOwn, hEq⟩

theorem EndsOn.pattern_or_joins_of_mem {id : Nat} {closing : Option String}
    (h : m.EndsOn id closing) {t : Terminator × String} (ht : t ∈ m.terminators id closing) :
    (∃ regex, t.2 = m.pattern regex) ∨ m.Joins t.2 := by
  simp only [terminators, List.mem_append, List.mem_filterMap, Option.mem_toList,
    Option.map_eq_some_iff] at ht
  rcases ht with (⟨child, -, regex, -, rfl⟩ | ⟨pattern, rfl, rfl⟩) | ⟨regex, -, rfl⟩
  · exact .inl ⟨regex, rfl⟩
  · exact h.pattern_or_joins
  · exact .inl ⟨regex, rfl⟩

namespace Compatible

theorem searchable_pattern (h : m.Compatible) (hChecked : m.Checked) (regex : Nat) :
    m.Searchable (m.pattern regex) := by
  cases hRegex : m.regexes[regex]? with
  | none =>
    have hPattern : m.pattern regex = "" := by simp [pattern, hRegex]
    rw [hPattern]
    exact ⟨_, rfl⟩
  | some r =>
    have hPattern : m.pattern regex = r.pattern := by simp [pattern, hRegex]
    have hMem := Array.mem_of_getElem? hRegex
    rw [hPattern]
    cases hNames : namesGroups m.caseInsensitive (asciiClasses r.pattern).toList with
    | true => exact h.names r hMem hNames
    | false =>
      -- Without names, the pattern is read here just as when it was checked.
      obtain ⟨hCase, hSound⟩ := hChecked r hMem
      unfold Searchable
      rw [compile_eq_of_not_namesGroups hNames true false, ← hCase, ← r.program_eq]
      unfold Regex.fault? at hSound
      split at hSound
      · cases hSound
      · next program hProgram => exact ⟨program, hProgram⟩

/-- Each set of terminators that a scan may search for has its programs. -/
theorem exists_setOf_eq_ok (h : m.Compatible) (hChecked : m.Checked) {id : Nat}
    {closing : Option String} (hEnds : m.EndsOn id closing) :
    ∃ set, m.setOf (id, closing) = .ok set := by
  cases hSet : m.setOf (id, closing) with
  | ok set => exact ⟨set, rfl⟩
  | error e =>
    obtain ⟨fault, -, t, ht, hFault⟩ := exists_of_terminatorSet_eq_error hSet
    have hSearchable : m.Searchable t.2 := by
      rcases hEnds.pattern_or_joins_of_mem ht with ⟨regex, hPattern⟩ | hJoins
      · rw [hPattern]
        exact h.searchable_pattern hChecked regex
      · exact h.joins _ hJoins
    obtain ⟨program, hProgram⟩ := hSearchable
    rw [hProgram] at hFault
    cases hFault

end Compatible

end Machine

namespace Scan

variable {m : Machine}

/-- The open modes of a scan end on what they resolve to where they stand. -/
def EndsNested (m : Machine) (s : Scan) : Prop :=
  ∀ frame ∈ s.frames, m.EndsOn frame.mode frame.closing

theorem EndsNested.top {s : Scan} (h : s.EndsNested m) : m.EndsOn s.top.mode s.top.closing := by
  unfold Scan.top
  cases hFrames : s.frames with
  | nil => exact .root
  | cons frame rest => exact h frame (hFrames ▸ List.mem_cons_self)

theorem Reachable.endsNested {text : List Char} {count : Nat} {s : Scan}
    (h : Reachable m text count s) : s.EndsNested m := by
  refine h.forall_frames ?_
  rintro parent id region hParent hWithin -
  have hAround : m.EndsOn parent.mode parent.closing := by
    rcases hParent with rfl | hParent
    · exact .root
    · exact hParent
  exact hAround.within hWithin

theorem step_eq_terminators {s : Scan} {count n : Nat} {fault : PatternError}
    (h : s.step m count = .fails (.terminators n fault)) :
    m.setOf (s.top.mode, s.top.closing) = .error (.terminators n fault) := by
  have hSteps := steps_step m count s
  rw [h] at hSteps
  cases hSteps with
  | broken hSet => exact hSet
  | found _ _ _ hTakes => cases hTakes

end Scan

namespace Grammar

theorem checked_of_compile_eq_ok {g : Grammar} {m : Machine} (h : g.compile = .ok m) :
    m.Checked := by
  have hFault := fault?_of_compile_eq_ok h
  obtain ⟨b, os, hComplete, rfl⟩ := complete_of_assemble_eq_ok (assemble_of_compile_eq_ok h)
  intro r hr
  refine ⟨?_, ?_⟩
  · show r.ignoreCase = g.caseInsensitive
    rw [← hComplete.ready.caseInsensitive]
    exact hComplete.ready.uniform r hr
  · have hMem : r ∈ Machine.allRegexes _ := List.mem_append_left _ (Array.mem_toList_iff.2 hr)
    exact Option.map_eq_none_iff.1 (List.findSome?_eq_none_iff.1 hFault r hMem)

end Grammar

namespace Tokenizer

variable {m : Machine}

theorem tokenize_ne_terminators (hChecked : m.Checked) (hCompatible : m.Compatible)
    (t : Tokenizer m) (text : String) (n : Nat) (fault : PatternError) :
    (t.tokenize text).1 ≠ .error (.terminators n fault) := by
  intro h
  obtain ⟨count, last, hReach, hFails | hRunaway⟩ := exists_reachable_of_tokenize_eq_error h
  · obtain ⟨set, hSet⟩ := hCompatible.exists_setOf_eq_ok hChecked hReach.endsNested.top
    rw [Scan.step_eq_terminators hFails] at hSet
    cases hSet
  · cases hRunaway

end Tokenizer

end Highlighter
