import Highlighter.Proofs.Language.Co.Costs

/-! Each text has tokens in Co, unless it is not in the language. -/

namespace Highlighter.Co

open Idiom Pattern

section

variable (m : Machine)

/-- A mode can pay what its role may owe. -/
def solvent (id : Nat) : Bool :=
  match role m id with
  | .plain => debt m id = 0 || gap (m.ownEnd id) = 0
  | .title => !(m.mode id).closesParent
  | .name => !(m.mode id).closesParent && (m.mode id).contains.head?.any (role m · = .title)
  | .signature => (m.ownEnd id).all wordless.contains && (m.mode id).contains.all fun child =>
      role m child = .name || (m.ownStart child).all wordless.contains
  | .functionType => (m.mode id).contains.head?.any fun child =>
      role m child = .plain && m.ownStart child = some "fun"

/-- A mode may open within another one, for all that the latter owes. -/
def affords (id child : Nat) : Bool :=
  match role m child with
  | .plain => (m.ownStart child).all fun pattern =>
      most m id + 2 + reserve m child ≤ 5 * width pattern + debt m child
  | .title => role m id = .name
  | .name => role m id = .signature && !(m.mode child).excludeOpening
  | .signature => role m id = .plain && debt m id = 0 && !(m.mode child).excludeOpening &&
      m.ownStart child = some signatureOpening
  | .functionType => role m id = .plain && debt m id = 0 && !(m.mode child).excludeOpening

/-- All modes of a machine are paid for. -/
def balanced : Bool :=
  (m.mode Machine.root).closing = none && (List.range m.modes.size).all fun id =>
    !(m.mode id).closesWithParent && !(m.mode id).returnClosing && solvent m id &&
      (m.mode id).contains.all fun child => affords m id child

end

theorem mode_eq_of_size_le {m : Machine} {id : Nat} (h : m.modes.size ≤ id) :
    m.mode id = { id } := by
  simp [Machine.mode, Array.getD_eq_getD_getElem?, Array.getElem?_eq_none h]

theorem solvent_of_size_le {m : Machine} {id : Nat} (h : m.modes.size ≤ id) :
    solvent m id = true := by
  have hMode := mode_eq_of_size_le h
  have hStart : m.ownStart id = none := by simp [Machine.ownStart, hMode]
  have hRole : role m id = .plain := by simp [role, hMode, hStart]
  have hDebt : debt m id = 0 := by simp [debt, hStart, gap]
  simp [solvent, hRole, hDebt]

theorem solvent_of_balanced {m : Machine} (h : balanced m = true) (id : Nat) :
    solvent m id = true := by
  simp only [balanced, Bool.and_eq_true, List.all_eq_true, List.mem_range] at h
  by_cases hId : id < m.modes.size
  · exact (h.2 id hId).1.2
  · exact solvent_of_size_le (Nat.le_of_not_lt hId)

theorem affords_of_balanced {m : Machine} (h : balanced m = true) {id child : Nat}
    (hWithin : child ∈ (m.mode id).contains) : affords m id child = true := by
  simp only [balanced, Bool.and_eq_true, List.all_eq_true, List.mem_range] at h
  by_cases hId : id < m.modes.size
  · exact (h.2 id hId).2 child hWithin
  · rw [mode_eq_of_size_le (Nat.le_of_not_lt hId)] at hWithin
    cases hWithin

theorem endsAlone_of_balanced {m : Machine} (h : balanced m = true) : m.EndsAlone := by
  simp only [balanced, Bool.and_eq_true, decide_eq_true_eq, List.all_eq_true, List.mem_range,
    Bool.not_eq_true'] at h
  refine ⟨h.1, fun id => ?_⟩
  by_cases hId : id < m.modes.size
  · exact (h.2 id hId).1.1
  · simp [mode_eq_of_size_le (Nat.le_of_not_lt hId)]

theorem sustained_of_balanced {m : Machine} (hSound : Sound m) (h : balanced m = true) :
    Sustained m where
  sound := hSound
  endsAlone := endsAlone_of_balanced h
  plain {id} hRole := by
    simpa [solvent, hRole] using solvent_of_balanced h id
  title {id} hRole := by
    simpa [solvent, hRole] using solvent_of_balanced h id
  name {id} hRole := by
    simpa [solvent, hRole, Option.any_eq_true] using solvent_of_balanced h id
  signature {id} hRole := by
    simpa [solvent, hRole, Option.all_eq_true] using solvent_of_balanced h id
  functionType {id} hRole := by
    simpa [solvent, hRole, Option.any_eq_true] using solvent_of_balanced h id
  plainWithin hWithin hRole := by
    simpa [affords, hRole, Option.all_eq_true] using affords_of_balanced h hWithin
  titleWithin hWithin hRole := by
    simpa [affords, hRole] using affords_of_balanced h hWithin
  nameWithin hWithin hRole := by
    simpa [affords, hRole] using affords_of_balanced h hWithin
  signatureWithin hWithin hRole := by
    simpa [affords, hRole, and_assoc] using affords_of_balanced h hWithin
  functionTypeWithin hWithin hRole := by
    simpa [affords, hRole, and_assoc] using affords_of_balanced h hWithin

theorem balanced_assemble (v : Version) : (grammar v).assemble.toOption.any balanced = true := by
  cases v <;> decide +kernel

theorem exists_sustained (v : Version) : ∃ m, (grammar v).compile = .ok m ∧ Sustained m := by
  have hBalanced := balanced_assemble v
  cases hAssemble : (grammar v).assemble with
  | error e =>
    rw [hAssemble] at hBalanced
    cases hBalanced
  | ok m =>
    rw [hAssemble] at hBalanced
    obtain ⟨hCompile, hSound⟩ := compile_of_assemble_eq_ok hAssemble
    exact ⟨m, hCompile, sustained_of_balanced hSound hBalanced⟩

theorem Sustained.ok_or_illegal {m : Machine} (h : Sustained m) {v : Version}
    (hCompile : (grammar v).compile = .ok m) (t : Tokenizer m) (text : String) :
    (∃ found, (t.tokenize text).1 = .ok found) ∨
      ∃ position lexeme, (t.tokenize text).1 = .error (.illegal position lexeme) := by
  cases hTokens : (t.tokenize text).1 with
  | ok found => exact .inl ⟨found, rfl⟩
  | error e =>
    cases e with
    | illegal position lexeme => exact .inr ⟨position, lexeme, rfl⟩
    | runaway position => exact absurd hTokens (h.tariff.ne_runaway t text position)
    | terminators count fault =>
      have hChecked := Grammar.checked_of_compile_eq_ok hCompile
      exact absurd hTokens (Tokenizer.tokenize_ne_terminators hChecked
        (h.sound.compatible h.endsAlone) t text count fault)

/-- Each grammar of Co compiles, and each text, of whatever length, has tokens by it unless it is
found not to be in the language. -/
theorem tokenize_grammar (v : Version) : ∃ m, (grammar v).compile = .ok m ∧
    ∀ (t : Tokenizer m) (text : String), (∃ found, (t.tokenize text).1 = .ok found) ∨
      ∃ position lexeme, (t.tokenize text).1 = .error (.illegal position lexeme) := by
  obtain ⟨m, hCompile, hSustained⟩ := exists_sustained v
  exact ⟨m, hCompile, hSustained.ok_or_illegal hCompile⟩

end Highlighter.Co
