import Highlighter.Proofs.Grammar.Building
import Highlighter.Proofs.Pattern.Consuming
import Highlighter.Proofs.Scan.Loops

/-! Scans that never run away. Where no lexeme is handed back and no mode opens on the empty text,
each terminator that opens a mode takes up some text, and so does each one that belongs to no mode.
A terminator that closes modes may take up none, but each of these modes has opened before. So the
terminators that have been found are at most two for each byte that has been passed, which is less
than a scan has patience for. -/

namespace Highlighter

open Text Pattern

namespace Machine

/-- No lexeme that opens or closes a mode is scanned again. -/
def KeepsLexemes (m : Machine) : Prop :=
  ∀ mode ∈ m.modes, mode.returnOpening = false ∧ mode.returnClosing = false

/-- No pattern that opens a mode matches the empty text, as it is searched for among terminators. -/
def OpensVisibly (m : Machine) : Prop :=
  ∀ mode ∈ m.modes, ∀ regex ∈ mode.opening, ∀ program,
    Pattern.compile ⟨m.caseInsensitive, true⟩ (asciiClasses (m.pattern regex)).toList =
      .ok program → ∀ c, program.matchFrom c ≠ some c

/-- Programs tell in most cases that they do not match the empty text. -/
theorem opensVisibly_of_consumes {m : Machine}
    (h : ∀ mode ∈ m.modes.toList, ∀ regex ∈ mode.opening.toList,
      (Pattern.compile ⟨m.caseInsensitive, true⟩
        (spellOut 0 false (m.pattern regex).toList)).toOption.all (·.consumes) = true) :
    m.OpensVisibly := by
  intro mode hMode regex hRegex program hProgram
  have hConsumes := h mode (Array.mem_toList_iff.2 hMode) regex (Option.mem_toList.2 hRegex)
  rw [← toList_asciiClasses, hProgram] at hConsumes
  exact Program.matchFrom_ne_self hConsumes

variable {m : Machine}

theorem KeepsLexemes.mode (h : m.KeepsLexemes) (id : Nat) :
    (m.mode id).returnOpening = false ∧ (m.mode id).returnClosing = false := by
  rcases m.mode_mem_or_eq id with hMem | hEq
  · exact h _ hMem
  · rw [hEq]
    exact ⟨rfl, rfl⟩

theorem OpensVisibly.offset_lt (h : m.OpensVisibly) {key : Nat × Option String}
    {set : TerminatorSet} (hSet : m.setOf key = .ok set) {c : Cursor} {found : Match} {id : Nat}
    (hFound : set.find? c = some found) (hOpening : found.terminator = .opening id) :
    found.span.start.offset < found.span.stop.offset := by
  obtain ⟨-, regex, hRegex, program, hProgram, hMatch⟩ :=
    exists_of_find?_opening hSet hFound hOpening
  have hReach := (TerminatorSet.reaches_find? hFound).2
  refine Nat.lt_of_not_le fun hLe => ?_
  rw [← hReach.eq_of_offset_le hLe] at hMatch
  rcases m.mode_mem_or_eq id with hMode | hMode
  · exact h _ hMode regex hRegex program hProgram _ hMatch
  · rw [hMode] at hRegex
    cases hRegex

theorem partClosing_fst_ne_nil (frame : Frame) (rest : List Frame) :
    (m.partClosing (frame :: rest)).1 ≠ [] := by
  cases rest with
  | nil => exact List.cons_ne_nil _ _
  | cons parent rest =>
    unfold partClosing
    split <;> exact List.cons_ne_nil _ _

/-- An end that belongs to a mode closes at least one. -/
theorem length_kept_lt {c : Cursor} {frames closed kept : List Frame}
    (h : m.partAt? c frames = some (closed, kept)) : kept.length < frames.length := by
  have hNe : closed ≠ [] := by
    cases frames with
    | nil => cases h
    | cons frame rest =>
      unfold partAt? at h
      split at h
      · have hParts := m.partClosing_fst_ne_nil frame rest
        rw [Option.some.inj h] at hParts
        exact hParts
      · split at h
        · obtain ⟨parts, -, hEq⟩ := Option.map_eq_some_iff.1 h
          cases hEq
          exact List.cons_ne_nil _ _
        · cases h
  have hPos := List.length_pos_iff.2 hNe
  rw [← append_of_partAt? h, List.length_append]
  omega

end Machine

namespace Scan

/-- The terminators that have been found and the modes that are open are at most two for each byte
before the place where the scan goes on. `count` is the number of the next terminator. -/
def Paid (count : Nat) (s : Scan) : Prop := count + s.frames.length ≤ 2 * s.place.offset + 1

namespace Paid

variable {m : Machine} {count : Nat} {s : Scan} {found : Span}

theorem start (text : List Char) : Paid 1 (.start text) := Nat.le_refl 1

theorem openMode (h : s.Paid count) (hKeeps : m.KeepsLexemes) (id : Nat)
    (hStart : s.place.Reaches found.start) (hLt : found.start.offset < found.stop.offset) :
    (s.openMode m id found).Paid (count + 1) := by
  have hFrames : (s.openMode m id found).frames.length = s.frames.length + 1 := by
    simp [Scan.openMode, Scan.enter]
  have hPlace : (s.openMode m id found).place = found.stop := by
    simp [Scan.openMode, Scan.enter, (hKeeps.mode id).1]
  have hLe := hStart.offset_le
  unfold Paid at h ⊢
  rw [hFrames, hPlace]
  omega

theorem closeModes (h : s.Paid count) (hKeeps : m.KeepsLexemes) {closed kept : List Frame}
    (hKept : kept.length < s.frames.length) (hStart : s.place.Reaches found.start)
    (hStop : found.start.Reaches found.stop) :
    (s.closeModes m closed kept found).Paid (count + 1) := by
  have hPlace : (s.closeModes m closed kept found).place = found.stop := by
    simp [Scan.closeModes, Scan.leave, (hKeeps.mode s.top.mode).2]
  have hLe := (hStart.trans hStop).offset_le
  unfold Paid at h ⊢
  rw [hPlace]
  show count + 1 + kept.length ≤ _
  omega

theorem moveTo (h : s.Paid count) {place : Cursor} (hLt : s.place.offset < place.offset) :
    Paid (count + 1) { s with lastOpening := none, place } := by
  unfold Paid at h ⊢
  show count + 1 + s.frames.length ≤ 2 * place.offset + 1
  omega

theorem step (h : s.Paid count) (hKeeps : m.KeepsLexemes) (hOpens : m.OpensVisibly) {s' : Scan}
    (hStep : s.step m count = .goesOn s') : s'.Paid (count + 1) := by
  obtain ⟨set, found, hSet, hFound, -, hTakes⟩ := exists_of_step_eq_goesOn hStep
  obtain ⟨hStart, hStop⟩ := TerminatorSet.reaches_find? hFound
  have hLe := hStart.offset_le
  have hForgot : Paid count { s with lastOpening := none } := h
  cases hTakes with
  | opens hKind => exact hForgot.openMode hKeeps _ hStart (hOpens.offset_lt hSet hFound hKind)
  | closes hKind hMoved hParts =>
    exact hForgot.closeModes hKeeps (Machine.length_kept_lt hParts) hStart hStop
  | passes hKind hLt => exact h.moveTo (Nat.lt_of_le_of_lt hLe hLt)
  | passesNext hKind hEmpty hEnd =>
    exact h.moveTo (Nat.lt_of_le_of_lt hLe (Cursor.offset_lt_advance hEnd))

/-- What is paid for does not exhaust the patience of a scan. -/
theorem count_le (h : s.Paid count) {found : Cursor} (hReach : s.place.Reaches found)
    (hMany : patience < count) : count ≤ found.offset * 3 := by
  have hLe := hReach.offset_le
  simp only [Paid, patience] at h hMany
  omega

end Paid

theorem Reachable.paid {m : Machine} {text : List Char} {count : Nat} {s : Scan}
    (h : Reachable m text count s) (hKeeps : m.KeepsLexemes) (hOpens : m.OpensVisibly) :
    s.Paid count := by
  induction h with
  | start => exact .start text
  | next _ hStep ih => exact ih.step hKeeps hOpens hStep

end Scan

/-- Calls, which end with their arguments, and marks, which end on the empty text. -/
def calls : Grammar where
  name := "calls"
  contains := [
    .inline (.containing { category := some .function, opening := some "f", closing := some "$" }
      [.inline (.containing
        { category := some .params, opening := some "[(]", closing := some "[)]",
          closesParent := some true }
        [.named "self",
          .inline (.ofSettings { opening := some "=", closesWithParent := some true })])]),
    .inline (.ofSettings { category := some .metadata, opening := some "#" })]

namespace calls

theorem isSome_compile : calls.compile.toOption.isSome := Grammar.isSome_compile (by decide +kernel)

def machine : Machine := calls.compile.toOption.get isSome_compile

theorem machine_eq : machine = (calls.assemble.toOption.get (by decide +kernel)).spelled :=
  Grammar.get_compile _ _

theorem keepsLexemes : machine.KeepsLexemes := by
  unfold Machine.KeepsLexemes
  rw [machine_eq]
  decide +kernel

theorem opensVisibly : machine.OpensVisibly := by
  rw [machine_eq]
  exact Machine.opensVisibly_of_consumes (by decide +kernel)

end calls

namespace Tokenizer

variable {m : Machine}

/-- A scan never runs away if no lexeme is handed back and no mode opens on the empty text. -/
theorem tokenize_ne_runaway (hKeeps : m.KeepsLexemes) (hOpens : m.OpensVisibly) (t : Tokenizer m)
    (text : String) (p : Nat) : (t.tokenize text).1 ≠ .error (.runaway p) := by
  refine ne_runaway_of_count_le (fun hReach _ hFound hMany => ?_) t p
  have hPaid := hReach.paid hKeeps hOpens
  exact hPaid.count_le (TerminatorSet.reaches_find? hFound).1 hMany

theorem tokenize_calls_ne_runaway : calls.machine.KeepsLexemes ∧ calls.machine.OpensVisibly ∧
    ((fresh calls.machine).tokenize "f(a=b(c)) ##x f(").1 ≠ .error (.runaway 10) :=
  ⟨calls.keepsLexemes, calls.opensVisibly,
    tokenize_ne_runaway calls.keepsLexemes calls.opensVisibly _ _ _⟩

end Tokenizer

end Highlighter
