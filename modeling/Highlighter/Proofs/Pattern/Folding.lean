import Highlighter.Pattern.Compile
import Highlighter.Proofs.Text.Lowercase

/-! Classes that disregard case. Characters whose folding has several characters differ in case from
such characters alone, so that a class which lists none of them stays a test of one character.
Patterns that consist of such classes are compiled as they are read. -/

namespace Highlighter

namespace Text

/-- No run takes in a character whose folding has several characters. -/
theorem findSome?_foldRuns {entry : Nat × List Nat} (h : entry ∈ longFolds) :
    foldRuns.findSome? (·.imageOf? entry.1) = none := by
  have hApart : bits (longFolds.map (·.1)) &&& bits (foldRuns.flatMap CaseRun.codes) = 0 := by
    decide +kernel
  refine List.findSome?_eq_none_iff.2 fun run hRun => ?_
  cases hImage : run.imageOf? entry.1 with
  | none => rfl
  | some image =>
    have hCode := List.mem_flatMap.2 ⟨run, hRun, (CaseRun.mem_of_imageOf? hImage).1⟩
    exact absurd hCode (not_mem_of_land_bits hApart (List.mem_map_of_mem h))

theorem exists_foldCase_eq {entry : Nat × List Nat} (h : entry ∈ longFolds) :
    ∃ c d rest, foldCase (Char.ofNat entry.1) = c :: d :: rest := by
  have hEntries : longFolds.all fun entry =>
      (Char.ofNat entry.1).toNat == entry.1 && 2 ≤ entry.2.length := by decide +kernel
  have hEntry := List.all_eq_true.1 hEntries
  simp only [Bool.and_eq_true, beq_iff_eq, decide_eq_true_eq] at hEntry
  rw [foldCase, (hEntry entry h).1, findSome?_foldRuns h]
  cases hFind : longFolds.find? (·.1 == entry.1) with
  | none => simpa using List.find?_eq_none.1 hFind entry h
  | some other =>
    have hLength := (hEntry other (List.mem_of_find?_eq_some hFind)).2
    obtain ⟨c, d, rest, hEq⟩ : ∃ c d rest, other.2 = c :: d :: rest := by
      match other.2, hLength with
      | c :: d :: rest, _ => exact ⟨c, d, rest, rfl⟩
    exact ⟨_, _, _, congrArg (List.map Char.ofNat) hEq⟩

theorem exists_of_mem_caseVariants {entry : Char × List Char} (h : entry ∈ expandingFolds)
    {c : Char} (hc : c ∈ caseVariants entry.1) : ∃ other ∈ expandingFolds, other.1 = c := by
  obtain ⟨long, hLong, rfl⟩ := List.mem_map.1 h
  obtain ⟨a, b, rest, hFold⟩ := exists_foldCase_eq hLong
  rw [caseVariants, hFold, unfoldCase] at hc
  · obtain ⟨other, hOther, rfl⟩ := List.mem_map.1 (List.mem_filter.1 hc).1
    exact ⟨_, List.mem_map_of_mem (List.mem_filter.1 hOther).1, rfl⟩
  · nofun

end Text

namespace Pattern

open Text

namespace Tree

theorem foldClass_eq {k : CharClass} (hNegated : k.negated = false)
    (hNone : ∀ entry ∈ expandingFolds, k.members.has entry.1 = false) :
    foldClass k = .test (.folded k) := by
  have hFilter : expandingFolds.filter (fun entry => (CharTest.folded k).has entry.1) = [] := by
    refine List.filter_eq_nil_iff.2 fun entry hEntry => ?_
    have hOthers : (caseVariants entry.1).any k.members.has = false := by
      refine List.any_eq_false.2 fun c hc => ?_
      obtain ⟨other, hOther, rfl⟩ := exists_of_mem_caseVariants hEntry hc
      simp [hNone other hOther]
    simp [CharTest.has, hNone entry hEntry, hOthers, hNegated]
  simp [foldClass, hNegated, hFilter]

/-! ### The same patterns -/

mutual

/-- Two patterns are the same, part by part. -/
def same : Tree → Tree → Bool
  | literal cs f, literal ds g => cs == ds && f == g
  | test s, test t => s == t
  | look b n body, look b' n' body' => b == b' && n == n' && same body body'
  | repeated q body, repeated r body' => q == r && same body body'
  | sequence ts, sequence us => sameAll ts us
  | alternatives ts, alternatives us => sameAll ts us
  | _, _ => false

def sameAll : List Tree → List Tree → Bool
  | [], [] => true
  | t :: ts, u :: us => same t u && sameAll ts us
  | _, _ => false

end

mutual

theorem eq_of_same {t u : Tree} (h : same t u = true) : t = u := by
  revert h
  fun_cases same t u with
  | case1 | case2 => simp
  | case3 b n body b' n' body' =>
    intro h
    simp only [Bool.and_eq_true, beq_iff_eq] at h
    obtain ⟨⟨rfl, rfl⟩, hBody⟩ := h
    rw [eq_of_same hBody]
  | case4 q body r body' =>
    intro h
    simp only [Bool.and_eq_true, beq_iff_eq] at h
    obtain ⟨rfl, hBody⟩ := h
    rw [eq_of_same hBody]
  | case5 ts us | case6 ts us =>
    intro h
    rw [eq_of_sameAll h]
  | case7 => nofun

theorem eq_of_sameAll {ts us : List Tree} (h : sameAll ts us = true) : ts = us := by
  revert h
  fun_cases sameAll ts us with
  | case1 => simp
  | case2 t ts u us =>
    intro h
    rw [Bool.and_eq_true] at h
    rw [eq_of_same h.1, eq_of_sameAll h.2]
  | case3 => nofun

end

/-- The pattern is taken as it is written. -/
structure Inert (t : Tree) : Prop where
  unfold_eq : t.unfold false = t
  references_eq : t.references = []
  arrange_eq : ∀ group used, t.arrange group used = .ok t

end Tree

theorem compile_of_inert {mode : Mode} {pattern : List Char} {t : Tree} {program : Program}
    (hRead : readTree mode pattern = .ok t) (hInert : t.Inert)
    (hProgram : ∀ group, Program.ofTree group t = program) :
    compile mode pattern = .ok program := by
  unfold compile
  rw [hRead]
  simp only [bind, Except.bind, hInert.unfold_eq, hInert.arrange_eq]
  exact congrArg Except.ok (hProgram _)

theorem readTree_eq_ok {mode : Mode} {pattern : List Char} {t : Tree}
    (h : (readTree mode pattern).toOption.any t.same = true) : readTree mode pattern = .ok t := by
  cases hRead : readTree mode pattern with
  | error e =>
    rw [hRead] at h
    cases h
  | ok u =>
    rw [hRead] at h
    rw [Tree.eq_of_same h]

end Pattern

end Highlighter
