import Highlighter.Pattern.Compile
import Highlighter.Proofs.Pattern.Elements

/-! Patterns without capturing groups. A reader that has counted no such group has none in the
groups that are open, and there is none in the tree that it comes to, with or without its cases
spelled out. Where nothing captures, look-behinds do not depend on backreferences. -/

namespace Highlighter.Pattern

open Highlighter.Text

namespace Tree

theorem groupsOfAll_eq_nil_iff {ts : List Tree} : groupsOfAll ts = [] ↔
    ∀ t ∈ ts, t.groups = [] := by
  induction ts with
  | nil => simp [groupsOfAll]
  | cons t ts ih => simp [groupsOfAll, ih]

theorem groups_joinLiterals {ts : List Tree} (h : ∀ t ∈ ts, t.groups = []) :
    ∀ t ∈ joinLiterals ts, t.groups = [] := by
  induction ts with
  | nil => exact h
  | cons t ts ih =>
    obtain ⟨ht, hts⟩ := List.forall_mem_cons.1 h
    have hRest := ih hts
    unfold joinLiterals
    split
    · exact nofun
    · next hEq =>
      cases hEq
      split
      · next hJoined =>
        rw [hJoined] at hRest
        have hMore := (List.forall_mem_cons.1 hRest).2
        split
        · exact List.forall_mem_cons.2 ⟨rfl, hMore⟩
        · exact List.forall_mem_cons.2 ⟨rfl, hRest⟩
      · exact List.forall_mem_cons.2 ⟨rfl, hRest⟩
    · next hEq =>
      cases hEq
      exact List.forall_mem_cons.2 ⟨ht, hRest⟩

theorem groups_parts {t u : Tree} (h : t.groups = []) (hu : u ∈ t.parts) : u.groups = [] := by
  unfold parts at hu
  split at hu
  · exact groupsOfAll_eq_nil_iff.1 h u hu
  · rwa [List.mem_singleton.1 hu]

theorem groups_ofParts {ts : List Tree} (h : ∀ t ∈ ts, t.groups = []) :
    (ofParts ts).groups = [] := by
  unfold ofParts
  split
  · rfl
  · exact h _ List.mem_cons_self
  · next t ts hTwo =>
    obtain ⟨ht, hts⟩ := List.forall_mem_cons.1 h
    have hParts : ∀ u ∈ t :: ts.flatMap parts, u.groups = [] := by
      refine List.forall_mem_cons.2 ⟨ht, fun u hu => ?_⟩
      obtain ⟨v, hv, hu⟩ := List.mem_flatMap.1 hu
      exact groups_parts (hts v hv) hu
    have hJoined := groups_joinLiterals hParts
    split
    · next hEq => exact hJoined _ (by rw [hEq]; exact List.mem_cons_self)
    · exact groupsOfAll_eq_nil_iff.2 hJoined

theorem groups_ofBranches {ts : List Tree} (h : ∀ t ∈ ts, t.groups = []) :
    (ofBranches ts).groups = [] := by
  unfold ofBranches
  split
  · exact h _ List.mem_cons_self
  · exact groupsOfAll_eq_nil_iff.2 h

theorem groups_quantify (q : Quantifier) (t : Tree) : (quantify q t).groups = t.groups := by
  unfold quantify
  split
  · split <;> rfl
  · rfl

theorem groups_anyCase (c : Char) : (anyCase c).groups = [] := by
  unfold anyCase
  split <;> rfl

theorem groups_eachCase (cs : List Char) : (eachCase cs).groups = [] := by
  refine groups_ofParts fun t ht => ?_
  obtain ⟨c, -, rfl⟩ := List.mem_map.1 ht
  exact groups_anyCase c

theorem groups_of_unit {cs : List Char} {t : Tree} (h : unit cs = some t) : t.groups = [] := by
  unfold unit at h
  split at h
  · cases h
  · cases h
    refine groupsOfAll_eq_nil_iff.2
      (List.forall_mem_cons.2 ⟨groups_eachCase cs, fun u hu => ?_⟩)
    obtain ⟨c, -, rfl⟩ := List.mem_map.1 hu
    rfl

theorem groups_single (c : Char) : (single c).groups = [] := by
  unfold single
  split
  · exact groups_anyCase c
  · simp [groups, groupsOfAll, groups_anyCase, groups_eachCase]

theorem groups_foldLiteral (cs : List Char) : ∀ t ∈ foldLiteral cs, t.groups = [] := by
  fun_induction foldLiteral cs <;>
    simp_all only [List.forall_mem_cons, List.not_mem_nil, false_implies, implies_true, and_true,
      groups_single]
  all_goals exact groups_of_unit ‹_›

theorem groups_foldClass (k : CharClass) : (foldClass k).groups = [] := by
  unfold foldClass
  dsimp only
  split
  · rfl
  · split
    · rfl
    · next longer hLonger =>
      refine groupsOfAll_eq_nil_iff.2 (List.forall_mem_cons.2 ⟨rfl, fun u hu => ?_⟩)
      obtain ⟨entry, -, rfl⟩ := List.mem_map.1 hu
      exact groups_eachCase entry.2

mutual

theorem groups_unfold {t : Tree} (h : t.groups = []) (behind : Bool) :
    (t.unfold behind).groups = [] := by
  cases t with
  | literal chars fold =>
    cases fold with
    | false => rfl
    | true =>
      cases behind with
      | false => exact groups_ofParts (groups_foldLiteral chars)
      | true => exact groups_eachCase chars
  | test t =>
    cases t with
    | folded k => exact groups_foldClass k
    | _ => rfl
  | anchor a => rfl
  | backreference gs byName fold => rfl
  | capture index named body => cases h
  | atomic body => exact groups_unfold (t := body) h behind
  | scope body => exact groups_unfold (t := body) h behind
  | look b negated body => exact groups_unfold (t := body) h (behind || b)
  | repeated q body => exact groups_unfold (t := body) h behind
  | sequence ts =>
    have hAll : groupsOfAll ts = [] := h
    exact groupsOfAll_unfoldAll hAll behind
  | alternatives ts =>
    have hAll : groupsOfAll ts = [] := h
    exact groupsOfAll_unfoldAll hAll behind

theorem groupsOfAll_unfoldAll {ts : List Tree} (h : groupsOfAll ts = []) (behind : Bool) :
    groupsOfAll (unfoldAll behind ts) = [] := by
  cases ts with
  | nil => rfl
  | cons t ts =>
    obtain ⟨ht, hts⟩ := List.append_eq_nil_iff.1 h
    rw [unfoldAll, groupsOfAll, groups_unfold ht, groupsOfAll_unfoldAll hts]
    rfl

end

mutual

theorem arrange_congr (group : Nat → Width) (used used' : List Nat) {t : Tree}
    (h : t.groups = []) : t.arrange group used = t.arrange group used' := by
  cases t with
  | literal chars fold => rfl
  | test t => rfl
  | anchor a => rfl
  | backreference gs byName fold => rfl
  | capture index named body => cases h
  | atomic body => rw [arrange, arrange, arrange_congr group used used' (t := body) h]
  | scope body => rw [arrange, arrange, arrange_congr group used used' (t := body) h]
  | look b negated body =>
    have hBody : body.groups = [] := h
    cases b with
    | false => rw [arrange, arrange, arrange_congr group used used' hBody]
    | true =>
      rw [arrange, arrange, arrange_congr group used used' hBody]
      simp [hBody]
  | repeated q body => rw [arrange, arrange, arrange_congr group used used' (t := body) h]
  | sequence ts =>
    have hAll : groupsOfAll ts = [] := h
    rw [arrange, arrange, arrangeAll_congr group used used' hAll]
  | alternatives ts =>
    have hAll : groupsOfAll ts = [] := h
    rw [arrange, arrange, arrangeAll_congr group used used' hAll]

theorem arrangeAll_congr (group : Nat → Width) (used used' : List Nat) {ts : List Tree}
    (h : groupsOfAll ts = []) : arrangeAll group used ts = arrangeAll group used' ts := by
  cases ts with
  | nil => rfl
  | cons t ts =>
    obtain ⟨ht, hts⟩ := List.append_eq_nil_iff.1 h
    rw [arrangeAll, arrangeAll, arrange_congr group used used' ht,
      arrangeAll_congr group used used' hts]

end

end Tree

namespace Level

/-- A group that does not capture, with nothing in it that does. -/
structure Bare (l : Level) : Prop where
  opener : ∀ index named, l.opener ≠ .capture index named
  parts : ∀ t ∈ l.parts, t.groups = []
  branches : ∀ t ∈ l.branches, t.groups = []

variable {l : Level}

theorem Bare.opened {opener : Opener} (h : ∀ index named, opener ≠ .capture index named)
    (outer : Options) : (opened opener outer).Bare := ⟨h, nofun, nofun⟩

theorem Bare.push (h : l.Bare) {t : Tree} (ht : t.groups = []) : (l.push t).Bare :=
  ⟨h.opener, List.forall_mem_cons.2 ⟨ht, h.parts⟩, h.branches⟩

theorem Bare.branch (h : l.Bare) : (Tree.ofParts l.parts.reverse).groups = [] :=
  Tree.groups_ofParts fun t ht => h.parts t (List.mem_reverse.1 ht)

theorem Bare.body (h : l.Bare) : l.body.groups = [] := by
  refine Tree.groups_ofBranches fun t ht => ?_
  rcases List.mem_cons.1 (List.mem_reverse.1 ht) with rfl | ht
  · exact h.branch
  · exact h.branches t ht

theorem Bare.tree (h : l.Bare) : l.tree.groups = [] := by
  unfold Level.tree
  split
  · exact h.body
  · next hOpener => exact absurd hOpener (h.opener _ _)
  all_goals exact h.body

/-- How the outermost of some groups was opened, and the options outside of it. -/
def base (l : Level) : List Level → Opener × Options
  | [] => (l.opener, l.outer)
  | next :: below => base next below

theorem base_push (l : Level) (t : Tree) (below : List Level) :
    (l.push t).base below = l.base below := by
  cases below <;> rfl

end Level

namespace Reader

variable {r r' : Reader}

theorem base_settle {l top : Level} {b rest : List Level} (h : settle l b = (top, rest)) :
    top.base rest = l.base b := by
  induction b generalizing l with
  | nil =>
    cases h
    rfl
  | cons m b ih =>
    unfold settle at h
    split at h
    · exact (ih h).trans (m.base_push _ b)
    · cases h
      rfl

theorem bare_settle {l top : Level} {b rest : List Level} (h : settle l b = (top, rest))
    (hBare : ∀ m ∈ l :: b, m.Bare) : ∀ m ∈ top :: rest, m.Bare := by
  induction b generalizing l with
  | nil =>
    cases h
    exact hBare
  | cons m b ih =>
    unfold settle at h
    split at h
    · obtain ⟨hl, hRest⟩ := List.forall_mem_cons.1 hBare
      obtain ⟨hm, hb⟩ := List.forall_mem_cons.1 hRest
      exact ih h (List.forall_mem_cons.2 ⟨hm.push hl.tree, hb⟩)
    · cases h
      exact hBare

/-- Nothing captures in any of the open groups, and no group has a name. -/
structure Bare (r : Reader) : Prop where
  levels : ∀ l ∈ r.level :: r.below, l.Bare
  names : r.names = []

/-- Nothing captures if nothing does in what the innermost level is replaced by. -/
theorem Bare.replace (h : r.Bare) {l : Level} (hLevel : r.level.Bare → l.Bare) (options : Options)
    (captures repeats : Nat) : Bare ⟨l, r.below, options, captures, r.names, repeats⟩ := by
  obtain ⟨hTop, hBelow⟩ := List.forall_mem_cons.1 h.levels
  exact ⟨List.forall_mem_cons.2 ⟨hLevel hTop, hBelow⟩, h.names⟩

theorem exists_of_close (h : r.close = .ok r') : ∃ top next below,
    settle r.level r.below = (top, next :: below) ∧
      r' = { r with level := next.push top.tree, below, options := top.outer, repeats := 0 } := by
  unfold close at h
  split at h
  · cases h
  · next top next below hSettle =>
    cases h
    exact ⟨top, next, below, hSettle, rfl⟩

theorem exists_of_quantify {q : Quantifier} {possessive : Bool}
    (h : r.quantify q possessive = .ok r') :
    ∃ parts, r' = { r with level := { r.level with parts }, repeats := r.repeats + 1 } ∧
      ((∀ t ∈ r.level.parts, t.groups = []) → ∀ t ∈ parts, t.groups = []) := by
  unfold quantify at h
  split at h
  · cases h
  · next t rest hParts =>
    split at h
    · cases h
    · cases h
      refine ⟨_, rfl, fun hAll => ?_⟩
      rw [hParts] at hAll
      obtain ⟨ht, hRest⟩ := List.forall_mem_cons.1 hAll
      split
      · split
        · next c cs fold =>
          intro u hu
          rcases List.mem_append.1 hu with hu | hu
          · obtain ⟨x, -, rfl⟩ := List.mem_map.1 (List.mem_reverse.1 hu)
            rfl
          · exact hRest u hu
        · exact hAll
      · have hQuantified : (Tree.quantify q t).groups = [] := (Tree.groups_quantify q t).trans ht
        refine List.forall_mem_cons.2 ⟨?_, hRest⟩
        cases possessive <;> exact hQuantified

theorem of_enter {opener : Opener} {options : Options} (h : r.enter opener options = .ok r') :
    r' = { r with level := .opened opener r.options, below := r.level :: r.below, options,
                  repeats := 0 } := by
  unfold enter at h
  split at h
  · cases h
  · cases h
    rfl

theorem base_of_apply {a : Action} (h : a.apply r = .ok r') :
    r'.level.base r'.below = r.level.base r.below := by
  cases a with
  | skip =>
    cases h
    rfl
  | push t =>
    cases h
    exact r.level.base_push t r.below
  | bar =>
    cases h
    show Level.base _ r.below = _
    cases r.below <;> rfl
  | enter opener options =>
    cases of_enter h
    rfl
  | capture name =>
    cases name with
    | none =>
      cases of_enter (r := { r with captures := r.captures + 1 }) h
      rfl
    | some name =>
      cases of_enter (r := { r with captures := r.captures + 1,
                                    names := (name, r.captures + 1) :: r.names }) h
      rfl
  | close =>
    obtain ⟨top, next, below, hSettle, rfl⟩ := exists_of_close h
    have hBase := base_settle hSettle
    exact (next.base_push top.tree below).trans hBase
  | quantify q possessive =>
    obtain ⟨parts, rfl, -⟩ := exists_of_quantify h
    show Level.base _ r.below = _
    cases r.below <;> rfl

/-- What captures is counted: a reader that has counted nothing has met no group that captures. -/
theorem bare_of_apply {a : Action} (ha : a.Counted) (h : a.apply r = .ok r')
    (hNone : r'.captures = 0) : r.captures = 0 ∧ (r.Bare → r'.Bare) := by
  cases a with
  | skip =>
    cases h
    exact ⟨hNone, id⟩
  | push t =>
    cases h
    exact ⟨hNone, fun hBare => hBare.replace (·.push ha) _ _ _⟩
  | bar =>
    cases h
    refine ⟨hNone, fun hBare =>
      hBare.replace (l := r.bar.level) (fun hTop => ⟨hTop.opener, nofun, ?_⟩) _ _ _⟩
    exact List.forall_mem_cons.2 ⟨hTop.branch, hTop.branches⟩
  | enter opener options =>
    cases of_enter h
    exact ⟨hNone, fun hBare =>
      ⟨List.forall_mem_cons.2 ⟨.opened ha r.options, hBare.levels⟩, hBare.names⟩⟩
  -- The group that captures has been counted, against the assumption.
  | capture name =>
    cases name with
    | none =>
      cases of_enter (r := { r with captures := r.captures + 1 }) h
      cases hNone
    | some name =>
      cases of_enter (r := { r with captures := r.captures + 1,
                                    names := (name, r.captures + 1) :: r.names }) h
      cases hNone
  | close =>
    obtain ⟨top, next, below, hSettle, rfl⟩ := exists_of_close h
    refine ⟨hNone, fun hBare => ⟨?_, hBare.names⟩⟩
    obtain ⟨hTop, hRest⟩ := List.forall_mem_cons.1 (bare_settle hSettle hBare.levels)
    obtain ⟨hNext, hBelow⟩ := List.forall_mem_cons.1 hRest
    exact List.forall_mem_cons.2 ⟨hNext.push hTop.tree, hBelow⟩
  | quantify q possessive =>
    obtain ⟨parts, rfl, hParts⟩ := exists_of_quantify h
    refine ⟨hNone,
      fun hBare => hBare.replace (l := { r.level with parts }) (fun hTop => ?_) _ _ _⟩
    exact ⟨hTop.opener, hParts hTop.parts, hTop.branches⟩

theorem bare_of_run {n : Nat} {cs : List Char} (h : run n r cs = .ok r') (hNone : r'.captures = 0) :
    r'.level.base r'.below = r.level.base r.below ∧ r.captures = 0 ∧ (r.Bare → r'.Bare) := by
  induction n generalizing r cs with
  | zero =>
    cases cs with
    | nil =>
      cases h
      exact ⟨rfl, hNone, id⟩
    | cons c cs => cases h
  | succ n ih =>
    cases cs with
    | nil =>
      cases h
      exact ⟨rfl, hNone, id⟩
    | cons c cs =>
      unfold run at h
      split at h
      · cases h
      · next r'' rest hStep =>
        obtain ⟨rest', a, hTakes⟩ := exists_takes_step hStep
        obtain ⟨_, hApply, hEq⟩ := exists_of_map_eq_ok (hTakes.here.symm.trans hStep)
        cases hEq
        obtain ⟨hBase, hZero, hBare⟩ := ih h
        obtain ⟨hZero', hBare'⟩ := bare_of_apply hTakes.counted hApply hZero
        exact ⟨hBase.trans (base_of_apply hApply), hZero', hBare ∘ hBare'⟩

end Reader

end Highlighter.Pattern
