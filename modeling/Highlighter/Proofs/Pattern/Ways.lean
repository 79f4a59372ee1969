import Highlighter.Pattern.Program
import Highlighter.Proofs.Text.Place

/-! The ways through a program. `Program.Leads` says where a program may lead from a place, with
what its groups have matched by then. It leaves to the run which way is tried first and what
look-arounds must not find: each answer of a run is the answer of its continuation at the end of a
way, so that what holds along all ways holds of all matches. -/

namespace Highlighter.Pattern.Program

open Highlighter.Text

/-- The program may lead from one place to another. -/
inductive Leads : Program → Progress → Progress → Prop
  | nothing {p : Progress} : Leads nothing p p
  | test {t : CharTest} {p : Progress} {x : Char} (hNext : p.place.next? = some x)
      (hHas : t.has x = true) :
    Leads (test t) p { p with place := p.place.advance }
  | text {chars : List Char} {p : Progress} {place : Cursor}
      (hPast : p.place.past? chars = some place) :
    Leads (text chars) p { p with place }
  | anchor {a : Anchor} {p : Progress} (hHolds : a.holds p.place = true) : Leads (anchor a) p p
  | backreference {groups : List Nat} {fold : Bool} {p : Progress} {place : Cursor}
    (hPast : pastCapture? p.captures fold p.place groups = some place) :
    Leads (backreference groups fold) p { p with place }
  | capture {index : Nat} {body : Program} {p p' : Progress} (h : Leads body p p') :
    Leads (capture index body) p
      { p' with captures := (index, ⟨p.place, p'.place⟩) :: p'.captures }
  | atomic {body : Program} {p p' : Progress} (h : Leads body p p') : Leads (atomic body) p p'
  | ahead {body : Program} {p p' : Progress} (h : Leads body p p') :
    Leads (ahead false body) p { p with captures := p'.captures }
  | notAhead {body : Program} {p : Progress} : Leads (ahead true body) p p
  | behind {width : Nat} {body : Program} {p p' : Progress} {place : Cursor}
    (hBack : p.place.backBy? width = some place) (h : Leads body { p with place } p') :
    Leads (behind false width body) p { p with captures := p'.captures }
  | notBehind {width : Nat} {body : Program} {p : Progress} : Leads (behind true width body) p p
  /-- Nothing is repeated. -/
  | never {q : Quantifier} {body : Program} {p : Progress} (hLower : q.lower = 0) :
      Leads (repeated q body) p p
  /-- The repetition ends here, be it only that it has matched nothing. -/
  | last {q : Quantifier} {body : Program} {p p' : Progress} (h : Leads body p p') :
      Leads (repeated q body) p p'
  | again {q : Quantifier} {body : Program} {p p' p'' : Progress} (h : Leads body p p')
    (hMoves : p'.place.offset ≠ p.place.offset)
    (rest : Leads (repeated ⟨q.lower - 1, q.upper.map (· - 1), q.greedy⟩ body) p' p'') :
    Leads (repeated q body) p p''
  | sequence {first second : Program} {p p' p'' : Progress} (h : Leads first p p')
      (rest : Leads second p' p'') :
    Leads (sequence first second) p p''
  | left {first second : Program} {p p' : Progress} (h : Leads first p p') :
      Leads (choice first second) p p'
  | right {first second : Program} {p p' : Progress} (h : Leads second p p') :
      Leads (choice first second) p p'

/-- Each answer of a matcher is the answer of its continuation at the end of a way through a
program. -/
def Explains (program : Program)
    (step : Progress → (Progress → Option Progress) → Option Progress) : Prop :=
  ∀ p next r, step p next = some r → ∃ p', Leads program p p' ∧ next p' = some r

/-- The places that single characters lead to are those that repeating their test leads to. -/
theorem leads_of_mem_drop_reach {t : CharTest} {limit : Option Nat} {rest : List Char}
    {c d : Cursor} (captures : Captures) (hRest : c.after = rest) {q : Quantifier}
    (h : d ∈ (reach t limit rest c).drop q.lower) :
    Leads (repeated q (.test t)) ⟨c, captures⟩ ⟨d, captures⟩ := by
  fun_induction reach t limit rest c generalizing q with
  | case1 | case2 | case4 =>
    cases hLower : q.lower with
    | zero =>
      rw [hLower] at h
      obtain rfl := List.mem_singleton.1 h
      exact .never hLower
    | succ n => simp [hLower] at h
  | case3 limit x rest c hLimit hHas ih =>
    have hNext : c.next? = some x := Cursor.next?_eq_some_iff.2 ⟨rest, hRest⟩
    have hLt := Cursor.offset_lt_advance (Cursor.atEnd_of_next? hNext)
    have hAgain : d ∈ (reach t (limit.map (· - 1)) rest c.advance).drop (q.lower - 1) →
        Leads (repeated q (.test t)) ⟨c, captures⟩ ⟨d, captures⟩ := fun hMem =>
      .again (.test hNext hHas) (Nat.ne_of_gt hLt) (ih (Cursor.advance_after hRest) hMem)
    cases hLower : q.lower with
    | zero =>
      rw [hLower] at h hAgain
      rcases List.mem_cons.1 h with rfl | hMem
      · exact .never hLower
      · exact hAgain hMem
    | succ n =>
      rw [hLower] at h hAgain
      exact hAgain h

theorem explains_repeatStep {body : Program}
    {step : Progress → (Progress → Option Progress) → Option Progress}
    (hStep : Explains body step) (greedy : Bool) (fuel : List Char) (lower : Nat)
    (upper : Option Nat) :
    Explains (repeated ⟨lower, upper, greedy⟩ body)
      (repeatStep step greedy fuel lower upper) := by
  induction fuel generalizing lower upper with
  | nil => intro p next r h; cases h
  | cons _ fuel ih =>
    intro p next r h
    have hMore : (step p fun p' => if p'.place.offset = p.place.offset then next p'
        else repeatStep step greedy fuel (lower - 1) (upper.map (· - 1)) p' next) = some r →
        ∃ p', Leads (repeated ⟨lower, upper, greedy⟩ body) p p' ∧ next p' = some r := by
      intro hMore
      obtain ⟨p1, hLeads, hRest⟩ := hStep _ _ _ hMore
      split at hRest
      · exact ⟨p1, .last hLeads, hRest⟩
      · next hMoves =>
        obtain ⟨p2, hLeads', hNext⟩ := ih _ _ _ _ _ hRest
        exact ⟨p2, .again hLeads hMoves hLeads', hNext⟩
    simp only [repeatStep] at h
    split at h
    · exact hMore h
    · next hLower =>
      have hDone : next p = some r →
          ∃ p', Leads (repeated ⟨lower, upper, greedy⟩ body) p p' ∧ next p' = some r :=
        fun hNext => ⟨p, .never (Nat.eq_zero_of_not_pos hLower), hNext⟩
      split at h
      · exact hDone h
      · split at h
        · exact (Option.or_eq_some_iff.1 h).elim hMore fun h => hDone h.2
        · exact (Option.or_eq_some_iff.1 h).elim hDone fun h => hMore h.2

theorem explains_repeated {body : Program} (hBody : Explains body body.run) (q : Quantifier) :
    Explains (repeated q body) (repeated q body).run := by
  intro p next r h
  by_cases hTest : ∃ t, body = .test t
  · obtain ⟨t, rfl⟩ := hTest
    simp only [run] at h
    obtain ⟨place, hMem, hNext⟩ := List.exists_of_findSome?_eq_some h
    have hMem' : place ∈ (reach t q.upper p.place.after p.place).drop q.lower := by
      split at hMem
      · exact List.mem_reverse.1 hMem
      · exact hMem
    exact ⟨_, leads_of_mem_drop_reach p.captures rfl hMem', hNext⟩
  · rw [run] at h
    · exact explains_repeatStep hBody _ _ _ _ _ _ _ h
    · exact fun t hEq => hTest ⟨t, hEq⟩

theorem explains_run (program : Program) : Explains program program.run := by
  induction program with
  | nothing => exact fun p next r h => ⟨p, .nothing, h⟩
  | fail => exact fun p next r h => nomatch h
  | test t =>
    intro p next r h
    simp only [run] at h
    split at h
    · next hNext =>
      split at h
      · next hHas => exact ⟨_, .test hNext hHas, h⟩
      · cases h
    · cases h
  | text chars =>
    intro p next r h
    simp only [run] at h
    split at h
    · next hPast => exact ⟨_, .text hPast, h⟩
    · cases h
  | anchor a =>
    intro p next r h
    simp only [run] at h
    split at h
    · next hHolds => exact ⟨p, .anchor hHolds, h⟩
    · cases h
  | backreference groups fold =>
    intro p next r h
    simp only [run] at h
    split at h
    · next hPast => exact ⟨_, .backreference hPast, h⟩
    · cases h
  | capture index body ih =>
    intro p next r h
    obtain ⟨p', hLeads, hNext⟩ := ih _ _ _ h
    exact ⟨_, .capture hLeads, hNext⟩
  | atomic body ih =>
    intro p next r h
    simp only [run] at h
    split at h
    · next hBody =>
      obtain ⟨p', hLeads, ⟨⟩⟩ := ih _ _ _ hBody
      exact ⟨_, .atomic hLeads, h⟩
    · cases h
  -- A negated look-around goes on only where its body has no match, and then with
  -- what was captured before.
  | ahead negated body ih =>
    intro p next r h
    simp only [run] at h
    split at h
    · next hBody =>
      obtain ⟨p', hLeads, ⟨⟩⟩ := ih _ _ _ hBody
      cases negated
      · exact ⟨_, .ahead hLeads, h⟩
      · cases h
    · cases negated
      · cases h
      · exact ⟨p, .notAhead, h⟩
  | behind negated width body ih =>
    intro p next r h
    simp only [run] at h
    split at h
    · next hFound =>
      obtain ⟨place, hBack, hBody⟩ := Option.bind_eq_some_iff.1 hFound
      obtain ⟨p', hLeads, ⟨⟩⟩ := ih _ _ _ hBody
      cases negated
      · exact ⟨_, .behind hBack hLeads, h⟩
      · cases h
    · cases negated
      · cases h
      · exact ⟨p, .notBehind, h⟩
  | repeated q body ih => exact explains_repeated ih q
  | sequence first second ihFirst ihSecond =>
    intro p next r h
    obtain ⟨p1, hFirst, hRest⟩ := ihFirst _ _ _ h
    obtain ⟨p2, hSecond, hNext⟩ := ihSecond _ _ _ hRest
    exact ⟨p2, .sequence hFirst hSecond, hNext⟩
  | choice first second ihFirst ihSecond =>
    intro p next r h
    rcases Option.or_eq_some_iff.1 h with hFirst | ⟨-, hSecond⟩
    · obtain ⟨p', hLeads, hNext⟩ := ihFirst _ _ _ hFirst
      exact ⟨p', .left hLeads, hNext⟩
    · obtain ⟨p', hLeads, hNext⟩ := ihSecond _ _ _ hSecond
      exact ⟨p', .right hLeads, hNext⟩

theorem exists_leads_of_matchFrom {program : Program} {c d : Cursor}
    (h : program.matchFrom c = some d) :
    ∃ captures, Leads program ⟨c, []⟩ ⟨d, captures⟩ := by
  obtain ⟨r, hRun, rfl⟩ := Option.map_eq_some_iff.1 h
  obtain ⟨p, hLeads, ⟨⟩⟩ := explains_run program _ _ _ hRun
  exact ⟨_, hLeads⟩

end Highlighter.Pattern.Program
