import Highlighter.Proofs.Pattern.Joining
import Highlighter.Proofs.Pattern.Runs

/-! Reading a pattern of which only the outline is known. What a stretch of it does to a reader does
not depend on what comes behind it, so that stretches are read one after the other: parts make up a
branch, branches the body of a group, and a group is a part again. -/

namespace Highlighter.Pattern

open Highlighter.Text

/-- The options of a pattern that sets none and regards case. -/
def Options.plain : Options := ⟨false, false, false⟩

namespace Reader

/-! ### Stretches -/

/-- A stretch of a pattern leads from one reader to another, whatever comes behind it. -/
def Reads (cs : List Char) (r r' : Reader) : Prop :=
  ∃ n ≤ cs.length, ∀ k rest, run (k + n) r (cs ++ rest) = run k r' rest

section Reads

variable {cs ds : List Char} {r r' r'' : Reader}

theorem Reads.refl (r : Reader) : Reads [] r r := ⟨0, Nat.le_refl _, fun _ _ => rfl⟩

theorem Reads.trans (h : Reads cs r r') (h' : Reads ds r' r'') : Reads (cs ++ ds) r r'' := by
  obtain ⟨n, hn, hRun⟩ := h
  obtain ⟨m, hm, hRun'⟩ := h'
  refine ⟨m + n, ?_, fun k rest => ?_⟩
  · rw [List.length_append]
    omega
  · rw [← Nat.add_assoc, List.append_assoc, hRun, hRun']

/-- The first element of a stretch may depend on what follows it there. -/
theorem Reads.cons {c : Char}
    (hStep : ∀ rest, r.step c (cs ++ (ds ++ rest)) = .ok (r', ds ++ rest))
    (h : Reads ds r' r'') : Reads (c :: (cs ++ ds)) r r'' := by
  obtain ⟨n, hn, hRun⟩ := h
  refine ⟨n + 1, ?_, fun k rest => ?_⟩
  · rw [List.length_cons, List.length_append]
    omega
  · rw [← Nat.add_assoc, List.cons_append, List.append_assoc, run, hStep]
    exact hRun k rest

theorem Reads.of_step {c : Char} (hStep : ∀ rest, r.step c (cs ++ rest) = .ok (r', rest)) :
    Reads (c :: cs) r r' := by
  have hAll : Reads (c :: (cs ++ [])) r r' := .cons hStep (.refl r')
  rwa [List.append_nil] at hAll

theorem Reads.run_eq (h : Reads cs r r') : run cs.length r cs = .ok r' := by
  obtain ⟨n, hn, hRun⟩ := h
  obtain ⟨k, hk⟩ := Nat.exists_eq_add_of_le' hn
  have hAll := hRun k []
  rwa [List.append_nil, ← hk, run_nil] at hAll

end Reads

/-! ### Parts and bodies -/

/-- The reader with these branches and parts in its innermost group. -/
def holding (r : Reader) (branches parts : List Tree) : Reader :=
  { r with level := { r.level with branches, parts }, repeats := 0 }

/-- The reader within a group that it has opened. -/
def inside (r : Reader) (opener : Opener) : Reader :=
  { r with level := .opened opener r.options, below := r.level :: r.below, repeats := 0 }

/-- A stretch is read as parts of a branch by any reader with room for so many groups, one in
another. -/
def ReadsParts (room : Nat) (cs : List Char) (ts : List Tree) : Prop :=
  ∀ (r : Reader) (branches parts : List Tree),
    r.options = .plain → r.depth + room ≤ depthLimit →
    Reads cs (r.holding branches parts) (r.holding branches (ts.reverse ++ parts))

/-- A stretch is read as the branches of a group. -/
def ReadsBody (room : Nat) (cs : List Char) (ts : List Tree) : Prop :=
  ∃ branches parts, (Tree.ofParts parts.reverse :: branches).reverse = ts ∧
    ∀ r : Reader, r.options = .plain → r.depth + room ≤ depthLimit →
      Reads cs (r.holding [] []) (r.holding branches parts)

variable {room : Nat} {cs ds : List Char} {ts us : List Tree}

theorem ReadsParts.mono (h : ReadsParts room cs ts) {more : Nat} (hLe : room ≤ more) :
    ReadsParts more cs ts :=
  fun r branches parts hOptions hRoom => h r branches parts hOptions (by omega)

theorem ReadsParts.append (h : ReadsParts room cs ts) (h' : ReadsParts room ds us) :
    ReadsParts room (cs ++ ds) (ts ++ us) := by
  intro r branches parts hOptions hRoom
  have hFirst := h r branches parts hOptions hRoom
  have hSecond := h' r branches (ts.reverse ++ parts) hOptions hRoom
  rw [← List.append_assoc, ← List.reverse_append] at hSecond
  exact hFirst.trans hSecond

theorem ReadsParts.of_step {c : Char} {t : Tree}
    (hStep : ∀ (r : Reader) rest, r.options = .plain → r.depth + room ≤ depthLimit →
      r.step c (cs ++ rest) = .ok (r.push t, rest)) : ReadsParts room (c :: cs) [t] :=
  fun r branches parts hOptions hRoom => .of_step fun rest =>
    hStep (r.holding branches parts) rest hOptions hRoom

theorem ReadsParts.body (h : ReadsParts room cs ts) : ReadsBody room cs [Tree.ofParts ts] := by
  refine ⟨[], ts.reverse, ?_, fun r hOptions hRoom => ?_⟩
  · rw [List.reverse_reverse]
    rfl
  · have hParts := h r [] [] hOptions hRoom
    rwa [List.append_nil] at hParts

theorem ReadsBody.bar (h : ReadsBody room cs ts) (h' : ReadsParts room ds us) :
    ReadsBody room (cs ++ '|' :: ds) (ts ++ [Tree.ofParts us]) := by
  obtain ⟨branches, parts, hTrees, hReads⟩ := h
  refine ⟨Tree.ofParts parts.reverse :: branches, us.reverse, ?_, fun r hOptions hRoom => ?_⟩
  · rw [List.reverse_cons, hTrees, List.reverse_reverse]
  · have hBar : Reads ['|'] (r.holding branches parts)
        (r.holding (Tree.ofParts parts.reverse :: branches) []) := .of_step fun _ => rfl
    have hParts := h' r (Tree.ofParts parts.reverse :: branches) [] hOptions hRoom
    rw [List.append_nil] at hParts
    exact (hReads r hOptions hRoom).trans (hBar.trans hParts)

/-! ### Groups -/

/-- A group is read if its body is. `opened` is the reader that enters the group. -/
theorem ReadsBody.reads (h : ReadsBody room cs ts) {r opened : Reader} {opening : List Char}
    {opener : Opener} {t : Tree} (hOpen : ∀ rest, r.group (opening ++ (cs ++ ')' :: rest)) =
      (opened.enter opener opened.options).map (·, cs ++ ')' :: rest))
    (hOptions : opened.options = .plain) (hRoom : opened.depth + (room + 1) ≤ depthLimit)
    (hOpener : opener ≠ .remainder)
    (hTree : ∀ l : Level, l.opener = opener → l.body = Tree.ofBranches ts → l.tree = t) :
    Reads ('(' :: (opening ++ (cs ++ [')']))) r (opened.push t) := by
  obtain ⟨branches, parts, rfl, hReads⟩ := h
  have hBody := hReads (opened.inside opener) hOptions (by
    show opened.below.length + 1 + 1 + room ≤ _
    simp only [depth] at hRoom
    omega)
  have hEnter : opened.enter opener opened.options = .ok (opened.inside opener) := if_neg (by omega)
  have hClose : Reads [')'] ((opened.inside opener).holding branches parts) (opened.push t) := by
    rw [← hTree ⟨opener, opened.options, branches, parts⟩ rfl rfl]
    refine .of_step fun rest => ?_
    cases opener <;> first | rfl | exact absurd rfl hOpener
  refine .cons (fun rest => ?_) (hBody.trans hClose)
  show r.group _ = _
  rw [List.append_assoc, List.singleton_append, hOpen, hEnter]
  rfl

theorem ReadsBody.part (h : ReadsBody room cs ts) (opening : List Char) (opener : Opener) {t : Tree}
    (hOpen : ∀ (r : Reader) rest, r.group (opening ++ rest) =
      (r.enter opener r.options).map (·, rest)) (hOpener : opener ≠ .remainder)
    (hTree : ∀ l : Level, l.opener = opener → l.body = Tree.ofBranches ts → l.tree = t) :
    ReadsParts (room + 1) ('(' :: (opening ++ (cs ++ [')']))) [t] :=
  fun r branches parts hOptions hRoom =>
    h.reads (fun _ => hOpen (r.holding branches parts) _) hOptions hRoom hOpener hTree

theorem ReadsBody.plain (h : ReadsBody room cs ts) :
    ReadsParts (room + 1) ('(' :: '?' :: ':' :: (cs ++ [')'])) [Tree.ofBranches ts] :=
  h.part ['?', ':'] .plain (fun _ _ => rfl) nofun fun l hOpener hBody => by
    rw [Level.tree, hOpener, hBody]

/-- What stands behind the parenthesis of a look-around. -/
def lookOpening (behind negated : Bool) : List Char :=
  '?' :: ((if behind then ['<'] else []) ++ [if negated then '!' else '='])

theorem ReadsBody.look (h : ReadsBody room cs ts) (behind negated : Bool) :
    ReadsParts (room + 1) ('(' :: (lookOpening behind negated ++ (cs ++ [')'])))
      [.look behind negated (Tree.ofBranches ts)] :=
  h.part (lookOpening behind negated) (.look behind negated)
    (fun _ _ => by cases behind <;> cases negated <;> rfl) nofun fun l hOpener hBody => by
    rw [Level.tree, hOpener, hBody]

/-- A group that captures is counted. -/
theorem ReadsBody.capture (h : ReadsBody room cs ts)
    (hHead : ∀ rest, (cs ++ ')' :: rest).head? ≠ some '?') {r : Reader}
    (hOptions : r.options = .plain) (hRoom : r.depth + (room + 1) ≤ depthLimit) :
    Reads ('(' :: (cs ++ [')'])) r (({ r with captures := r.captures + 1 } : Reader).push
      (.capture (r.captures + 1) false (Tree.ofBranches ts))) := by
  rw [← List.nil_append (cs ++ [')'])]
  exact h.reads (fun rest => group_of_head (hHead rest)) hOptions hRoom nofun
    fun l hOpener hBody => by rw [Level.tree, hOpener, hBody]

/-! ### Characters and classes -/

theorem readsParts_char {c : Char}
    (hc : c ∉ ['\\', '.', '^', '$', '|', '(', ')', '*', '+', '?', '\x7b', '[']) :
    ReadsParts 0 [c] [.literal [c] false] := by
  refine .of_step fun r rest hOptions _ => ?_
  rw [List.nil_append, step_literal r rest hc]
  simp [Options.plain, pushChar, hOptions]

/-- If each character of a text is read as itself from some element, the text is read from these. -/
theorem readsParts_flatMap {f : Char → List Char} {text : List Char}
    (h : ∀ c ∈ text, ReadsParts 0 (f c) [.literal [c] false]) :
    ReadsParts 0 (text.flatMap f) (text.map fun c => .literal [c] false) := by
  induction text with
  | nil => exact fun r branches parts _ _ => .refl _
  | cons c text ih =>
    obtain ⟨hHere, hRest⟩ := List.forall_mem_cons.1 h
    exact hHere.append (ih hRest)

theorem readsParts_dot : ReadsParts 0 ['\\', '.'] [.literal ['.'] false] := by
  refine .of_step fun r rest hOptions _ => ?_
  have hStep : r.step '\\' ('.' :: rest) = .ok (r.push (.literal ['.'] r.options.fold), rest) := rfl
  rw [List.singleton_append, hStep, hOptions]
  rfl

theorem readsParts_space :
    ReadsParts 0 ['\\', 's'] [.test (.ofClass ⟨.property .space, false⟩)] :=
  .of_step fun _ _ _ _ => rfl

theorem readsParts_wordRanges : ReadsParts 1 (bracket wordRanges) [.test wordChar] := by
  have hText :
      bracket wordRanges = '[' :: ['0', '-', '9', 'A', '-', 'Z', 'a', '-', 'z', '_', ']'] := by
    decide
  rw [hText]
  refine .of_step fun r rest hOptions hRoom => ?_
  rw [step_bracket, readClass_of_head (by simp), if_neg (by omega)]
  show Except.ok (r.pushClass _, rest) = _
  rw [pushClass, hOptions]
  rfl

end Reader

end Highlighter.Pattern
