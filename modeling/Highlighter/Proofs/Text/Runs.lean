import Highlighter.Proofs.Text.Place
import Mathlib.Data.List.TakeWhile

/-! The longest runs of characters of one kind in a text, such as its words. `runs` reads them off
the text from left to right, and `mem_runs_iff` says that it leaves none out: a run is any stretch
of such characters that none of them precedes or follows. -/

namespace Highlighter.Text

/-- A stretch of a text, from a byte offset on. -/
structure Run where
  start : Nat
  chars : List Char
  deriving DecidableEq, Repr

namespace Run

def word (run : Run) : String := .ofList run.chars

def stop (run : Run) : Nat := run.start + byteLength run.chars

/-- A run stands in a text that starts at the byte offset `n`. It consists of characters that pass
`p`, at least one, and the characters right before and behind it do not. -/
def LongestIn (p : Char → Bool) (n : Nat) (text : List Char) (run : Run) : Prop :=
  run.chars ≠ [] ∧ (∀ x ∈ run.chars, p x = true) ∧
    ∃ left right, text = left ++ (run.chars ++ right) ∧ run.start = n + byteLength left ∧
      (∀ x ∈ left.getLast?, p x = false) ∧ ∀ x ∈ right.head?, p x = false

end Run

/-- The longest runs of characters that pass `p`, in a text that starts at the byte offset `n`. -/
def runs (p : Char → Bool) (n : Nat) : List Char → List Run
  | [] => []
  | x :: rest =>
    if p x then
      let word := x :: rest.takeWhile p
      ⟨n, word⟩ :: runs p (n + byteLength word) (rest.dropWhile p)
    else runs p (n + x.utf8Size) rest
  termination_by text => text.length
  decreasing_by
    · exact Nat.lt_succ_of_le (rest.dropWhile_suffix p).length_le
    · exact Nat.lt_succ_self _

variable {p : Char → Bool} {n : Nat} {run : Run}

theorem takeWhile_append_of_head? {word right : List Char} (hWord : ∀ x ∈ word, p x = true)
    (hRight : ∀ x ∈ right.head?, p x = false) : (word ++ right).takeWhile p = word := by
  rw [List.takeWhile_append_of_pos hWord]
  cases right with
  | nil => simp
  | cons y right => simp [hRight y rfl]

theorem head?_dropWhile {text : List Char} : ∀ x ∈ (text.dropWhile p).head?, p x = false := by
  intro x hx
  have hNot := List.head?_dropWhile_not p text
  rwa [show (text.dropWhile p).head? = some x from hx] at hNot

theorem forall_getLast?_append (front : List Char) {left : List Char} :
    (∀ x ∈ (front ++ left).getLast?, p x = false) ↔
      (∀ x ∈ left.getLast?, p x = false) ∧
        (left = [] → ∀ x ∈ front.getLast?, p x = false) := by
  rw [List.getLast?_append]
  cases hLast : left.getLast? with
  | none => simp [List.getLast?_eq_none_iff.1 hLast]
  | some x =>
    have hNe : left ≠ [] := fun hNil => by simp [hNil] at hLast
    simp [hNe]

namespace Run

theorem LongestIn.le_start {text : List Char} (h : run.LongestIn p n text) : n ≤ run.start := by
  obtain ⟨-, -, left, right, -, hStart, -⟩ := h
  omega

/-- No run starts with a character of another kind. -/
theorem longestIn_cons_iff {x : Char} {rest : List Char} (hx : p x = false) :
    run.LongestIn p n (x :: rest) ↔ run.LongestIn p (n + x.utf8Size) rest := by
  constructor
  · rintro ⟨hNe, hAll, left, right, hText, hStart, hLeft, hRight⟩
    cases left with
    | nil =>
      obtain ⟨y, chars, hChars⟩ := List.exists_cons_of_ne_nil hNe
      rw [List.nil_append, hChars, List.cons_append] at hText
      cases hText
      rw [hAll x (hChars ▸ List.mem_cons_self)] at hx
      cases hx
    | cons y left =>
      cases hText
      have hLast := (forall_getLast?_append [x]).1 hLeft
      refine ⟨hNe, hAll, left, right, rfl, ?_, hLast.1, hRight⟩
      rw [hStart, byteLength, Nat.add_assoc]
  · rintro ⟨hNe, hAll, left, right, rfl, hStart, hLeft, hRight⟩
    refine ⟨hNe, hAll, x :: left, right, rfl, ?_, ?_, hRight⟩
    · rw [hStart, byteLength, Nat.add_assoc]
    · exact (forall_getLast?_append [x]).2 ⟨hLeft, fun _ => by simpa using hx⟩

theorem longestIn_append_iff {word rest : List Char} (hNe : word ≠ [])
    (hWord : ∀ x ∈ word, p x = true) (hRest : ∀ x ∈ rest.head?, p x = false) :
    run.LongestIn p n (word ++ rest) ↔
      run = ⟨n, word⟩ ∨ run.LongestIn p (n + byteLength word) rest := by
  constructor
  · rintro ⟨hRunNe, hAll, left, right, hText, hStart, hLeft, hRight⟩
    rcases List.append_eq_append_iff.1 hText with ⟨more, rfl, hRestEq⟩ | ⟨more, hEq, hRunEq⟩
    · refine .inr ⟨hRunNe, hAll, more, right, hRestEq, ?_,
        ((forall_getLast?_append _).1 hLeft).1, hRight⟩
      rw [hStart, byteLength_append, Nat.add_assoc]
    · -- A character before the run would be one of `word`.
      obtain rfl : left = [] := by
        refine List.getLast?_eq_none_iff.1 (Option.eq_none_iff_forall_ne_some.2 fun x hx => ?_)
        have hPasses := hWord x (hEq ▸ List.mem_append_left more (List.mem_of_getLast? hx))
        rw [hLeft x hx] at hPasses
        cases hPasses
      obtain rfl : word = more := hEq
      have hChars := takeWhile_append_of_head? hAll hRight
      rw [hRunEq, takeWhile_append_of_head? hWord hRest] at hChars
      left
      obtain ⟨start, chars⟩ := run
      cases hChars
      cases hStart
      rfl
  · rintro (rfl | ⟨hRunNe, hAll, left, right, rfl, hStart, hLeft, hRight⟩)
    · exact ⟨hNe, hWord, [], rest, rfl, rfl, nofun, hRest⟩
    · refine ⟨hRunNe, hAll, word ++ left, right, (List.append_assoc ..).symm, ?_, ?_, hRight⟩
      · rw [hStart, byteLength_append, Nat.add_assoc]
      · -- What follows `word` is of another kind than the characters of the run.
        refine (forall_getLast?_append word).2 ⟨hLeft, ?_⟩
        rintro rfl
        obtain ⟨y, chars, hChars⟩ := List.exists_cons_of_ne_nil hRunNe
        have hNot := hRest y (by simp [hChars])
        rw [hAll y (hChars ▸ List.mem_cons_self)] at hNot
        cases hNot

end Run

/-- The runs of a text are its longest stretches of characters that pass `p`. -/
theorem mem_runs_iff {text : List Char} : run ∈ runs p n text ↔ run.LongestIn p n text := by
  fun_induction runs p n text with
  | case1 n =>
    refine iff_of_false List.not_mem_nil ?_
    rintro ⟨hNe, -, left, right, hText, -⟩
    simp_all
  | case2 n x rest hx word ih =>
    have hWord : ∀ y ∈ word, p y = true :=
      List.forall_mem_cons.2 ⟨hx, fun y hy => List.mem_takeWhile_imp hy⟩
    have hText : x :: rest = word ++ rest.dropWhile p := by simp [word]
    rw [List.mem_cons, ih, hText,
      Run.longestIn_append_iff (List.cons_ne_nil _ _) hWord head?_dropWhile]
  | case3 n x rest hx ih => rw [ih, Run.longestIn_cons_iff (Bool.eq_false_iff.2 hx)]

theorem pairwise_runs (p : Char → Bool) (n : Nat) (text : List Char) :
    (runs p n text).Pairwise fun run later => run.stop ≤ later.start := by
  fun_induction runs p n text with
  | case1 n => exact .nil
  | case2 n x rest hx word ih =>
    exact List.pairwise_cons.2 ⟨fun later hLater => (mem_runs_iff.1 hLater).le_start, ih⟩
  | case3 n x rest hx ih => exact ih

theorem byteLength_map {f : Char → Char} (hSize : ∀ c, (f c).utf8Size = c.utf8Size)
    (cs : List Char) : byteLength (cs.map f) = byteLength cs := by
  induction cs with
  | nil => rfl
  | cons c cs ih => rw [List.map_cons, byteLength, byteLength, hSize, ih]

/-- Characters may be replaced by others of their kind and of their size. -/
theorem runs_map {f : Char → Char} (hKind : ∀ c, p (f c) = p c)
    (hSize : ∀ c, (f c).utf8Size = c.utf8Size) (n : Nat) (text : List Char) :
    runs p n (text.map f) = (runs p n text).map fun run => ⟨run.start, run.chars.map f⟩ := by
  have hComp : p ∘ f = p := funext hKind
  fun_induction runs p n text with
  | case1 n => rw [List.map_nil, runs, List.map_nil]
  | case2 n x rest hx word ih =>
    have hWord : byteLength (word.map f) = byteLength word := byteLength_map hSize word
    rw [List.map_cons, runs, if_pos ((hKind x).trans hx), List.takeWhile_map, List.dropWhile_map,
      hComp, ← List.map_cons]
    show ⟨n, word.map f⟩ :: runs p (n + byteLength (word.map f)) _ = _
    rw [hWord, ih]
    rfl
  | case3 n x rest hx ih => rw [List.map_cons, runs, if_neg (by rwa [hKind x]), hSize, ih]

example : runs (·.isAlpha) 0 "a-bc--é".toList = [⟨0, ['a']⟩, ⟨2, ['b', 'c']⟩] := by
  decide +kernel

end Highlighter.Text
