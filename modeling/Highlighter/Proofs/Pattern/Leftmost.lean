import Highlighter.Proofs.Pattern.Forward
import Highlighter.Scan.Words

/-! Leftmost matches, and the successive ones in a text. A search finds the leftmost match from
where it starts, so the words of a text are looked for among the successive matches: after each one
the search goes on where it ends, and one character later if it covers nothing. -/

namespace Highlighter

open Text Pattern

/-! ### Single matches -/

namespace Pattern.Program

variable {program : Program} {rest : List Char} {c : Cursor}

/-- What a search finds matches where it starts, and the program matches nowhere before that. -/
theorem search_eq_some_iff {s : Span} (hAfter : c.after = rest) : program.search rest c = some s ↔
    c.Reaches s.start ∧ program.matchFrom s.start = some s.stop ∧
      ∀ d, c.Reaches d → d.offset < s.start.offset → program.matchFrom d = none := by
  fun_induction search program rest c with
  | case1 rest c stop hMatch =>
    constructor
    · rintro ⟨⟩
      exact ⟨.refl c, hMatch, fun d hd hLt => absurd hLt (Nat.not_lt.2 hd.offset_le)⟩
    · rintro ⟨hReach, hStop, hFirst⟩
      rcases hReach.eq_or_advance with rfl | ⟨hLt, -⟩
      · rw [Option.some.inj (hMatch.symm.trans hStop)]
      · cases hMatch.symm.trans (hFirst c (.refl c) hLt)
  | case2 c hNone =>
    constructor
    · intro h
      cases h
    · rintro ⟨hReach, hStop, -⟩
      rw [← hReach.eq_of_atEnd (List.isEmpty_iff.2 hAfter)] at hStop
      cases hNone.symm.trans hStop
  | case3 c x rest hNone ih =>
    rw [ih (Cursor.advance_after hAfter)]
    constructor
    · rintro ⟨hReach, hStop, hFirst⟩
      refine ⟨(Cursor.reaches_advance c).trans hReach, hStop, fun d hd hLt => ?_⟩
      -- A place further on is this one, where nothing matches, or lies behind the next character.
      rcases hd.eq_or_advance with rfl | ⟨-, hPast⟩
      · exact hNone
      · exact hFirst d hPast hLt
    · rintro ⟨hReach, hStop, hFirst⟩
      rcases hReach.eq_or_advance with rfl | ⟨-, hPast⟩
      · cases hNone.symm.trans hStop
      · exact ⟨hPast, hStop, fun d hd => hFirst d ((Cursor.reaches_advance c).trans hd)⟩

/-- A search that finds nothing has come past no place where the program matches. -/
theorem search_eq_none_iff (hAfter : c.after = rest) :
    program.search rest c = none ↔ ∀ d, c.Reaches d → program.matchFrom d = none := by
  fun_induction search program rest c with
  | case1 rest c stop hMatch =>
    constructor
    · intro h
      cases h
    · intro h
      cases hMatch.symm.trans (h c (.refl c))
  | case2 c hNone =>
    refine ⟨fun _ d hd => ?_, fun _ => rfl⟩
    rw [← hd.eq_of_atEnd (List.isEmpty_iff.2 hAfter)]
    exact hNone
  | case3 c x rest hNone ih =>
    rw [ih (Cursor.advance_after hAfter)]
    constructor
    · intro h d hd
      rcases hd.eq_or_advance with rfl | ⟨-, hPast⟩
      · exact hNone
      · exact h d hPast
    · exact fun h d hd => h d ((Cursor.reaches_advance c).trans hd)

end Pattern.Program

namespace Regex

/-- The leftmost match at or after a place. -/
structure Leftmost (r : Regex) (c : Cursor) (s : Span) : Prop where
  reaches : c.Reaches s.start
  stop : r.matchAt? s.start = some s.stop
  first : ∀ d, c.Reaches d → d.offset < s.start.offset → r.matchAt? d = none

variable {r : Regex} {c : Cursor} {s : Span}

theorem Leftmost.reaches_stop (h : r.Leftmost c s) : s.start.Reaches s.stop :=
  reaches_matchAt? h.stop

theorem find?_eq_some_iff : r.find? c = some s ↔ r.Leftmost c s := by
  have hFields : r.Leftmost c s ↔ c.Reaches s.start ∧ r.matchAt? s.start = some s.stop ∧
      ∀ d, c.Reaches d → d.offset < s.start.offset → r.matchAt? d = none :=
    ⟨fun h => ⟨h.reaches, h.stop, h.first⟩,
      fun ⟨hReaches, hStop, hFirst⟩ => ⟨hReaches, hStop, hFirst⟩⟩
  rw [hFields]
  unfold find? matchAt?
  cases r.program with
  | error e => simp
  | ok program => exact Program.search_eq_some_iff rfl

theorem find?_eq_none_iff : r.find? c = none ↔ ∀ d, c.Reaches d → r.matchAt? d = none := by
  unfold find? matchAt?
  cases r.program with
  | error e => simp
  | ok program => exact Program.search_eq_none_iff rfl

/-! ### Successive matches -/

/-- The successive matches from a place on. Each is the leftmost one from where the one
before it ends, and from one character later on if that one is empty; an empty one at the end
of the text is the last. -/
inductive Successive (r : Regex) : Cursor → List Span → Prop
  | none {c : Cursor} (h : ∀ d, c.Reaches d → r.matchAt? d = none) : Successive r c []
  | last {c : Cursor} {s : Span} (h : r.Leftmost c s) (hEmpty : s.isEmpty = true)
    (hEnd : s.start.atEnd = true) : Successive r c [s]
  | empty {c : Cursor} {s : Span} {spans : List Span} (h : r.Leftmost c s)
      (hEmpty : s.isEmpty = true) (hEnd : s.start.atEnd = false)
      (rest : Successive r s.start.advance spans) : Successive r c (s :: spans)
  | word {c : Cursor} {s : Span} {spans : List Span} (h : r.Leftmost c s)
      (hWord : s.isEmpty = false) (rest : Successive r s.stop spans) : Successive r c (s :: spans)

theorem Leftmost.length_stop_lt (h : r.Leftmost c s) (hWord : s.isEmpty = false) :
    s.stop.after.length < c.after.length := by
  have hNe : s.start.offset ≠ s.stop.offset := by simpa [Span.isEmpty] using hWord
  have hLt := h.reaches_stop.length_lt (Nat.lt_of_le_of_ne h.reaches_stop.offset_le hNe)
  exact Nat.lt_of_lt_of_le hLt h.reaches.length_le

theorem Leftmost.length_advance_lt (h : r.Leftmost c s) (hEnd : s.start.atEnd = false) :
    s.start.advance.after.length < c.after.length :=
  Nat.lt_of_lt_of_le (Cursor.length_advance_lt hEnd) h.reaches.length_le

theorem exists_successive (r : Regex) (c : Cursor) : ∃ spans, r.Successive c spans := by
  induction hLength : c.after.length using Nat.strongRecOn generalizing c with
  | ind n ih =>
    subst hLength
    cases hFind : r.find? c with
    | none => exact ⟨[], .none (find?_eq_none_iff.1 hFind)⟩
    | some s =>
      have hLeftmost := find?_eq_some_iff.1 hFind
      cases hEmpty : s.isEmpty with
      | false =>
        obtain ⟨spans, hRest⟩ := ih _ (hLeftmost.length_stop_lt hEmpty) s.stop rfl
        exact ⟨s :: spans, .word hLeftmost hEmpty hRest⟩
      | true =>
        cases hEnd : s.start.atEnd with
        | true => exact ⟨[s], .last hLeftmost hEmpty hEnd⟩
        | false =>
          obtain ⟨spans, hRest⟩ := ih _ (hLeftmost.length_advance_lt hEnd) s.start.advance rfl
          exact ⟨s :: spans, .empty hLeftmost hEmpty hEnd hRest⟩

/-- What the first match is decides where the others are searched for. -/
theorem successive_iff {spans : List Span} : r.Successive c spans ↔
    match r.find? c with
    | none => spans = []
    | some s =>
      if s.isEmpty then
        if s.start.atEnd then spans = [s] else ∃ rest, spans = s :: rest ∧
          r.Successive s.start.advance rest
      else ∃ rest, spans = s :: rest ∧ r.Successive s.stop rest := by
  constructor
  · intro h
    cases h with
    | none h => rw [find?_eq_none_iff.2 h]
    | last h hEmpty hEnd => simp [find?_eq_some_iff.2 h, hEmpty, hEnd]
    | empty h hEmpty hEnd rest => simpa [find?_eq_some_iff.2 h, hEmpty, hEnd] using rest
    | word h hWord rest => simpa [find?_eq_some_iff.2 h, hWord] using rest
  · intro h
    cases hFind : r.find? c with
    | none =>
      rw [hFind] at h
      subst h
      exact .none (find?_eq_none_iff.1 hFind)
    | some s =>
      have hLeftmost := find?_eq_some_iff.1 hFind
      simp only [hFind] at h
      split at h
      · next hEmpty =>
        split at h
        · next hEnd =>
          subst h
          exact .last hLeftmost hEmpty hEnd
        · next hEnd =>
          obtain ⟨rest, rfl, hRest⟩ := h
          exact .empty hLeftmost hEmpty (Bool.not_eq_true _ ▸ hEnd) hRest
      · next hWord =>
        obtain ⟨rest, rfl, hRest⟩ := h
        exact .word hLeftmost (Bool.not_eq_true _ ▸ hWord) hRest

namespace Successive

variable {spans spans' : List Span}

theorem unique (h : r.Successive c spans) (h' : r.Successive c spans') : spans' = spans := by
  induction h generalizing spans' with
  | none h => simpa [successive_iff, find?_eq_none_iff.2 h] using h'
  | last h hEmpty hEnd =>
    rw [successive_iff] at h'
    simpa [find?_eq_some_iff.2 h, hEmpty, hEnd] using h'
  | empty h hEmpty hEnd _ ih =>
    rw [successive_iff] at h'
    simp only [find?_eq_some_iff.2 h, hEmpty, hEnd] at h'
    obtain ⟨rest, rfl, hRest⟩ := h'
    rw [ih hRest]
  | word h hWord _ ih =>
    rw [successive_iff] at h'
    simp only [find?_eq_some_iff.2 h, hWord] at h'
    obtain ⟨rest, rfl, hRest⟩ := h'
    rw [ih hRest]

/-- Those that are not empty are what words are looked for among. -/
theorem matchesFrom_eq (h : r.Successive c spans) {searches : Nat}
    (hEnough : c.after.length < searches) :
    r.matchesFrom searches c = spans.filter fun s => !s.isEmpty := by
  induction h generalizing searches with
  | none h =>
    obtain ⟨searches, rfl⟩ := Nat.exists_eq_add_one_of_ne_zero (Nat.ne_zero_of_lt hEnough)
    simp [matchesFrom, find?_eq_none_iff.2 h]
  | last h hEmpty hEnd =>
    obtain ⟨searches, rfl⟩ := Nat.exists_eq_add_one_of_ne_zero (Nat.ne_zero_of_lt hEnough)
    simp [matchesFrom, find?_eq_some_iff.2 h, hEmpty, hEnd]
  | empty h hEmpty hEnd _ ih =>
    obtain ⟨searches, rfl⟩ := Nat.exists_eq_add_one_of_ne_zero (Nat.ne_zero_of_lt hEnough)
    have hLt := h.length_advance_lt hEnd
    have hRest := @ih searches (by omega)
    simp [matchesFrom, find?_eq_some_iff.2 h, hEmpty, hEnd, hRest]
  | word h hWord _ ih =>
    obtain ⟨searches, rfl⟩ := Nat.exists_eq_add_one_of_ne_zero (Nat.ne_zero_of_lt hEnough)
    have hLt := h.length_stop_lt hWord
    have hRest := @ih searches (by omega)
    simp [matchesFrom, find?_eq_some_iff.2 h, hWord, hRest]

theorem allMatches_eq {text : List Char} (h : r.Successive (.start text) spans) :
    r.allMatches text = spans.filter fun s => !s.isEmpty :=
  h.matchesFrom_eq (Nat.lt_succ_self text.length)

end Successive

end Regex

end Highlighter
