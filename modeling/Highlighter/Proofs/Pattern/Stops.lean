import Highlighter.Proofs.Pattern.Beginning
import Highlighter.Proofs.Pattern.Joining
import Highlighter.Proofs.Text.Between

/-! Where patterns match, as they are searched for among terminators. Where a pattern does not match
can be told from what its matches begin with and from whether they cover any text. -/

namespace Highlighter.Pattern

open Highlighter.Text

/-- The place where a pattern, as it is searched for among terminators, matches to from a place. -/
@[irreducible]
def stop? (ignoreCase : Bool) (pattern : String) (c : Cursor) : Option Cursor :=
  (Pattern.compile ⟨ignoreCase, true⟩ (spellOut 0 false pattern.toList)).toOption.bind
    (·.matchFrom c)

/-- A match of the pattern may begin with a character. -/
def begins (ignoreCase : Bool) (pattern : String) (x : Char) : Bool :=
  (Pattern.compile ⟨ignoreCase, true⟩ (spellOut 0 false pattern.toList)).toOption.any
    (·.begins x true)

def consumes (ignoreCase : Bool) (pattern : String) : Bool :=
  (Pattern.compile ⟨ignoreCase, true⟩ (spellOut 0 false pattern.toList)).toOption.any
    (·.consumes)

variable {ignoreCase : Bool} {pattern : String} {c : Cursor}

theorem stop?_eq {program : Program}
    (h : Pattern.compile ⟨ignoreCase, true⟩ (spellOut 0 false pattern.toList) = .ok program)
    (c : Cursor) : stop? ignoreCase pattern c = program.matchFrom c := by
  rw [stop?, h]
  rfl

theorem begins_eq {program : Program}
    (h : Pattern.compile ⟨ignoreCase, true⟩ (spellOut 0 false pattern.toList) = .ok program)
    (x : Char) : begins ignoreCase pattern x = program.begins x true := by
  rw [begins, h]
  rfl

theorem exists_program_of_stop? {stop : Cursor} (h : stop? ignoreCase pattern c = some stop) :
    ∃ program,
      Pattern.compile ⟨ignoreCase, true⟩ (spellOut 0 false pattern.toList) = .ok program ∧
        program.matchFrom c = some stop := by
  cases hProgram : Pattern.compile ⟨ignoreCase, true⟩ (spellOut 0 false pattern.toList) with
  | error e =>
    rw [stop?, hProgram] at h
    cases h
  | ok program => exact ⟨program, rfl, (stop?_eq hProgram c).symm.trans h⟩

theorem stop?_eq_none_of_begins {x : Char} (hHead : c.next? = some x)
    (h : begins ignoreCase pattern x = false) : stop? ignoreCase pattern c = none := by
  refine Option.eq_none_iff_forall_ne_some.2 fun stop hStop => ?_
  obtain ⟨program, hProgram, hMatch⟩ := exists_program_of_stop? hStop
  rw [begins_eq hProgram, Program.begins_of_matchFrom hMatch hHead] at h
  cases h

theorem stop?_eq_none_of_atEnd (hEnd : c.atEnd = true) (h : consumes ignoreCase pattern = true) :
    stop? ignoreCase pattern c = none := by
  refine Option.eq_none_iff_forall_ne_some.2 fun stop hStop => ?_
  obtain ⟨program, hProgram, hMatch⟩ := exists_program_of_stop? hStop
  rw [consumes, hProgram] at h
  rw [← (Program.reaches_matchFrom hMatch).eq_of_atEnd hEnd] at hMatch
  exact Program.matchFrom_ne_self h c hMatch

/-! ### Patterns that are texts -/

theorem stop?_char {x : Char}
    (h : compile ⟨ignoreCase, true⟩ (spellOut 0 false pattern.toList) = .ok (.test (.char x)))
    (left right : List Char) :
    stop? ignoreCase pattern (.between left (x :: right)) =
      some (.between (left ++ [x]) right) := by
  have hHas : (CharTest.char x).has x = true := beq_self_eq_true x
  rw [stop?_eq h, Program.matchFrom, Program.run]
  simp only [Cursor.next?_between, List.head?_cons, hHas, if_true, Option.map_some,
    Cursor.advance_between]

section

variable {chars : List Char}
  (h : compile ⟨ignoreCase, true⟩ (spellOut 0 false pattern.toList) = .ok (.text chars))
include h

theorem stop?_eq_past? (c : Cursor) : stop? ignoreCase pattern c = c.past? chars := by
  rw [stop?_eq h, Program.matchFrom, Program.run]
  dsimp only
  cases c.past? chars <;> rfl

theorem stop?_text (left right : List Char) :
    stop? ignoreCase pattern (.between left (chars ++ right)) =
      some (.between (left ++ chars) right) := by
  rw [stop?_eq_past? h, Cursor.past?_between]

theorem stop?_text_eq_none {left right : List Char} (hOther : ¬ chars <+: right) :
    stop? ignoreCase pattern (.between left right) = none := by
  rw [stop?_eq_past? h]
  exact Option.eq_none_iff_forall_ne_some.2 fun stop hStop =>
    hOther ⟨stop.after, (Cursor.after_of_past? hStop).1.symm⟩

end

/-! ### Patterns that begin with texts -/

/-- The characters that stand at the front of a program, behind its anchors. -/
def Program.lead : Program → List Char
  | text chars => chars
  | sequence (anchor _) second => second.lead
  | sequence first _ => first.lead
  | _ => []

theorem Program.Leads.lead_prefix {program : Program} {p q : Progress} (h : Leads program p q) :
    program.lead <+: p.place.after := by
  fun_induction lead program generalizing p q with
  | case1 chars =>
    cases h with
    | text hPast => exact ⟨_, (Cursor.after_of_past? hPast).1.symm⟩
  | case2 a second ih =>
    cases h with
    | sequence hAnchor rest =>
      cases hAnchor
      exact ih rest
  | case3 first second _ ih =>
    cases h with
    | sequence h _ => exact ih h
  | case4 => exact List.nil_prefix

theorem stop?_eq_none_of_lead {chars : List Char}
    (hLead : (compile ⟨ignoreCase, true⟩ (spellOut 0 false pattern.toList)).toOption.map
      (·.lead) = some chars) (hOther : ¬ chars <+: c.after) :
    stop? ignoreCase pattern c = none := by
  refine Option.eq_none_iff_forall_ne_some.2 fun stop hStop => ?_
  obtain ⟨program, hProgram, hMatch⟩ := exists_program_of_stop? hStop
  rw [hProgram] at hLead
  cases hLead
  obtain ⟨captures, hLeads⟩ := Program.exists_leads_of_matchFrom hMatch
  exact hOther hLeads.lead_prefix

end Highlighter.Pattern
