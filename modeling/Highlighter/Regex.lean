import Highlighter.Pattern.Ascii
import Highlighter.Pattern.Compile

/-! Regular expressions as grammars use them: a pattern, whether it regards case, and the
program that the two come to. -/

namespace Highlighter

open Text Pattern

/-- A regular expression. Its program is a function of the rest, kept so that it is found only
once. -/
structure Regex where
  pattern : String
  ignoreCase : Bool
  program : Except PatternError Program
  program_eq : program = compile ⟨ignoreCase, false⟩ (asciiClasses pattern).toList

namespace Regex

theorem ext_of_eq {r s : Regex} (hp : r.pattern = s.pattern) (hi : r.ignoreCase = s.ignoreCase) :
    r = s := by
  obtain ⟨p, i, _, rfl⟩ := r
  obtain ⟨p', i', _, rfl⟩ := s
  cases hp
  cases hi
  rfl

instance : DecidableEq Regex := fun r s =>
  if h : r.pattern = s.pattern ∧ r.ignoreCase = s.ignoreCase then .isTrue (ext_of_eq h.1 h.2)
  else .isFalse fun e => h (e ▸ ⟨rfl, rfl⟩)

def ofPattern (pattern : String) (ignoreCase : Bool) : Regex :=
  ⟨pattern, ignoreCase, _, rfl⟩

def fault? (r : Regex) : Option PatternError :=
  match r.program with
  | .error e => some e
  | .ok _ => none

/-- The end of the match that starts right at `c`. A broken pattern matches nowhere. -/
def matchAt? (r : Regex) (c : Cursor) : Option Cursor :=
  match r.program with
  | .ok program => program.matchFrom c
  | .error _ => none

/-- The leftmost match at or after `c`. -/
def find? (r : Regex) (c : Cursor) : Option Span :=
  match r.program with
  | .ok program => program.search c.after c
  | .error _ => none

end Regex

end Highlighter
