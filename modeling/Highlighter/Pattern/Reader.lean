import Highlighter.Pattern.Tree
import Highlighter.Pattern.ClassReader

/-! Reading a pattern from left to right. The groups that are open at any time lie on a
stack, so the depth of a pattern is a number and not a recursion; each step takes in
one element of the pattern. -/

namespace Highlighter.Pattern

open Highlighter.Text

/-- The options in force at a place in a pattern. -/
structure Options where
  /-- Case is disregarded. -/
  fold : Bool
  /-- The dot matches a line break. -/
  dotAll : Bool
  /-- Blanks and comments are skipped. -/
  extended : Bool
  deriving DecidableEq, Repr

/-- What an open group will be once it is closed. -/
inductive Opener
  | plain
  | capture (index : Nat) (named : Bool)
  | atomic
  | look (behind negated : Bool)
  | scope
  /-- The rest of the enclosing group, from an option that stands alone. -/
  | remainder
  deriving DecidableEq, Repr

/-- An open group: the options outside of it, its finished branches and the parts of the branch at
hand, the last ones first. -/
structure Level where
  opener : Opener
  outer : Options
  branches : List Tree
  parts : List Tree

namespace Level

def opened (opener : Opener) (outer : Options) : Level := ⟨opener, outer, [], []⟩

/-- The pattern between the parentheses. -/
def body (l : Level) : Tree :=
  Tree.ofBranches (Tree.ofParts l.parts.reverse :: l.branches).reverse

/-- The group as a part of its surroundings. -/
def tree (l : Level) : Tree :=
  match l.opener with
  | .plain => l.body
  | .capture index named => .capture index named l.body
  | .atomic => .atomic l.body
  | .look behind negated => .look behind negated l.body
  | .scope | .remainder => .scope l.body

/-- Adds a part to the branch at hand. -/
def push (l : Level) (t : Tree) : Level := { l with parts := t :: l.parts }

end Level

/-- A pattern that has been read up to some place: the innermost open group and those around it, the
options in force, the number of capturing groups so far, the names among them, latest first, and the
number of quantifiers on the last part. -/
structure Reader where
  level : Level
  below : List Level
  options : Options
  captures : Nat
  names : List (List Char × Nat)
  repeats : Nat

namespace Reader

def start (options : Options) : Reader := ⟨.opened .plain options, [], options, 0, [], 0⟩

def depth (r : Reader) : Nat := r.below.length + 1

def push (r : Reader) (t : Tree) : Reader := { r with level := r.level.push t, repeats := 0 }

def pushChar (r : Reader) (code : Nat) : Reader :=
  r.push (.literal [Char.ofNat code] r.options.fold)

def pushClass (r : Reader) (k : CharClass) : Reader :=
  r.push (.test (if r.options.fold then .folded k else .ofClass k))

/-- Takes in a set that case does not concern. -/
def pushSet (r : Reader) (s : CharSet) : Reader := r.push (.test (.ofClass ⟨s, false⟩))

def enter (r : Reader) (opener : Opener) (options : Options) : Except PatternError Reader :=
  if r.depth ≥ depthLimit then .error .depthLimit
  else .ok { r with level := .opened opener r.options, below := r.level :: r.below, options,
                    repeats := 0 }

def bar (r : Reader) : Reader :=
  let done := Tree.ofParts r.level.parts.reverse
  { r with level := { r.level with branches := done :: r.level.branches, parts := [] },
           repeats := 0 }

/-- Closes the levels that options opened, down to the innermost group with a parenthesis, and gives
it with the levels around it. -/
def settle : Level → List Level → Level × List Level
  | top, [] => (top, [])
  | top, next :: below =>
    match top.opener with
    | .remainder => settle (next.push top.tree) below
    | _ => (top, next :: below)

/-- Takes in a closing parenthesis. -/
def close (r : Reader) : Except PatternError Reader :=
  match settle r.level r.below with
  | (_, []) => .error .unmatchedClose
  | (top, next :: below) =>
    .ok { r with level := next.push top.tree, below, options := top.outer, repeats := 0 }

/-- Takes in a quantifier. A count of exactly one leaves the part as it is, and literal text then
falls back into its characters. -/
def quantify (r : Reader) (q : Quantifier) (possessive : Bool) : Except PatternError Reader :=
  match r.level.parts with
  | [] => .error .noRepeatTarget
  | t :: rest =>
    if r.depth + r.repeats ≥ depthLimit then .error .depthLimit
    else
      let parts :=
        if q.lower = 1 ∧ q.upper = some 1 then
          match t with
          | .literal (c :: cs) fold => ((c :: cs).map fun x => .literal [x] fold).reverse ++ rest
          | t => t :: rest
        else
          let t := Tree.quantify q t
          (if possessive then .atomic t else t) :: rest
      .ok { r with level := { r.level with parts }, repeats := r.repeats + 1 }

end Reader

/-- The greatest count of a quantifier. -/
def repeatLimit : Nat := 100000

/-- A quantifier in braces as it is written. -/
structure Interval where
  lower : Nat
  upper : Option Nat
  /-- The count is a single number. -/
  exact : Bool

/-- Reads `{n}`, `{n,}`, `{n,m}` or `{,m}` after the opening brace. Anything else is no
quantifier. -/
def readInterval (cs : List Char) : Except PatternError (Option (Interval × List Char)) :=
  let (low, rest) := takeDigits isAsciiDigit cs.length cs
  let lower := baseValue 10 low
  if lower > repeatLimit then .error .repeatTooBig
  else match rest with
    | ',' :: rest =>
      let (high, rest) := takeDigits isAsciiDigit rest.length rest
      let upper := baseValue 10 high
      if upper > repeatLimit then .error .repeatTooBig
      else if low = [] ∧ high = [] then .ok none
      else match rest with
        | '\x7d' :: rest =>
          .ok (some (⟨lower, if high = [] then none else some upper, false⟩, rest))
        | _ => .ok none
    | '\x7d' :: rest => .ok (if low = [] then none else some (⟨lower, some lower, true⟩, rest))
    | _ => .ok none

/-- The names of a pattern's groups consist of these characters. -/
def isGroupNameChar (c : Char) : Bool := isNameChar c

/-- Where the name of a group ends: at its closing sign or at a parenthesis. The place of the last
character that was looked at comes with it. -/
def scanName (closing : Char) : List Char → List Char → List Char × List Char
  | name, [] => (name, [])
  | name, c :: rest =>
    if c = closing ∨ c = ')' then (name, c :: rest) else scanName closing (c :: name) rest

/-- Reads the name of a group that is being defined, up to `closing`. It may not be empty and must
consist of name characters, the first of which is no digit. -/
def readGroupName (closing : Char) (cs : List Char) : Reading (List Char) :=
  match cs with
  | [] => .error .emptyGroupName
  | c :: rest =>
    if c = closing then .error .emptyGroupName
    else
      let (reversed, after) := scanName closing [c] rest
      let name := reversed.reverse
      let fault : Option (String → PatternError) :=
        if isAsciiDigit c ∨ c = '-' ∨ c = '+' then some .groupName
        else if !isGroupNameChar c then some .groupNameChar
        else match name.find? (!isGroupNameChar ·) with
          | some _ => some .groupNameChar
          | none => none
      match fault, after with
      | some e, [x] => .error (e (String.ofList (name ++ [x])))
      | some e, _ => .error (e (String.ofList name))
      | none, x :: rest' =>
        if x = closing then .ok (name, rest') else .error (.groupName (String.ofList name))
      | none, [] =>
        .error (.groupName (String.ofList (if rest = [] then name else name.dropLast)))

/-- The end of a reference's name: its closing sign, a parenthesis, or the sign of a level. -/
def scanReference (closing : Char) : List Char → List Char × List Char
  | [] => ([], [])
  | c :: rest =>
    if c = closing ∨ c = ')' ∨ c = '+' ∨ c = '-' then ([], c :: rest)
    else
      let (name, after) := scanReference closing rest
      (c :: name, after)

/-- A reference to a group: by number, counted from the first group or back from here, or by
name. -/
inductive Reference
  | absolute (n : Nat)
  | relative (back : Bool) (n : Nat)
  | named (name : List Char)

/-- Reads a reference after `\k<`, up to `closing`. -/
def readReference (closing : Char) (cs : List Char) : Reading Reference :=
  match cs with
  | [] => .error .emptyGroupName
  | c :: rest =>
    if c = closing then .error .emptyGroupName
    else
      let signed := c = '-' ∨ c = '+'
      let numeric := signed ∨ isAsciiDigit c
      let (tail, after) := scanReference closing rest
      let name := c :: tail
      let shown := String.ofList name
      let digits := if signed then tail else name
      if numeric then
        if digits = [] ∨ !digits.all isAsciiDigit then .error (.groupName shown)
        -- A level behind the number is not part of the language.
        else match after with
          | x :: after' =>
            if x = closing then
              let n := baseValue 10 digits
              if n > numberLimit then .error .numberTooBig
              else if n = 0 then .error (.groupName (String.ofList cs))
              else .ok (if signed then .relative (c = '-') n else .absolute n, after')
            else .error (.groupName (String.ofList cs))
          | [] => .error (.groupName (String.ofList cs))
      else if !name.all isGroupNameChar then .error (.groupNameChar shown)
      else match after with
        | x :: after' => if x = closing then .ok (.named name, after')
          else .error (.groupName (String.ofList cs))
        | [] => .error (.groupName (String.ofList cs))

/-- The rest after a comment in parentheses; a backslash hides the character after it. -/
def skipComment : List Char → Option (List Char)
  | [] => none
  | ')' :: rest => some rest
  | ['\\'] => none
  | '\\' :: _ :: rest => skipComment rest
  | _ :: rest => skipComment rest

/-- The options of a group, as far as they have been read. -/
inductive OptionsEnd
  /-- `)`: they hold for the rest of the enclosing group. -/
  | alone (options : Options)
  /-- `:`: they hold for this group. -/
  | group (options : Options)

/-- Reads the option letters of a group. After `-` they are switched off. -/
def readOptions (options : Options) (off : Bool) : List Char → Reading OptionsEnd
  | [] => .error .endInGroup
  | ')' :: rest => .ok (.alone options, rest)
  | ':' :: rest => .ok (.group options, rest)
  | '-' :: rest => readOptions options true rest
  | 'i' :: rest => readOptions { options with fold := !off } off rest
  | 'm' :: rest => readOptions { options with dotAll := !off } off rest
  | 'x' :: rest => readOptions { options with extended := !off } off rest
  | _ :: _ => .error .unknownGroupOption

namespace Reader

/-- Opens a group that captures its text under a name. -/
def openNamed (r : Reader) (closing : Char) (cs : List Char) : Reading Reader :=
  match readGroupName closing cs with
  | .error e => .error e
  | .ok (name, rest) =>
    let index := r.captures + 1
    (({ r with captures := index, names := (name, index) :: r.names }).enter (.capture index true)
      r.options).map (·, rest)

/-- Takes in what follows an opening parenthesis. -/
def group (r : Reader) (cs : List Char) : Reading Reader :=
  let opened (opener : Opener) (rest : List Char) := (r.enter opener r.options).map (·, rest)
  match cs with
  | '?' :: '#' :: rest =>
    match skipComment rest with
    | some rest => .ok (r, rest)
    | none => .error .endInGroup
  | ['?'] => .error .endInGroup
  | '?' :: ':' :: rest => opened .plain rest
  | '?' :: '=' :: rest => opened (.look false false) rest
  | '?' :: '!' :: rest => opened (.look false true) rest
  | '?' :: '>' :: rest => opened .atomic rest
  | '?' :: '\'' :: rest => r.openNamed '\'' rest
  | ['?', '<'] => .error .unmatchedOpen
  | '?' :: '<' :: '=' :: rest => opened (.look true false) rest
  | '?' :: '<' :: '!' :: rest => opened (.look true true) rest
  | '?' :: '<' :: rest => r.openNamed '>' rest
  | '?' :: c :: rest =>
    if ['-', 'i', 'm', 'x'].contains c then
      match readOptions r.options false (c :: rest) with
      | .error e => .error e
      | .ok (.alone options, rest) => (r.enter .remainder options).map (·, rest)
      | .ok (.group options, rest) => (r.enter .scope options).map (·, rest)
    else .error .unknownGroupOption
  | _ =>
    let index := r.captures + 1
    (({ r with captures := index }).enter (.capture index false) r.options).map (·, cs)

/-- Takes in a backreference by number. -/
def backreference (r : Reader) (n : Nat) : Reader :=
  r.push (.backreference [n] false r.options.fold)

/-- Takes in `\k` with its reference. -/
def reference (r : Reader) (closing : Char) (cs : List Char) : Reading Reader :=
  match readReference closing cs with
  | .error e => .error e
  | .ok (.absolute n, rest) => .ok (r.backreference n, rest)
  | .ok (.relative false n, rest) => .ok (r.backreference (r.captures + n), rest)
  | .ok (.relative true n, rest) =>
    if n ≤ r.captures then .ok (r.backreference (r.captures + 1 - n), rest)
    else .error .unknownBackreference
  | .ok (.named name, rest) =>
    match (r.names.filter (·.1 == name)).map (·.2) with
    | [] => .error (.unknownName (String.ofList name))
    | groups => .ok (r.push (.backreference groups true r.options.fold), rest)

/-- Takes in an escape that starts with a digit other than zero: a backreference if there can be
such a group, else a character. -/
def digitEscape (r : Reader) (c : Char) (rest : List Char) : Reading Reader :=
  let (digits, after) := takeDigits isAsciiDigit (c :: rest).length (c :: rest)
  let n := baseValue 10 digits
  -- A single digit refers to a group even if that is opened only later.
  if n ≤ 1000 ∧ (n ≤ r.captures ∨ n ≤ 9) then .ok (r.backreference n, after)
  else if isOctalDigit c then
    (octalCharacter 3 (c :: rest)).map fun x => (r.pushChar x.1, x.2)
  else .ok (r.pushChar c.toNat, rest)

/-- Takes in what follows a backslash. -/
def escape (r : Reader) (c : Char) (rest : List Char) : Reading Reader :=
  match c, rest with
  | 's', _ => .ok (r.pushSet (.property .space), rest)
  | 'S', _ => .ok (r.pushSet (.compl (.property .space)), rest)
  | 'h', _ => .ok (r.pushSet (.property .hexDigit), rest)
  | 'H', _ => .ok (r.pushSet (.compl (.property .hexDigit)), rest)
  | 'A', _ => .ok (r.push (.anchor .textStart), rest)
  | 'z', _ => .ok (r.push (.anchor .textEnd), rest)
  | 'Z', _ => .ok (r.push (.anchor .lastLineEnd), rest)
  | 'b', _ => .ok (r.push (.anchor (.wordBoundary false)), rest)
  | 'B', _ => .ok (r.push (.anchor (.wordBoundary true)), rest)
  | 'p', '\x7b' :: rest => (readProperty false rest).map fun x => (r.pushSet x.1, x.2)
  | 'P', '\x7b' :: rest => (readProperty true rest).map fun x => (r.pushSet x.1, x.2)
  | 'k', '<' :: rest => r.reference '>' rest
  | 'k', '\'' :: rest => r.reference '\'' rest
  | '0', _ => (octalCharacter 2 rest).map fun x => (r.pushChar x.1, x.2)
  | _, _ =>
    if isAsciiDigit c then r.digitEscape c rest
    else (escapedCharacter c rest).map fun x => (r.pushChar x.1, x.2)

/-- Takes in a quantifier of one sign, with the sign after it that makes it lazy or possessive. -/
def sign (r : Reader) (lower : Nat) (upper : Option Nat) (rest : List Char) : Reading Reader :=
  match rest with
  | '?' :: rest => (r.quantify ⟨lower, upper, false⟩ false).map (·, rest)
  | '+' :: rest => (r.quantify ⟨lower, upper, true⟩ true).map (·, rest)
  | _ => (r.quantify ⟨lower, upper, true⟩ false).map (·, rest)

/-- Takes in a quantifier in braces. One whose bounds are in the wrong order is possessive with the
bounds exchanged; an exact count cannot be made lazy. -/
def interval (r : Reader) (i : Interval) (rest : List Char) : Reading Reader :=
  let swapped := match i.upper with
    | some upper => decide (upper < i.lower)
    | none => false
  if swapped then
    (r.quantify ⟨i.upper.getD 0, some i.lower, true⟩ true).map (·, rest)
  else match i.exact, rest with
    | false, '?' :: rest => (r.quantify ⟨i.lower, i.upper, false⟩ false).map (·, rest)
    | _, _ => (r.quantify ⟨i.lower, i.upper, true⟩ false).map (·, rest)

/-- A blank that extended patterns skip. -/
def isLayout (c : Char) : Bool := [' ', '\t', '\n', '\r', '\x0c'].contains c

/-- Takes in the element of the pattern that starts with `c`. -/
def step (r : Reader) (c : Char) (rest : List Char) : Reading Reader :=
  match c with
  | '\\' =>
    match rest with
    | [] => .error .endAtEscape
    | d :: rest => r.escape d rest
  | '.' => .ok (r.push (.test (.any r.options.dotAll)), rest)
  | '^' => .ok (r.push (.anchor .lineStart), rest)
  | '$' => .ok (r.push (.anchor .lineEnd), rest)
  | '|' => .ok (r.bar, rest)
  | '(' => r.group rest
  | ')' => r.close.map (·, rest)
  | '*' => r.sign 0 none rest
  | '+' => r.sign 1 none rest
  | '?' => r.sign 0 (some 1) rest
  | '\x7b' =>
    match readInterval rest with
    | .error e => .error e
    | .ok (some (i, rest)) => r.interval i rest
    | .ok none => .ok (r.pushChar c.toNat, rest)
  | '[' =>
    match readClass r.depth (rest.length + 2) rest with
    | .error e => .error e
    | .ok (k, rest) => .ok (r.pushClass k, rest)
  | _ =>
    if r.options.extended ∧ isLayout c then .ok (r, rest)
    else if r.options.extended ∧ c = '#' then .ok (r, (rest.dropWhile (· != '\n')).drop 1)
    else .ok (r.pushChar c.toNat, rest)

/-- Takes in the rest of a pattern; `fuel` bounds the number of elements. -/
def run : Nat → Reader → List Char → Except PatternError Reader
  | _, r, [] => .ok r
  | 0, _, _ :: _ => .error .depthLimit
  | fuel + 1, r, c :: rest =>
    match r.step c rest with
    | .error e => .error e
    | .ok (r, rest) => run fuel r rest

/-- The whole pattern, all of whose groups must be closed. -/
def finish (r : Reader) : Except PatternError Tree :=
  match settle r.level r.below with
  | (top, []) => .ok top.body
  | _ => .error .unmatchedOpen

end Reader

end Highlighter.Pattern
