import Highlighter.Error
import Highlighter.Grammar.Rule
import Highlighter.Json.Reader
import Highlighter.Json.Schema

/-! Grammars as JSON documents. -/

namespace Highlighter

open Json

def Category.ofJson? (room : Nat) (j : Json) : Option Category := (name? room j).bind ofName?

namespace Keywords

def fieldNames : List String := ["$pattern", "keyword", "literal", "built_in", "type"]

/-- A keyword table as a document: its words by category, and the pattern if it has one. -/
def toJson (k : Keywords) : Json :=
  .present [("$pattern", k.pattern.map .string), ("keyword", some (.strings k.keyword)),
    ("literal", some (.strings k.literal)), ("built_in", some (.strings k.builtIn)),
    ("type", some (.strings k.type))]

/-- Reads a table: a text, all of whose words are keywords, or an object with lists of words. All of
the value must fit, also what is passed over. -/
def ofJson? (room : Nat) (j : Json) : Option Keywords :=
  if j.fits room then
    match j with
    | .string s => some (.ofText s)
    | .object members => do
      let f ← fields? fieldNames 0 (.object members)
      return { pattern := ← optional string? (f.get 0),
               keyword := ← orElse strings? [] (f.get 1),
               literal := ← orElse strings? [] (f.get 2),
               builtIn := ← orElse strings? [] (f.get 3),
               type := ← orElse strings? [] (f.get 4) }
    | _ => none
  else none

end Keywords

/-- A relevance is a number below 2³². -/
def relevance? (j : Json) : Option UInt32 := (j.natBelow? UInt32.size).map UInt32.ofNat

namespace ModeRule

/-- The fields of a mode, in the order in which an array lists them. -/
def fieldNames : List String :=
  ["className", "begin", "beginKeywords", "end", "returnBegin", "excludeBegin", "returnEnd",
   "excludeEnd", "endsParent", "endsWithParent", "keywords", "illegal", "relevance", "contains",
   "variants"]

/-- The settings of a mode as the members of a document. -/
def settingMembers (s : ModeSettings) : List (String × Option Json) :=
  [("className", s.category.map fun c => .string c.name), ("begin", s.opening.map .string),
   ("beginKeywords", s.openingWords.map .string), ("end", s.closing.map .string),
   ("returnBegin", s.returnOpening.map .bool), ("excludeBegin", s.excludeOpening.map .bool),
   ("returnEnd", s.returnClosing.map .bool), ("excludeEnd", s.excludeClosing.map .bool),
   ("endsParent", s.closesParent.map .bool), ("endsWithParent", s.closesWithParent.map .bool),
   ("keywords", s.keywords.map Keywords.toJson), ("illegal", s.illegal.map .string),
   ("relevance", s.relevance.map fun n => .nat n.toNat)]

mutual

/-- A mode as a document: what is set, and the variants if there are any. -/
def toJson : ModeRule → Json
  | .mk settings contains variants =>
    let contains? : Option Json := match contains with
      | some refs => some (.array (refsToJson refs))
      | none => none
    let variants? : Option Json := match variants with
      | [] => none
      | variants => some (.array (rulesToJson variants))
    .present (settingMembers settings ++ [("contains", contains?), ("variants", variants?)])

def refToJson : ModeRef → Json
  | .named name => .string name
  | .inline rule => toJson rule

def refsToJson : List ModeRef → List Json
  | [] => []
  | ref :: refs => refToJson ref :: refsToJson refs

def rulesToJson : List ModeRule → List Json
  | [] => []
  | rule :: rules => toJson rule :: rulesToJson rules

end

def settings? (room : Nat) (f : Fields) : Option ModeSettings := do
  return { category := ← optional (Category.ofJson? room) (f.get 0)
           opening := ← optional string? (f.get 1)
           openingWords := ← optional string? (f.get 2)
           closing := ← optional string? (f.get 3)
           returnOpening := ← optional bool? (f.get 4)
           excludeOpening := ← optional bool? (f.get 5)
           returnClosing := ← optional bool? (f.get 6)
           excludeClosing := ← optional bool? (f.get 7)
           closesParent := ← optional bool? (f.get 8)
           closesWithParent := ← optional bool? (f.get 9)
           keywords := ← optional (Keywords.ofJson? room) (f.get 10)
           illegal := ← optional string? (f.get 11)
           relevance := ← optional relevance? (f.get 12) }

/-- Reads an entry of a list of modes, of which `rule?` reads the modes. All of the value must fit,
also what is passed over. -/
def ref? (rule? : Json → Option ModeRule) (room : Nat) (j : Json) : Option ModeRef :=
  if j.fits room then
    match j with
    | .string s => some (.named s)
    | j => (rule? j).map .inline
  else none

/-- Reads a mode from a structure with room for `room` more arrays and objects within it; `rule?`
reads the modes in its lists. -/
def ofFields? (rule? : Json → Option ModeRule) (room : Nat) (j : Json) : Option ModeRule := do
  let f ← fields? fieldNames 0 j
  return .mk (← settings? room f)
    (← optional (list? room (ref? rule? (room - 1))) (f.get 13))
    (← orElse (list? room rule?) [] (f.get 14))

/-- Reads a mode with room for `room` arrays and objects within one another. A mode within a mode
takes two of them, since it lies in a list. -/
def ofJson? : Nat → Json → Option ModeRule
  | 0, _ => none
  | 1, j => ofFields? (fun _ => none) 0 j
  | room + 2, j => ofFields? (ofJson? room) (room + 1) j

end ModeRule

namespace Grammar

def fieldNames : List String :=
  ["name", "aliases", "caseInsensitive", "keywords", "illegal", "contains", "modes"]

def modesToJson (modes : Dict ModeRule) : Option Json :=
  match modes.entries with
  | [] => none
  | entries => some (.object (entries.map fun e => (e.1, e.2.toJson)))

def toJson (g : Grammar) : Json :=
  .present [("name", some (.string g.name)), ("aliases", some (.strings g.aliases)),
    ("caseInsensitive", some (.bool g.caseInsensitive)),
    ("keywords", g.keywords.map Keywords.toJson), ("illegal", g.illegal.map .string),
    ("contains", some (.array (ModeRule.refsToJson g.contains))), ("modes", modesToJson g.modes)]

/-- Reads the list of modes in a structure with room for `room` more arrays and objects. -/
def contains? (room : Nat) (j : Json) : Option (List ModeRef) :=
  list? room (ModeRule.ref? (ModeRule.ofJson? (room - 1)) (room - 1)) j

/-- Reads named modes in a structure with room for `room` more arrays and objects. -/
def modes? (room : Nat) (j : Json) : Option (Dict ModeRule) :=
  (entries? room (ModeRule.ofJson? (room - 1)) j).map .ofList

/-- Reads a grammar in a document with room for `limit` arrays and objects within one another. -/
def readWithin? (limit : Nat) (j : Json) : Option Grammar := enter limit fun room => do
  let f ← fields? fieldNames 0 j
  return { name := ← orElse string? "" (f.get 0)
           aliases := ← orElse (texts? room) [] (f.get 1)
           caseInsensitive := ← orElse bool? false (f.get 2)
           keywords := ← optional (Keywords.ofJson? room) (f.get 3)
           illegal := ← optional string? (f.get 4)
           contains := ← orElse (contains? room) [] (f.get 5)
           modes := ← orElse (modes? room) .empty (f.get 6) }

def ofJson? (j : Json) : Option Grammar := readWithin? nestingLimit j

def ofText (text : String) : Except Error Grammar :=
  match (Json.parse? text).bind ofJson? with
  | some g => .ok g
  | none => .error .malformed

end Grammar

namespace Keywords

def ofDocument (text : String) : Except Error Keywords :=
  match (Json.parse? text).bind (ofJson? nestingLimit) with
  | some k => .ok k
  | none => .error .malformed

end Keywords

end Highlighter
