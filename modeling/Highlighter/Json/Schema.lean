import Highlighter.Json.Basic

/-! Reading structured values out of JSON documents: which fields a structure has, which of them may
be left out, and how deep arrays and objects may be nested. -/

namespace Highlighter.Json

/-- Greatest number of arrays and objects that may lie within one another. -/
def nestingLimit : Nat := 127

/-- Reads what lies within an array or object, if there is room for one more of them. -/
def enter {α : Type} (room : Nat) (read : Nat → Option α) : Option α :=
  match room with
  | 0 => none
  | room + 1 => read room

/-- Numbers from here on are too large for binary floating point of 64 bits. -/
def magnitudeLimit : Nat := Nat.pow 2 1024 - Nat.pow 2 970

def isFinite (digits : Nat) (exponent : Int) : Bool :=
  let places : Int := (Nat.toDigits 10 digits).length + exponent
  digits = 0 || places ≤ 308 ||
    (places = 309 &&
      digits * Nat.pow 10 exponent.toNat < magnitudeLimit * Nat.pow 10 (-exponent).toNat)

mutual

/-- Everything in a value can be read, with room for `room` arrays and objects within one
another. -/
def fits : Nat → Json → Bool
  | _, .null => true
  | _, .bool _ => true
  | _, .integer n => isFinite n.natAbs 0
  | _, .decimal _ digits exponent => isFinite digits exponent
  | _, .string _ => true
  | 0, .array _ => false
  | room + 1, .array items => allFit room items
  | 0, .object _ => false
  | room + 1, .object members => membersFit room members
  | _, .unreadable => false

def allFit : Nat → List Json → Bool
  | _, [] => true
  | room, v :: rest => fits room v && allFit room rest

def membersFit : Nat → List (String × Json) → Bool
  | _, [] => true
  | room, (_, v) :: rest => fits room v && membersFit room rest

end

/-- The values of a structure's fields, in the order of its field names. -/
abbrev Fields := List (Option Json)

def Fields.get (f : Fields) (place : Nat) : Option Json := (f[place]?).join

/-- The value of a field among the members of an object, if it is there. A field must not be there
twice. -/
def field? (members : List (String × Json)) (name : String) : Option (Option Json) :=
  match members.filter (·.1 == name) with
  | [] => some none
  | [member] => some (some member.2)
  | _ => none

/-- The fields of a structure: an object, whose other members are passed over, or an array of the
first fields, `least` of them or more. -/
def fields? (names : List String) (least : Nat) : Json → Option Fields
  | .object members => names.mapM (field? members)
  | .array items =>
    if least ≤ items.length ∧ items.length ≤ names.length then some (items.map some) else none
  | _ => none

/-- Reads a field that may be absent or null. -/
def optional {α : Type} (read : Json → Option α) : Option Json → Option (Option α)
  | none => some none
  | some .null => some none
  | some j => (read j).map some

/-- Reads a field that may be absent. -/
def orElse {α : Type} (read : Json → Option α) (fallback : α) : Option Json → Option α
  | none => some fallback
  | some j => read j

/-- Reads a field that must be there. -/
def required {α : Type} (read : Json → Option α) (field : Option Json) : Option α :=
  field.bind read

def list? {α : Type} (room : Nat) (read : Json → Option α) (j : Json) : Option (List α) :=
  enter room fun _ => j.items?.bind (·.mapM read)

def texts? (room : Nat) (j : Json) : Option (List String) := list? room string? j

/-- Reads an object with values of one kind; of members with the same key the last one counts. -/
def entries? {α : Type} (room : Nat) (read : Json → Option α) :
    Json → Option (List (String × α))
  | .object members => enter room fun _ => members.mapM fun m => (read m.2).map (m.1, ·)
  | _ => none

/-- Reads a name: a text, or an object with the name as its only key and nothing as its value. -/
def name? (room : Nat) : Json → Option String
  | .string s => some s
  | .object [(s, .null)] => enter room fun _ => some s
  | _ => none

end Highlighter.Json
