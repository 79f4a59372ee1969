import Highlighter.Category
import Highlighter.Json.Basic

/-! What scanning a text finds: the stretches that modes and keywords classify, and the same as a
sequence of tokens that covers the text. -/

namespace Highlighter

/-- A stretch of a text that a mode or a keyword classifies, between two byte offsets. -/
structure Region where
  category : Category
  start : Nat
  stop : Nat
  depth : Nat
  deriving DecidableEq, Repr, Inhabited

/-- A stretch of a text with the categories of the regions around it, the outermost first. -/
structure Token where
  start : Nat
  stop : Nat
  categories : List Category
  deriving DecidableEq, Repr, Inhabited

/-- What has been found in a text. -/
structure Tokens where
  /-- The regions that are not empty, in the order in which they open. -/
  regions : List Region
  /-- Tokens from the start of the text to its end. -/
  tokens : List Token
  /-- How much the text looks like the language. -/
  relevance : UInt32
  deriving DecidableEq, Repr, Inhabited

def spanToJson (start stop : Nat) : Json := .object [("start", .nat start), ("end", .nat stop)]

def Region.toJson (r : Region) : Json :=
  .object [("category", .string r.category.name), ("span", spanToJson r.start r.stop),
    ("depth", .nat r.depth)]

def Token.toJson (t : Token) : Json :=
  .object [("span", spanToJson t.start t.stop),
    ("categories", .strings (t.categories.map (·.name)))]

def Tokens.toJson (t : Tokens) : Json :=
  .object [("regions", .array (t.regions.map (·.toJson))),
    ("tokens", .array (t.tokens.map (·.toJson))), ("relevance", .nat t.relevance.toNat)]

end Highlighter
