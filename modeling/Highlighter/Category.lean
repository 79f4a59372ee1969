/-! The fixed set of labels that a grammar can attach to a stretch of text. -/

namespace Highlighter

/-- A label. `doctag` marks words such as `TODO:` in comments, `funtype` the start of a function
type among parameters, and `errormsg` what a comment expects as an error. -/
inductive Category
  | keyword
  | literal
  | builtIn
  | type
  | string
  | number
  | comment
  | doctag
  | function
  | funtype
  | title
  | params
  | typedef
  | errormsg
  | metadata
  deriving DecidableEq, Repr, Inhabited

namespace Category

/-- The labels in their fixed order. -/
def all : List Category :=
  [keyword, literal, builtIn, type, string, number, comment, doctag, function, funtype, title,
    params, typedef, errormsg, metadata]

/-- The name of a label in documents and style sheets. -/
def name : Category → String
  | keyword => "keyword"
  | literal => "literal"
  | builtIn => "built_in"
  | type => "type"
  | string => "string"
  | number => "number"
  | comment => "comment"
  | doctag => "doctag"
  | function => "function"
  | funtype => "funtype"
  | title => "title"
  | params => "params"
  | typedef => "typedef"
  | errormsg => "errormsg"
  | metadata => "meta"

def ofName? (s : String) : Option Category := all.find? (·.name == s)

def index (c : Category) : Nat := all.idxOf c

def cssClass (classPrefix : String) (c : Category) : String := classPrefix ++ c.name

end Category

/-- What style classes start with unless another start is asked for. -/
def defaultClassPrefix : String := "hljs-"

end Highlighter
