import Highlighter.Text.Split

/-! Paths of files, as texts with slashes between their parts. -/

namespace Highlighter.Path

open Text

def isAbsolute (path : String) : Bool := path.toList.head? == some '/'

/-- A part of a path that leads nowhere. -/
def isIdle (part : List Char) : Bool := part == [] || part == ['.']

/-- Parts with slashes between them. -/
def ofParts (parts : List (List Char)) : String := "/".intercalate (parts.map String.ofList)

/-- The path of the directory that a path leads into, if it leads anywhere. A dot counts
only at the start of a path. -/
def parent? (path : String) : Option String :=
  let dropIdle := List.dropWhile isIdle
  match splitOn '/' path.toList with
  | [] => none
  | first :: parts =>
    match dropIdle parts.reverse, first with
    | [], [] => none
    | [], _ => some ""
    | _ :: rest, [] => some ("/" ++ ofParts (dropIdle rest).reverse)
    | _ :: rest, _ => some (ofParts (first :: (dropIdle rest).reverse))

/-- The path of what `path` leads to from a directory. -/
def join (directory path : String) : String :=
  if isAbsolute path || directory == "" then path
  else if directory.toList.getLast? == some '/' then directory ++ path
  else directory ++ "/" ++ path

end Highlighter.Path
