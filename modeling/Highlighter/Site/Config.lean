import Highlighter.Grammar.Document
import Highlighter.Language.Co
import Highlighter.Registry
import Highlighter.Site.Hook
import Highlighter.Site.Path

/-! The configuration of a site: where it is written, and which languages it can show. Files are
read by a function that is given, which has nothing for a file that is not there. -/

namespace Highlighter

open Json

abbrev ReadFile (m : Type → Type) := String → m (Option String)

/-- The configuration of a site. -/
structure SiteConfig where
  outdir : String := "../docs"
  /-- The versions of Co, by their tags. -/
  languages : Dict Co.Version := .ofList [(Co.tag, .current)]
  /-- The files with further grammars, by their tags. -/
  grammars : Dict String := .empty
  deriving DecidableEq

def Co.Version.ofJson? (room : Nat) (j : Json) : Option Co.Version := (name? room j).bind ofName?

def readText {m : Type → Type} [Monad m] (read : ReadFile m) (path : String) :
    m (Except Error String) := do
  match ← read path with
  | some text => return .ok text
  | none => return .error .missingFile

/-- Adds the grammar in a file under a tag. -/
def Registry.registerFile {m : Type → Type} [Monad m] (read : ReadFile m) (r : Registry)
    (tag path : String) : m (Except Error Registry) := do
  let text ← readText read path
  return text.bind fun text => do r.register tag (← Grammar.ofText text)

namespace SiteConfig

/-- The fields of a configuration, in the order in which an array lists them. -/
def fieldNames : List String := ["outdir", "languages", "grammars"]

def ofJson? (j : Json) : Option SiteConfig := enter nestingLimit fun room => do
  let f ← fields? fieldNames 0 j
  let default : SiteConfig := {}
  return { outdir := ← orElse string? default.outdir (f.get 0)
           languages := ← orElse (fun j => (entries? room (Co.Version.ofJson? (room - 1)) j).map
             .ofList) default.languages (f.get 1)
           grammars := ← orElse (fun j => (entries? room string? j).map .ofList) default.grammars
             (f.get 2) }

/-- The configuration that a text is a document of. -/
def ofText (text : String) : Except Error SiteConfig :=
  match (Json.parse? text).bind ofJson? with
  | some c => .ok c
  | none => .error .malformed

/-- The configuration as it holds in any directory when it lies in a file: paths that it names start
from the directory of the file. -/
def resolve (c : SiteConfig) (path : String) : SiteConfig :=
  match Path.parent? path with
  | some directory => { c with grammars := c.grammars.map (Path.join directory) }
  | none => c

def load {m : Type → Type} [Monad m] (read : ReadFile m) (path : String) :
    m (Except Error SiteConfig) := do
  let text ← readText read path
  return text.bind fun text => (ofText text).map (·.resolve path)

end SiteConfig

/-- A site and the languages that its code is shown in. -/
structure SiteContext where
  site : Site := {}
  registry : Registry := .empty

namespace SiteContext

/-- A step of a configuration, which keeps what it has done when it fails. -/
abbrev ConfigureM (m : Type → Type) := ExceptT Error (StateT SiteContext m)

def enter {m : Type → Type} [Monad m] (result : Except Error Registry) : ConfigureM m Unit :=
  match result with
  | .ok registry => modify fun c => { c with registry }
  | .error e => throw e

/-- Applies a configuration: the place where the site is written, then the versions of Co in the
order of their tags, then the other grammars in the order of theirs. -/
def configure {m : Type → Type} [Monad m] (read : ReadFile m) (config : SiteConfig) :
    ConfigureM m Unit := do
  modify fun c => { c with site.outdir := config.outdir }
  config.languages.entries.forM fun (tag, version) => do
    enter ((← get).registry.register tag (Co.grammar version))
  config.grammars.entries.forM fun (tag, path) => do
    let registry := (← get).registry
    enter (← (registry.registerFile read tag path : m (Except Error Registry)))

end SiteContext

end Highlighter
