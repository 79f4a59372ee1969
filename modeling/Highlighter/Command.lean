import Highlighter.Json.Printer
import Highlighter.Render.Terminal
import Highlighter.Site.Config
import Highlighter.Theme.Document
import Highlighter.Theme.Stylesheet

/-! The command line: what its arguments ask for, and what it prints. -/

namespace Highlighter

/-- What highlighted code is printed as. -/
inductive Format
  | html
  | terminal
  | regions
  deriving DecidableEq, Repr

def Format.ofName? : String → Option Format
  | "html" => some html
  | "ansi" => some terminal
  | "tokens" => some regions
  | _ => none

/-- What the command line is asked for. -/
inductive Command
  | highlight (file language : String) (format : Format) (version : Co.Version)
      (grammar theme : Option String) (lineNumbers : Bool)
  | stylesheet (classPrefix : String) (theme : Option String)
  | showVersion
  deriving DecidableEq, Repr

/-- What an argument after the command's name is. -/
structure Arguments where
  /-- Options with their values, the last one first. -/
  options : List (String × String) := []
  flags : List String := []
  positional : List String := []
  deriving DecidableEq, Repr

namespace Arguments

/-- An argument starts with a hyphen and is more than it, so that it cannot be a value. -/
def isOption (argument : String) : Bool :=
  match argument.toList with
  | '-' :: _ :: _ => true
  | _ => false

/-- The name and value of an option, of which the value may follow an equals sign. -/
def splitOption? (argument : String) : Option (String × Option String) :=
  match argument.toList with
  | '-' :: '-' :: cs =>
    match Text.cutAt? '=' cs with
    | some (name, value) => some (String.ofList name, some (String.ofList value))
    | none => some (String.ofList cs, none)
  | _ => none

/-- Adds an option, which must not be there already. -/
def addOption? (a : Arguments) (name value : String) : Option Arguments :=
  if (a.options.lookup name).isSome then none
  else some { a with options := (name, value) :: a.options }

/-- Adds a flag, which must not be there already. -/
def addFlag? (a : Arguments) (name : String) : Option Arguments :=
  if a.flags.contains name then none else some { a with flags := name :: a.flags }

/-- Reads arguments, given the names of the options with values and of those without. `pending` is
an option whose value comes next. All arguments after two hyphens are positional. -/
def read? (valued flags : List String) :
    (pending : Option String) → List String → Arguments → Option Arguments
  | none, [], a => some a
  | some _, [], _ => none
  | some name, value :: rest, a =>
    if isOption value then none
    else (a.addOption? name value).bind fun a => read? valued flags none rest a
  | none, argument :: rest, a =>
    if argument = "--" then some { a with positional := a.positional ++ rest }
    else if !isOption argument then
      read? valued flags none rest { a with positional := a.positional ++ [argument] }
    else match splitOption? argument with
      | none => none
      | some (name, value?) =>
        if flags.contains name then
          if value?.isSome then none
          else (a.addFlag? name).bind fun a => read? valued flags none rest a
        else if valued.contains name then
          match value? with
          | some value => (a.addOption? name value).bind fun a => read? valued flags none rest a
          | none => read? valued flags (some name) rest a
        else none

/-- The value of an option that names a file, if it is there. A path is never empty. -/
def path? (a : Arguments) (name : String) : Option (Option String) :=
  match a.options.lookup name with
  | none => some none
  | some path => if path = "" then none else some (some path)

/-- The value of an option that is one of some names, or `fallback`. -/
def choice? {α : Type} (a : Arguments) (ofName? : String → Option α) (name : String)
    (fallback : α) : Option α :=
  match a.options.lookup name with
  | none => some fallback
  | some value => ofName? value

end Arguments

namespace Command

def highlightOfArguments? (arguments : List String) : Option Command := do
  let a ← Arguments.read? ["lang", "format", "version", "grammar", "theme"] ["line-numbers"] none
    arguments {}
  match a.positional with
  | [file] =>
    if file = "" then none
    else
      return .highlight file ((a.options.lookup "lang").getD Co.tag)
        (← a.choice? Format.ofName? "format" .terminal)
        (← a.choice? Co.Version.ofName? "version" .current)
        (← a.path? "grammar") (← a.path? "theme")
        (a.flags.contains "line-numbers")
  | _ => none

def stylesheetOfArguments? (arguments : List String) : Option Command := do
  let a ← Arguments.read? ["prefix", "theme"] [] none arguments {}
  if a.positional = [] then
    return .stylesheet ((a.options.lookup "prefix").getD defaultClassPrefix) (← a.path? "theme")
  else none

def ofArguments? : List String → Option Command
  | "highlight" :: arguments => highlightOfArguments? arguments
  | "css" :: arguments => stylesheetOfArguments? arguments
  | "--version" :: _ | "-V" :: _ => some .showVersion
  | _ => none

end Command

structure Report where
  code : UInt32
  output : String
  errors : String
  deriving DecidableEq, Repr

namespace Command

def versionText : String := "cohl 0.1.0"

/-- A run that fails, with its cause in diagnostics. -/
def failure (cause : String) : Report := ⟨1, "", "Error: " ++ cause ++ "\n"⟩

/-- A run with arguments that cannot be read. -/
def usageReport : Report := ⟨2, "", ""⟩

def loadTheme {m : Type → Type} [Monad m] (read : ReadFile m) :
    Option String → m (Except Error Theme)
  | none => return .ok .light
  | some path => return (← readText read path).bind Theme.ofText

/-- The languages that a file may be highlighted in: Co, and what is in a grammar file. -/
def languages {m : Type → Type} [Monad m] (read : ReadFile m) (language : String)
    (version : Co.Version) (grammar : Option String) : m (Except Error Registry) := do
  match Registry.empty.register Co.tag (Co.grammar version), grammar with
  | .ok r, some path => r.registerFile read language path
  | result, _ => return result

def illegalNotice (file language : String) : String :=
  let tick := String.singleton (Char.ofNat 0x60)
  file ++ " doesn't look like " ++ tick ++ language ++ tick ++ ", showing it as plain text\n"

def render {m : Type → Type} [Monad m] (read : ReadFile m) (code : Code) (format : Format)
    (theme : Option String) (options : RenderOptions) : m (Except Error String) := do
  match format with
  | .html => return .ok (HtmlRenderer.render {} code options)
  | .terminal => return (← loadTheme read theme).map (·.renderTerminal code options)
  | .regions => return .ok (Json.pretty 0 (.array (code.regions.map (·.toJson))))

def runHighlight {m : Type → Type} [Monad m] (read : ReadFile m) (file language : String)
    (format : Format) (version : Co.Version) (grammar theme : Option String) (lineNumbers : Bool) :
    m Report := do
  match ← languages read language version grammar with
  | .error e => return failure e.debug
  | .ok registry =>
    match ← read file with
    | none => return failure Error.missingFileDebug
    | some content =>
      match registry.highlight content { language } with
      | .error e => return failure e.debug
      | .ok code =>
        let notice := if code.illegal then illegalNotice file language else ""
        match ← render read code format theme { lineNumbers } with
        | .ok text => return ⟨0, text ++ "\n", notice⟩
        | .error e => return { failure e.debug with errors := notice ++ (failure e.debug).errors }

/-- Runs a command. Files are read by `read`. -/
def run {m : Type → Type} [Monad m] (read : ReadFile m) : Command → m Report
  | .highlight file language format version grammar theme lineNumbers =>
    runHighlight read file language format version grammar theme lineNumbers
  | .stylesheet classPrefix theme => do
    match ← loadTheme read theme with
    | .ok theme => return ⟨0, layoutStylesheet ++ theme.stylesheet classPrefix, ""⟩
    | .error e => return failure e.debug
  | .showVersion => return ⟨0, versionText ++ "\n", ""⟩

def runArguments {m : Type → Type} [Monad m] (read : ReadFile m) (arguments : List String) :
    m Report :=
  match ofArguments? arguments with
  | some command => command.run read
  | none => return usageReport

end Command

end Highlighter
