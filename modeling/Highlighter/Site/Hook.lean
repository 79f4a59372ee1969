import Highlighter.Error
import Highlighter.Text.Quoted

/-! The site under construction, with the hooks that run before and after it is built. -/

namespace Highlighter

open Text

/-- What a hook tells the build. -/
inductive HookOutcome
  | proceed
  /-- Go on once some work is done, which may fail with a message. -/
  | wait (work : Except String Unit)

/-- A hook: what it tells the build on each of its calls. -/
structure Hook where
  /-- How often it has been called. -/
  calls : Nat := 0
  /-- What it tells on a call, given the number of calls before and the files of the site. -/
  outcome : Nat → List String → HookOutcome

/-- What happens while a hook runs. -/
inductive HookEvent
  | called (calls : Nat) (files : List String)
  | worked
  deriving DecidableEq, Repr

/-- A hook that has run. -/
structure HookRun where
  hook : Hook
  result : Except Error Unit
  events : List HookEvent

/-- Runs a hook, and the work that it leaves to be done. -/
def Hook.run (h : Hook) (files : List String) : HookRun :=
  let called := HookEvent.called h.calls files
  let hook := { h with calls := h.calls + 1 }
  match h.outcome h.calls files with
  | .proceed => ⟨hook, .ok (), [called]⟩
  | .wait work => ⟨hook, work.mapError .hook, [called, .worked]⟩

inductive Stage
  | before
  | after
  deriving DecidableEq, Repr

/-- A site under construction. -/
structure Site where
  /-- Where the site is written. -/
  outdir : String := "."
  beforeBuild : Option Hook := none
  afterBuild : Option Hook := none

namespace Site

def hook? (s : Site) : Stage → Option Hook
  | .before => s.beforeBuild
  | .after => s.afterBuild

def setHook (s : Site) (hook : Option Hook) : Stage → Site
  | .before => { s with beforeBuild := hook }
  | .after => { s with afterBuild := hook }

/-- Runs the hook of a stage. Nothing happens if none is set. -/
def run (s : Site) (stage : Stage) (files : List String) :
    Except Error Unit × List HookEvent × Site :=
  match s.hook? stage with
  | none => (.ok (), [], s)
  | some hook =>
    let r := hook.run files
    (r.result, r.events, s.setHook (some r.hook) stage)

/-- A truth value in diagnostics. -/
def debugFlag (b : Bool) : String := if b then "true" else "false"

def debug (s : Site) : String :=
  "Site \x7b outdir: " ++ quotePath s.outdir ++ ", on_before_build: " ++ debugFlag
    s.beforeBuild.isSome ++ ", on_after_build: " ++ debugFlag s.afterBuild.isSome ++ " \x7d"

end Site

end Highlighter
