import WebSub.Text.Decimal

/-!
# Log filters

Which log lines are wanted: a level for everything or for a target, in a comma-separated list.
-/

namespace WebSub.LogFilter

inductive Level where
  | off
  | error
  | warn
  | info
  | debug
  | trace
deriving DecidableEq, Repr

namespace Level

def all : List Level := [off, error, warn, info, debug, trace]

def name : Level → String
  | off => "off"
  | error => "error"
  | warn => "warn"
  | info => "info"
  | debug => "debug"
  | trace => "trace"

/-- A level by its name in any case, or by its number from 0. -/
def ofText? (text : List Char) : Option Level :=
  match Decimal.unsigned? text with
  | some n => all[n]?
  | none => all.find? fun l => l.name.toList == text.map Char.toLower

end Level

/-- A level for one target, or for everything without one. -/
structure Directive where
  target : Option String
  level : Level
deriving DecidableEq, Repr

namespace Directive

def toText (d : Directive) : String :=
  match d.target with
  | some t => t ++ "=" ++ d.level.name
  | none => d.level.name

/-- The characters that a target may start with. -/
def startsTarget (c : Char) : Bool := c.isAlphanum || c == '-' || c == ':' || c == '_'

/-- A level, a target with its level, or a target whose every line is wanted. -/
def ofText? (text : List Char) : Option Directive :=
  if (text.head?.any startsTarget) = false then none
  else
    let target := text.takeWhile (· != '=')
    match text.dropWhile (· != '=') with
    | [] =>
      match Level.ofText? text with
      | some level => some ⟨none, level⟩
      | none => some ⟨some (String.ofList text), .trace⟩
    | [_] => some ⟨some (String.ofList target), .trace⟩
    | _ :: level => (Level.ofText? level).map (⟨some (String.ofList target), ·⟩)

end Directive

/-- Of several directives for the same target the last one stays. -/
def keepLast (ds : List Directive) : List Directive :=
  ds.foldl (fun kept d => kept.filter (·.target != d.target) ++ [d]) []

/-- Reads a list of directives; one wrong piece spoils it. Empty pieces do not count. -/
def ofText? (text : String) : Option (List Directive) :=
  (((text.toList.splitOn ',').filter (!·.isEmpty)).mapM Directive.ofText?).map keepLast

/-- Used when no filter is given or it cannot be read. -/
def default : List Directive := [⟨none, .info⟩, ⟨some "ytpush", .debug⟩]

/-- The filter of a setting that may be absent. -/
def ofSetting (setting : Option String) : List Directive := (setting.bind ofText?).getD default

end WebSub.LogFilter
