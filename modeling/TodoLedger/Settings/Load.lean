import TodoLedger.Data.Yaml
import TodoLedger.Settings.Environment
import TodoLedger.Workspace
/-!
# Loading settings

Settings come from a YAML file, in which variables are substituted first, and from the environment.
-/

namespace TodoLedger

namespace Settings

open Work

/-- Where settings are looked for when no file is named. -/
def defaultFile : Path := ⟨.relative, [".orgi", "config.yaml"]⟩

/-- Line ends of every kind become line feeds. -/
def plainLineEnds : Text → Text
  | [] => []
  | [c] => if c = '\r' then [Rune.ofChar '\n'] else [c]
  | c :: d :: r =>
    if c = '\r' then
      Rune.ofChar '\n' :: (if d = '\n' then plainLineEnds r else plainLineEnds (d :: r))
    else c :: plainLineEnds (d :: r)

/-- The map that the text of a settings file holds; an empty file holds an empty one. -/
def parse (path : Path) (environment : List Variable) (text : Text) : Except Fault Data :=
  match Environment.substitute environment text with
  | .error fault => .error fault
  | .ok text =>
    match Yaml.parse? text with
    | none => .error (.badYaml path)
    | some d =>
      if d.isEmpty then .ok (.map [])
      else match d with
        | .map entries => .ok (.map entries)
        | _ => .error (.notMapping path)

/-- The settings of a file. -/
def ofFile (path : Path) : Work Settings := do
  let bytes ← readBytes path
  ask fun w => do
    match Utf8.decodeStrict bytes with
    | .error f => .error (.decoding f)
    | .ok text => ofData (← parse path w.environment (plainLineEnds text)) w.environment

/-- The settings of the named file, or of the default one if there is one, or else the defaults. -/
def load (path : Option Path) : Work Settings := do
  match path with
  | some path =>
    if ← pathExists path then ofFile path else throw (.settingsMissing path)
  | none =>
    if ← pathExists defaultFile then ofFile defaultFile
    else ask fun w => ofData (.map []) w.environment

end Settings

end TodoLedger
