import TodoLedger.Data.Json
import TodoLedger.Settings.Check
import TodoLedger.Text.Case
import TodoLedger.Text.Search
/-!
# Settings from the environment

A variable `ORGI_GROUP__FIELD`, in any case, sets what the settings file leaves open. A group or a
list as a whole is given as JSON. The other direction, `${NAME}` in a settings file, takes the value
of a variable into the text.
-/

namespace TodoLedger

/-- A variable's name and value. -/
abbrev Variable := Text × Text

namespace Environment

def valueOf? (environment : List Variable) (name : Text) : Option Text :=
  environment.lookup name

/-- The name of a token `${NAME}` in front of a text; its closing brace ends it and its name is not
empty. -/
def tokenName? : Text → Option Text
  | a :: b :: r =>
    if a = '$' && b = '\x7b' then
      let name := r.takeWhile fun c => c ≠ Rune.ofChar '\x7d'
      if name.isEmpty || name.length = r.length then none else some name
    else none
  | _ => none

/-- The value of a variable. Variables are found by the bytes of their names, so that a name without
bytes is refused. -/
def lookup (environment : List Variable) (name : Text) : Except Fault Text :=
  match Utf8.encode name with
  | .error fault => .error (.encoding fault)
  | .ok bytes =>
    match valueOf? environment (Utf8.decode bytes) with
    | none => .error (.variableMissing name)
    | some value => .ok value

/-- The text behind its first `skip` characters with every token exchanged for the value of its
variable, or the fault of the first that has none. -/
def substituteFrom (environment : List Variable) : Nat → Text → Except Fault Text
  | _, [] => .ok []
  | skip + 1, _ :: r => substituteFrom environment skip r
  | 0, c :: r =>
    match tokenName? (c :: r) with
    | none => (substituteFrom environment 0 r).map (c :: ·)
    | some name =>
      match lookup environment name with
      | .error fault => .error fault
      | .ok value => (substituteFrom environment (name.length + 2) r).map (value ++ ·)

/-- Exchanges every token for the value of its variable, from left to right. -/
def substitute (environment : List Variable) (t : Text) : Except Fault Text :=
  substituteFrom environment 0 t

/-- The parts of a name between double low lines. -/
def nameParts : Text → List Text
  | [] => [[]]
  | [c] => [[c]]
  | c :: d :: r =>
    if c = '_' && d = '_' then [] :: nameParts r
    else match nameParts (d :: r) with
      | [] => [[c]]
      | p :: ps => (c :: p) :: ps

/-- A map with an entry set. -/
def setKey (name : Text) (value : Data) : List (Data × Data) → List (Data × Data)
  | [] => [(.text name, value)]
  | e :: es => match e.1 with
    | .text t => if t = name then (e.1, value) :: es else e :: setKey name value es
    | _ => e :: setKey name value es

/-- Sets a value at the end of a way through maps, which are made where they are missing. -/
def setAt (value : Data) : List Text → Data → Data
  | [], d => d
  | [name], .map entries => .map (setKey name value entries)
  | name :: more :: names, .map entries =>
    let inner := ((Data.map entries).get? name).getD (.map [])
    .map (setKey name (setAt value (more :: names) inner) entries)
  | _, d => d

/-- A map overlaid with a second one, map by map. -/
def overlay : Nat → Data → Data → Data
  | 0, _, new => new
  | depth + 1, .map old, .map new =>
    .map (new.foldl (fun entries e => match e.1 with
      | .text name =>
        match (Data.map entries).get? name, e.2 with
        | some (.map inner), .map outer =>
          setKey name (overlay depth (.map inner) (.map outer)) entries
        | _, value => setKey name value entries
      | _ => entries ++ [e]) old)
  | _, _, new => new

/-- The ways to fields that are given as JSON. -/
def compoundFields : List (List String) :=
  [["discovery", "include_extensions"], ["discovery", "exclude_patterns"], ["logging", "file"]]

def isCompound (way : List Text) : Bool :=
  compoundFields.any fun f => f.map String.toText = way

/-- The values that the variables of a group set, or nothing if one of them is no JSON. -/
def exploded (vars : List Variable) (group : Text) : Option Data :=
  vars.foldl (fun found v => do
    let d ← found
    match Text.dropLeading? ("orgi_" ++ group ++ "__") v.1 with
    | none => some d
    | some rest =>
      let way := nameParts rest
      let value ← if isCompound (group :: way) && !v.2.isEmpty then Json.parse? v.2
        else some (.text v.2)
      some (setAt value way d)) (some (.map []))

/-- Variables under lower-case names; of equal names the last counts. -/
def lowered (environment : List Variable) : List Variable :=
  environment.foldl (fun vs v =>
    let name := Text.lower v.1
    if vs.any fun w => w.1 = name then vs.map fun w => if w.1 = name then (name, v.2) else w
    else vs ++ [(name, v.2)]) []

/-- What the environment sets for a group; a value that is no JSON is a fault. -/
def groupData (vars : List Variable) (group : Text) : Option (Option Data) := do
  let inner ← exploded vars group
  match valueOf? vars ("orgi_" ++ group) with
  | some value =>
    match ← Json.parse? value with
    | .map entries => some (some (overlay 8 (.map entries) inner))
    | d => some (some d)
  | none => some (if inner.isEmpty then none else some inner)

/-- What the environment sets, or the group whose value is no JSON. -/
def data (environment : List Variable) : Except Text (List (Data × Data)) :=
  let vars := lowered environment
  Settings.groupNames.foldlM (fun entries group =>
    match groupData vars group.toText with
    | none => .error group.toText
    | some none => .ok entries
    | some (some d) => .ok (entries ++ [(Data.key group, d)])) []

end Environment

namespace Settings

/-- A key of a map that is no text. -/
def hasOtherKey : Data → Bool
  | .map entries => entries.any fun e => match e.1 with
    | .text _ => false
    | _ => true
  | _ => false

/-- The settings that data and environment make together. -/
def ofData (d : Data) (environment : List Variable) : Except Fault Settings :=
  if hasOtherKey d then .error .keyNoText
  else match Environment.data environment with
    | .error group => .error (.badVariable group)
    | .ok entries =>
      match check (Environment.overlay 8 (.map entries) d) with
      | .ok settings => .ok settings
      | .error faults => .error (.settings faults)

end Settings

end TodoLedger
