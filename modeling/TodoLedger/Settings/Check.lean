import TodoLedger.Data.Basic
import TodoLedger.Settings
import TodoLedger.Text.Digit
/-!
# Checking settings

Data are turned into settings field by field. Every field that is not as it should be is reported,
in the order of the fields; settings that are missing have their defaults.
-/

namespace TodoLedger

/-- A value that was read, together with what was wrong on the way. -/
structure Checked (α : Type) where
  value : α
  faults : List SettingFault

namespace Settings

/-- Reads a field that may be missing; a faulty one keeps its default. -/
def field {α : Type} (location : Text) (d : Option Data) (default : α)
    (read : Data → Except Text α) : Checked α :=
  match d with
  | none => ⟨default, []⟩
  | some d =>
    match read d with
    | .ok value => ⟨value, []⟩
    | .error kind => ⟨default, [⟨location, kind⟩]⟩

def readPath : Data → Except Text Path
  | .text t => .ok (Path.ofText t)
  | _ => .error "path_type"

/-- ASCII digits with single low lines between them. -/
def plainDigits? : Text → Option Text
  | [] => none
  | [c] => if c.isAsciiDigit then some [c] else none
  | c :: d :: r =>
    if c.isAsciiDigit then
      if d = '_' then (plainDigits? r).map (c :: ·) else (plainDigits? (d :: r)).map (c :: ·)
    else none

/-- The number of a text with an optional sign; zeros may stand behind a point. -/
def intOfText? (t : Text) : Option Int :=
  let t := Text.trim t
  let negative : Bool := t.head? = some (Rune.ofChar '-')
  let t := if negative || (t.head? = some (Rune.ofChar '+') : Bool) then t.tail else t
  let whole := t.takeWhile fun c => c ≠ Rune.ofChar '.'
  let behind := t.drop (whole.length + 1)
  if behind.all fun c => c = Rune.ofChar '0' then
    (plainDigits? whole).map fun digits =>
      let n := digits.foldl (fun n c => 10 * n + (c.code - 48)) 0
      if negative then -(n : Int) else n
  else none

def readInt : Data → Except Text Int
  | .int n => .ok n
  | .bool b => .ok (if b then 1 else 0)
  | .real (some n) => .ok n
  | .real none => .error "int_from_float"
  | .unbounded => .error "finite_number"
  | .text t => match intOfText? t with
    | some n => .ok n
    | none => .error "int_parsing"
  | _ => .error "int_type"

/-- A number between two bounds, ends included. -/
def readBetween (low high : Int) (d : Data) : Except Text Int := do
  let n ← readInt d
  if high < n then .error "less_than_equal"
  else if n < low then .error "greater_than_equal"
  else .ok n

def boolOfInt? (n : Int) : Option Bool :=
  if n = 0 then some false else if n = 1 then some true else none

def trueWords : List Text := ["1", "on", "t", "true", "y", "yes"]
def falseWords : List Text := ["0", "off", "f", "false", "n", "no"]

def readBool : Data → Except Text Bool
  | .bool b => .ok b
  | .int n | .real (some n) => match boolOfInt? n with
    | some b => .ok b
    | none => .error "bool_parsing"
  | .text t =>
    let word := Text.lower t
    if trueWords.contains word then .ok true
    else if falseWords.contains word then .ok false
    else .error "bool_parsing"
  | _ => .error "bool_type"

def levels : List Severity := [.debug, .info, .warning, .error, .critical]

def levelName (s : Severity) : Text := Text.upper s.name

def readLevel : Data → Except Text Severity
  | .text t => match levels.find? fun s => levelName s = t with
    | some s => .ok s
    | none => .error "literal_error"
  | _ => .error "literal_error"

def readFormat : Data → Except Text LogFormat
  | .text t =>
    if t = ("json" : Text) then .ok .json
    else if t = ("console" : Text) then .ok .console
    else .error "literal_error"
  | _ => .error "literal_error"

/-- The items of a list of texts; each item that is none is reported at its index. -/
def textItems (location : Text) (index : Nat) : List Data → Checked (List Text)
  | [] => ⟨[], []⟩
  | d :: ds =>
    let rest := textItems location (index + 1) ds
    match d with
    | .text t => ⟨t :: rest.value, rest.faults⟩
    | _ => ⟨rest.value, ⟨location ++ "." ++ Text.ofNat index, "string_type"⟩ :: rest.faults⟩

def texts (location : Text) (d : Option Data) (default : List Text) : Checked (List Text) :=
  match d with
  | none => ⟨default, []⟩
  | some (.list items) => textItems location 0 items
  | some _ => ⟨default, [⟨location, "list_type"⟩]⟩

/-- Extensions in lower case and with their dots; none may be blank. -/
def extensions (location : Text) (d : Option Data) : Checked (List Text) :=
  let read := texts location d defaultExtensions
  if d.isNone || !read.faults.isEmpty then read
  else
    let normal := read.value.map fun e => Text.lower (Text.trim e)
    if normal.any List.isEmpty then ⟨normal, [⟨location, "value_error"⟩]⟩
    else ⟨normal.map dotted, []⟩

/-- Reads a group of fields, which must be a map. -/
def group {α : Type} (location : Text) (d : Option Data) (read : Data → Checked α) : Checked α :=
  match d with
  | none => read (.map [])
  | some (.map entries) => read (.map entries)
  | some _ => ⟨(read (.map [])).value, [⟨location, "model_type"⟩]⟩

def logSettings (d : Data) : Checked LogSettings :=
  let s := default.logging
  let level := field "logging.level" (d.field? "level") s.level readLevel
  let format := field "logging.format" (d.field? "format") s.format readFormat
  let file := group "logging.file" (d.field? "file") fun d =>
    let enabled := field "logging.file.enabled" (d.field? "enabled") s.fileEnabled readBool
    let path := field "logging.file.path" (d.field? "path") s.filePath readPath
    ⟨(enabled.value, path.value), enabled.faults ++ path.faults⟩
  ⟨⟨level.value, format.value, file.value.1, file.value.2⟩,
    level.faults ++ format.faults ++ file.faults⟩

def groupNames : List String := ["document", "discovery", "rewriter", "gather", "logging"]

/-- The top-level keys that are no group of settings. -/
def strangers (d : Data) : List SettingFault :=
  match d with
  | .map entries => entries.filterMap fun e => match e.1 with
    | .text name =>
      if groupNames.any fun g => g.toText = name then none else some ⟨name, "extra_forbidden"⟩
    | _ => none
  | _ => []

/-- The settings in a map. -/
def check (d : Data) : Except (List SettingFault) Settings :=
  let document := group "document" (d.field? "document") fun d =>
    field "document.path" (d.field? "path") default.document readPath
  let discovery := group "discovery" (d.field? "discovery") fun d =>
    let extensions := extensions "discovery.include_extensions" (d.field? "include_extensions")
    let exclusions :=
      texts "discovery.exclude_patterns" (d.field? "exclude_patterns") defaultExclusions
    ⟨(⟨extensions.value, exclusions.value⟩ : Selection), extensions.faults ++ exclusions.faults⟩
  let backups := group "rewriter" (d.field? "rewriter") fun d =>
    let directory :=
      field "rewriter.backup_dir" (d.field? "backup_dir") default.backupDirectory readPath
    let kept :=
      field "rewriter.max_backups" (d.field? "max_backups") default.maxBackups (readBetween 1 1000)
    ⟨(directory.value, kept.value), directory.faults ++ kept.faults⟩
  let gather := group "gather" (d.field? "gather") fun d =>
    field "gather.title_max_length" (d.field? "title_max_length") default.titleLimit
      (readBetween 4 500)
  let logging := group "logging" (d.field? "logging") logSettings
  let faults := document.faults ++ discovery.faults ++ backups.faults ++ gather.faults ++
    logging.faults ++ strangers d
  if faults.isEmpty then
    .ok {
      document := document.value
      selection := discovery.value
      backupDirectory := backups.value.1
      maxBackups := backups.value.2
      titleLimit := gather.value
      logging := logging.value }
  else .error faults

end Settings

end TodoLedger
