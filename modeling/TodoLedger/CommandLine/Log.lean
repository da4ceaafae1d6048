import TodoLedger.Data.Json
import TodoLedger.Settings
/-!
# Log lines

An event that is severe enough makes one line of the log, in one of two formats.
-/

namespace TodoLedger

def EventValue.data : EventValue → Data
  | .none => .null
  | .flag b => .bool b
  | .number n => .int n
  | .text t => .text t

structure LogLine where
  format : LogFormat
  fields : List (String × EventValue)

namespace LogLine

/-- Date and time with a `T` between them. -/
def timeText (now : DateTime) : Text :=
  Text.padded 4 now.year ++ "-" ++ Text.padded 2 now.month ++ "-" ++ Text.padded 2 now.day ++
    "T" ++ Text.padded 2 now.hour ++ ":" ++ Text.padded 2 now.minute ++ ":" ++
    Text.padded 2 now.second

def fieldData (f : String × EventValue) : Data × Data := (.text f.1.toText, f.2.data)

def data (l : LogLine) : Data := .map (l.fields.map fieldData)

/-- The line without its line feed. -/
def render (now : DateTime) (l : LogLine) : Text :=
  let fields := ("timestamp", EventValue.text (timeText now)) :: l.fields
  match l.format with
  | .json => Json.render (.map (fields.map fieldData))
  | .console =>
    Text.join " " (fields.map fun f => f.1.toText ++ "=" ++ Json.render f.2.data)

end LogLine

/-- What decides on the log lines at some time: the least severity, the formats of the command
itself and of all other components, and the command that runs. -/
structure Logger where
  level : Severity
  commandFormat : LogFormat
  format : LogFormat
  command : Option Text

namespace Logger

def program : String := "orgi"

def version : String := "0.1.0"

def line (l : Logger) (e : Event) : LogLine where
  format := if e.component = .command then l.commandFormat else l.format
  fields :=
    e.values ++
    [("event", .text e.name.toText), ("level", .text e.severity.name),
      ("logger", .text e.component.name.toText), ("service", .text program.toText),
      ("version", .text version.toText)] ++
    match l.command with
    | none => []
    | some name => [("command", .text name)]

/-- The lines of the events that are severe enough. -/
def lines (l : Logger) (events : List Event) : List LogLine :=
  (events.filter fun e => l.level.rank ≤ e.severity.rank).map l.line

/-- Before settings are loaded only warnings are logged, unless everything is. -/
def initial (isDebug : Bool) (format : Option LogFormat) : Logger where
  level := if isDebug then .debug else .warning
  commandFormat := format.getD .console
  format := format.getD .console
  command := none

/-- The settings decide on the level and on the format, as far as the command line does not. The
format of the command itself stays. -/
def configure (l : Logger) (isDebug : Bool) (format : Option LogFormat) (s : LogSettings)
    (command : Text) : Logger where
  level := if isDebug then .debug else s.level
  commandFormat := l.commandFormat
  format := format.getD s.format
  command := some command

end Logger

end TodoLedger
