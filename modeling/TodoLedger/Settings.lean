import TodoLedger.Backup
import TodoLedger.Discovery
/-!
# Settings

What a user can set: where the document is, which files are scanned, where backups go and how many
are kept, how long titles may be, and what is logged.
-/

namespace TodoLedger

inductive LogFormat
  | json
  | console
deriving DecidableEq

def LogFormat.name : LogFormat → Text
  | json => "json"
  | console => "console"

/-- The severity from which on events are logged, in what format, and to which file besides. -/
structure LogSettings where
  level : Severity
  format : LogFormat
  fileEnabled : Bool
  filePath : Path

structure Settings where
  document : Path
  selection : Selection
  backupDirectory : Path
  maxBackups : Int
  titleLimit : Int
  logging : LogSettings

namespace Settings

def default : Settings where
  document := ⟨.relative, [".orgi", "orgi.org"]⟩
  selection := ⟨defaultExtensions, defaultExclusions⟩
  backupDirectory := Backups.defaultDirectory
  maxBackups := Backups.defaultKept
  titleLimit := 50
  logging := ⟨.warning, .console, false, ⟨.relative, [".orgi", "orgi.log"]⟩⟩

/-- The backup policy of some settings. -/
def backups (s : Settings) (cwd : Place) : Except Fault Backups :=
  Backups.make? cwd (some s.backupDirectory) s.maxBackups

end Settings

end TodoLedger
