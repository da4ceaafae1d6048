import TodoLedger.Document.Reader
import TodoLedger.Document.Writer
import TodoLedger.Path
import TodoLedger.Text.Quoted
import TodoLedger.Text.Utf8
/-!
# Faults

Everything that can end an operation, with the kind and the message that are shown for it.
-/

namespace TodoLedger

inductive FileCause
  | notFound
  | alreadyExists
  | notDirectory
  | isDirectory
  | nameTooLong
  | sameFile (source : Path)
deriving DecidableEq

/-- What the system refused to do with a path, or a copy of a file onto itself. -/
structure FileFault where
  cause : FileCause
  path : Path
deriving DecidableEq

def FileCause.kind : FileCause → Text
  | notFound => "FileNotFoundError"
  | alreadyExists => "FileExistsError"
  | notDirectory => "NotADirectoryError"
  | isDirectory => "IsADirectoryError"
  | nameTooLong => "OSError"
  | sameFile _ => "SameFileError"

/-- The words of the system for what it refused. -/
def FileFault.refusal (f : FileFault) (number : Nat) (text : Text) : Text :=
  "[Errno " ++ Text.ofNat number ++ "] " ++ text ++ ": " ++ Text.quoted f.path.text

def FileFault.message (f : FileFault) : Text :=
  match f.cause with
  | .notFound => f.refusal 2 "No such file or directory"
  | .alreadyExists => f.refusal 17 "File exists"
  | .notDirectory => f.refusal 20 "Not a directory"
  | .isDirectory => f.refusal 21 "Is a directory"
  | .nameTooLong => f.refusal 36 "File name too long"
  | .sameFile source =>
    "PosixPath(" ++ Text.quoted source.text ++ ") and " ++ Text.quoted f.path.text ++
      " are the same file"

/-- One setting that is not as it should be: where it stands and what is wrong with it. -/
structure SettingFault where
  location : Text
  kind : Text
deriving DecidableEq

inductive Fault
  | read (f : ReadFault)
  | timestamp (f : TimestampFault)
  | title (f : TitleFault)
  | entry (f : EntryFault)
  | fixedId
  | noKey
  | sourceMissing (path : Path)
  | documentMissing (path : Path)
  | listedMissing (path : Path)
  | directoryMissing (path : Path)
  | sourceDirectoryMissing (path : Path)
  | lineOutOfRange (line : Int) (path : Path)
  | noBackupsKept
  | encoding (f : EncodingFault)
  | decoding (f : DecodingFault)
  | nullByte
  | anchoredPattern
  | file (f : FileFault)
  | settingsMissing (path : Path)
  | variableMissing (name : Text)
  | badYaml (path : Path)
  | notMapping (path : Path)
  | keyNoText
  | badVariable (group : Text)
  | settings (faults : List SettingFault)
deriving DecidableEq

def DocumentFault.kind : DocumentFault → Text
  | headline _ => "MalformedHeadlineError"
  | drawerOpenAtHeadline | drawerOpenAtEnd => "UnterminatedPropertiesDrawerError"
  | noId _ | noCreated _ | partialSource .. => "MissingRequiredPropertyError"
  | badCreated .. => "InvalidTimestampError"
  | badPosition .. | badPropertyLine _ | blankKey _ => "InvalidPropertyLineError"

namespace Fault

/-- The name under which a fault is reported. -/
def kind : Fault → Text
  | read (.document _ cause) => cause.kind
  | read _ | title _ | noBackupsKept | nullByte | variableMissing _ | badYaml _ | notMapping _ =>
    "ValueError"
  | timestamp _ => "InvalidTimestampFormatError"
  | entry .noId | noKey => "KeyError"
  | entry .emptyId => "ValueError"
  | fixedId => "AttributeError"
  | sourceMissing _ | documentMissing _ | listedMissing _ => "OrgiFileNotFoundError"
  | directoryMissing _ | sourceDirectoryMissing _ => "DirectoryNotFoundError"
  | lineOutOfRange .. => "InvalidOperationError"
  | encoding _ => "UnicodeEncodeError"
  | decoding _ => "UnicodeDecodeError"
  | anchoredPattern => "NotImplementedError"
  | file f => f.cause.kind
  | settingsMissing _ => "FileNotFoundError"
  | keyNoText => "TypeError"
  | badVariable _ => "SettingsError"
  | settings _ => "ValidationError"

def message : Fault → Text
  | read f => f.message
  | timestamp f => f.message
  | title f => f.message
  | entry .noId => "'id'"
  | entry .emptyId => "Issue id cannot be empty"
  | fixedId => "Issue id is immutable"
  | noKey => "key"
  | sourceMissing path => "Source file not found: " ++ path.text
  | documentMissing path => "Org file not found: " ++ path.text
  | listedMissing path => "File not found: " ++ path.text ++ ". Maybe first run orgi init?"
  | directoryMissing path => "Directory not found: " ++ path.text
  | sourceDirectoryMissing path => "Source directory not found: " ++ path.text
  | lineOutOfRange line path =>
    "Line number " ++ Text.ofInt line ++ " is out of range for file " ++ path.text
  | noBackupsKept => "max_backups must be at least 1"
  | encoding f => f.message
  | decoding f => f.message
  | nullByte => "embedded null byte"
  | anchoredPattern => "Non-relative patterns are unsupported"
  | file f => f.message
  | settingsMissing path => "Configuration file not found: " ++ path.text
  | variableMissing name => "Environment variable " ++ name ++ " not found"
  | badYaml path => "Invalid YAML in configuration file " ++ path.text
  | notMapping path => "Configuration file " ++ path.text ++ " must contain a mapping"
  | keyNoText => "keywords must be strings"
  | badVariable group =>
    "error parsing value for field \"" ++ group ++ "\" from source \"EnvSettingsSource\""
  | settings faults =>
    let plural : Text := if faults.length = 1 then "" else "s"
    let shown (f : SettingFault) : Text := "\n" ++ f.location ++ "\n  " ++ f.kind
    Text.ofNat faults.length ++ " validation error" ++ plural ++ " for OrgiConfig" ++
      faults.flatMap shown

/-- A fault in an operation on a file that the operation reports instead of failing. Only a path
that no file can have, a bad setting and the like are not of this sort. -/
def isReported : Fault → Bool
  | timestamp _ | sourceMissing _ | documentMissing _ | listedMissing _ | directoryMissing _
  | sourceDirectoryMissing _ | lineOutOfRange .. | encoding _ | decoding _ | file _
  | read (.document ..) => true
  | _ => false

end Fault

end TodoLedger
