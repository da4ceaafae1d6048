import TodoLedger.Headline
import TodoLedger.Timestamp
/-!
# Why a document is not read

The ways in which reading a document fails. Most point at a line; a number with too many digits and
a reader driven out of order do not.
-/

namespace TodoLedger

/-- Where a reader stands in the current entry. -/
inductive Phase
  | unassigned
  | headline
  | properties
  | body
deriving DecidableEq

def Phase.name : Phase → Text
  | unassigned => "unassigned"
  | headline => "headline"
  | properties => "properties"
  | body => "body"

inductive DocumentFault
  | headline (cause : HeadlineFault)
  | drawerOpenAtHeadline
  | drawerOpenAtEnd
  | noId (title : Text)
  | noCreated (id : Text)
  | badCreated (id value : Text) (cause : TimestampFault)
  | partialSource (id : Text) (missing : List Text)
  | badPosition (id key value : Text)
  | badPropertyLine (line : Text)
  | blankKey (line : Text)
deriving DecidableEq

def DocumentFault.message : DocumentFault → Text
  | headline cause => cause.message
  | drawerOpenAtHeadline => "Unterminated properties drawer before next headline"
  | drawerOpenAtEnd => "Unterminated properties drawer at end of file"
  | noId title => "Entry '" ++ title ++ "' is missing required property ID"
  | noCreated id => "Entry '" ++ id ++ "' is missing required property CREATED"
  | badCreated id value cause =>
    "Entry '" ++ id ++ "' has an invalid created timestamp '" ++ value ++ "': " ++ cause.message
  | partialSource id missing =>
    "Entry '" ++ id ++ "' has an incomplete source reference, missing: " ++
      Text.join ", " missing
  | badPosition id key value =>
    "Entry '" ++ id ++ "' has a non-numeric " ++ key ++ ": '" ++ value ++ "'"
  | badPropertyLine line => "Invalid property line format: " ++ line
  | blankKey line => "Property key cannot be empty: " ++ line

inductive ReadFault
  | document (line : Int) (cause : DocumentFault)
  | tooManyDigits (count : Nat)
  | noDraft
  | noEntry (phase : Phase)
deriving DecidableEq

def ReadFault.message : ReadFault → Text
  | document line cause => "line " ++ Text.ofInt line ++ ": " ++ cause.message
  | tooManyDigits count =>
    "Exceeds the limit (" ++ Text.ofNat Text.maxDigits ++
      " digits) for integer string conversion: value has " ++ Text.ofNat count ++
      " digits; use sys.set_int_max_str_digits() to increase the limit"
  | noDraft => "No pending entry to finalize"
  | noEntry phase => "Parser reached state " ++ phase.name ++ " without an entry"

end TodoLedger
