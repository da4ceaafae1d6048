import TodoLedger.Text.Rune
/-!
# Data

Plain data as it stands in settings files, in the environment and in log lines.
-/

namespace TodoLedger

inductive Data
  | null
  | bool (b : Bool)
  | int (n : Int)
  /-- A number with a fraction or an exponent, known only by its value if that is whole. -/
  | real (whole : Option Int)
  /-- An infinite number, or none at all. -/
  | unbounded
  /-- A value of a further type, such as a date. -/
  | other
  | text (t : Text)
  | list (items : List Data)
  | map (entries : List (Data × Data))
deriving Inhabited

namespace Data

/-- The number with some digits before and some behind the point, and a power of ten. -/
def ofDecimal (negative : Bool) (whole fraction : Nat) (fractionDigits : Nat) (exponent : Int) :
    Data :=
  let mantissa := whole * Nat.pow 10 fractionDigits + fraction
  let shift := exponent - fractionDigits
  let sign (n : Nat) : Int := if negative then -(n : Int) else n
  if mantissa = 0 then .real (some 0)
  else if 400 < shift then .unbounded
  else match shift with
    | .ofNat k => .real (some (sign (mantissa * Nat.pow 10 k)))
    | .negSucc k =>
      if 1000000 < k then .real none
      else if mantissa % Nat.pow 10 (k + 1) = 0 then
        .real (some (sign (mantissa / Nat.pow 10 (k + 1))))
      else .real none

def key (s : String) : Data := .text s.toText

def object (entries : List (String × Data)) : Data := .map (entries.map fun e => (key e.1, e.2))

/-- The entry of a map under a text key; of several the last counts. -/
def get? (name : Text) : Data → Option Data
  | .map entries => entries.foldl (fun found e => match e.1 with
      | .text t => if t = name then some e.2 else found
      | _ => found) none
  | _ => none

def field? (d : Data) (name : String) : Option Data := d.get? name.toText

/-- Missing, zero, or without any elements. -/
def isEmpty : Data → Bool
  | .null => true
  | .bool b => !b
  | .int n => n = 0
  | .real whole => whole = some 0
  | .text t => t.isEmpty
  | .list items => items.isEmpty
  | .map entries => entries.isEmpty
  | .unbounded | .other => false

end Data

end TodoLedger
