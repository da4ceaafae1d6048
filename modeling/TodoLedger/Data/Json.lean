import TodoLedger.Data.Basic
import TodoLedger.Text.Digit
/-!
# JSON

Reading and writing data as JSON. Characters outside ASCII are written as escapes, and the halves
of a surrogate pair are read as one character.
-/

namespace TodoLedger.Json

def isSpace (c : Rune) : Bool := c = ' ' || c = '\t' || c = '\n' || c = '\r'

def skipSpace (t : Text) : Text := t.dropWhile isSpace

def hexDigit? (c : Rune) : Option Nat :=
  if c.isAsciiDigit then some (c.code - 48)
  else if 97 ≤ c.code && c.code ≤ 102 then some (c.code - 87)
  else if 65 ≤ c.code && c.code ≤ 70 then some (c.code - 55)
  else none

def hexNumber? (t : Text) : Option Nat :=
  t.foldl (fun n c => do some (16 * (← n) + (← hexDigit? c))) (some 0)

/-- The number written with some ASCII digits. -/
def decimal (t : Text) : Nat := t.foldl (fun n c => 10 * n + (c.code - 48)) 0

/-- Four hexadecimal digits. -/
def unit? (t : Text) : Option (Nat × Text) :=
  let digits := t.take 4
  if digits.length = 4 then (hexNumber? digits).map fun n => (n, t.drop 4) else none

/-- The character of an escape behind its backslash, and how many characters it takes. -/
def escape? : Text → Option (Rune × Nat)
  | [] => none
  | c :: r =>
    if c = '"' || c = '\\' || c = '/' then some (c, 1)
    else if c = 'b' then some (Rune.ofNat 8, 1)
    else if c = 'f' then some (Rune.ofNat 12, 1)
    else if c = 'n' then some (Rune.ofNat 10, 1)
    else if c = 'r' then some (Rune.ofNat 13, 1)
    else if c = 't' then some (Rune.ofNat 9, 1)
    else if c = 'u' then do
      let (n, r) ← unit? r
      if 0xD800 ≤ n && n < 0xDC00 then
        match r with
        | a :: b :: r =>
          if a = '\\' && b = 'u' then
            match unit? r with
            | some (m, _) =>
              if 0xDC00 ≤ m && m < 0xE000 then
                some (Rune.ofNat (0x10000 + (n - 0xD800) * 0x400 + (m - 0xDC00)), 11)
              else some (Rune.ofNat n, 5)
            | none => some (Rune.ofNat n, 5)
          else some (Rune.ofNat n, 5)
        | _ => some (Rune.ofNat n, 5)
      else some (Rune.ofNat n, 5)
    else none

/-- The characters of a string behind its opening quote, after the first `skip`, and what stands
behind the closing quote. -/
def string? : Nat → Text → Option (Text × Text)
  | _, [] => none
  | skip + 1, _ :: r => string? skip r
  | 0, c :: r =>
    if c = '"' then some ([], r)
    else if c.code < 0x20 then none
    else if c = '\\' then do
      let (e, n) ← escape? r
      let (s, rest) ← string? n r
      some (e :: s, rest)
    else do
      let (s, rest) ← string? 0 r
      some (c :: s, rest)

def number? (t : Text) : Option (Data × Text) := do
  let negative : Bool := t.head? = some (Rune.ofChar '-')
  let t := if negative then t.tail else t
  let whole := t.takeWhile Rune.isAsciiDigit
  if whole.isEmpty || (1 < whole.length && whole.head? = some (Rune.ofChar '0')) then none
  let t := t.drop whole.length
  let fraction := match t with
    | c :: r => if c = '.' then r.takeWhile Rune.isAsciiDigit else []
    | [] => []
  let t := if fraction.isEmpty then t else t.drop (fraction.length + 1)
  let (exponentNegative, exponent, t') := match t with
    | c :: r =>
      if c = 'e' || c = 'E' then
        let sign : Bool := r.head? = some (Rune.ofChar '-')
        let r := if sign || (r.head? = some (Rune.ofChar '+') : Bool) then r.tail else r
        let digits := r.takeWhile Rune.isAsciiDigit
        (sign, digits, r.drop digits.length)
      else (false, [], t)
    | [] => (false, [], t)
  let t := if exponent.isEmpty then t else t'
  if fraction.isEmpty && exponent.isEmpty then
    let n := decimal whole
    some (.int (if negative then -(n : Int) else n), t)
  else
    let e : Int := if exponentNegative then -(decimal exponent : Int) else decimal exponent
    some (Data.ofDecimal negative (decimal whole) (decimal fraction) fraction.length e, t)

/-- The literal words. -/
def words : List (String × Data) :=
  [("null", .null), ("true", .bool true), ("false", .bool false), ("NaN", .unbounded),
    ("Infinity", .unbounded), ("-Infinity", .unbounded)]

def word? (t : Text) : Option (Data × Text) :=
  words.findSome? fun (word, d) =>
    if t.take word.toText.length = word.toText then some (d, t.drop word.toText.length) else none

mutual

/-- Reads a value; the depth of nesting is bounded by `fuel`. -/
def value? : Nat → Text → Option (Data × Text)
  | 0, _ => none
  | fuel + 1, t =>
    match t with
    | [] => none
    | c :: r =>
      if c = '"' then (string? 0 r).map fun (s, rest) => (.text s, rest)
      else if c = '[' then
        match skipSpace r with
        | [] => none
        | a :: rest =>
          if a = ']' then some (.list [], rest)
          else (items? fuel (a :: rest)).map fun (items, rest) => (.list items, rest)
      else if c = '\x7b' then
        match skipSpace r with
        | [] => none
        | a :: rest =>
          if a = '\x7d' then some (.map [], rest)
          else (entries? fuel (a :: rest)).map fun (entries, rest) => (.map entries, rest)
      else (word? (c :: r)).or (number? (c :: r))

/-- Reads the items of a list up to its closing bracket. -/
def items? : Nat → Text → Option (List Data × Text)
  | 0, _ => none
  | fuel + 1, t => do
    let (item, t) ← value? fuel t
    match skipSpace t with
    | [] => none
    | c :: r =>
      if c = ']' then some ([item], r)
      else if c = ',' then
        let (items, r) ← items? fuel (skipSpace r)
        some (item :: items, r)
      else none

/-- Reads the entries of a map up to its closing brace. -/
def entries? : Nat → Text → Option (List (Data × Data) × Text)
  | 0, _ => none
  | fuel + 1, t => do
    match t with
    | [] => none
    | c :: r =>
      if c = '"' then
        let (key, t) ← string? 0 r
        match skipSpace t with
        | [] => none
        | c :: r =>
          if c = ':' then
            let (item, t) ← value? fuel (skipSpace r)
            match skipSpace t with
            | [] => none
            | c :: r =>
              if c = '\x7d' then some ([(.text key, item)], r)
              else if c = ',' then
                let (entries, r) ← entries? fuel (skipSpace r)
                some ((.text key, item) :: entries, r)
              else none
          else none
      else none

end

/-- The data of a JSON text. -/
def parse? (t : Text) : Option Data := do
  let (d, rest) ← value? (t.length + 1) (skipSpace t)
  if (skipSpace rest).isEmpty then some d else none

def escapeUnit (n : Nat) : Text := "\\u" ++ Text.hex 4 n

def quotedRune (c : Rune) : Text :=
  if c = '"' then "\\\""
  else if c = '\\' then "\\\\"
  else if c = '\n' then "\\n"
  else if c = '\r' then "\\r"
  else if c = '\t' then "\\t"
  else if c.code = 8 then "\\b"
  else if c.code = 12 then "\\f"
  else if 32 ≤ c.code && c.code < 127 then [c]
  else if c.code < 0x10000 then escapeUnit c.code
  else
    let n := c.code - 0x10000
    escapeUnit (0xD800 + n / 0x400) ++ escapeUnit (0xDC00 + n % 0x400)

def quoted (t : Text) : Text :=
  Rune.ofChar '"' :: t.flatMap quotedRune ++ [Rune.ofChar '"']

mutual

def render : Data → Text
  | .null | .unbounded | .other => "null"
  | .bool b => if b then "true" else "false"
  | .int n => Text.ofInt n
  | .real whole => (whole.map Text.ofInt).getD "null"
  | .text t => quoted t
  | .list items => "[" ++ Text.join ", " (renderItems items) ++ "]"
  | .map entries => "\x7b" ++ Text.join ", " (renderEntries entries) ++ "\x7d"

def renderItems : List Data → List Text
  | [] => []
  | d :: ds => render d :: renderItems ds

def renderEntries : List (Data × Data) → List Text
  | [] => []
  | (k, d) :: es => (render k ++ ": " ++ render d) :: renderEntries es

end

end TodoLedger.Json
