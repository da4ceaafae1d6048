import TodoLedger.Data.Json
/-!
# Quoted scalars

Scalars in quotes may run over several lines. A single line break within them reads as a space, and
the blanks around it are left out.
-/

namespace TodoLedger.Yaml

def isNewline (c : Rune) : Bool := c = '\n'

/-- What one or more line breaks in front of a text, with the blanks around them, read as, and the
text behind them. -/
def foldBreaks : Nat → Text → Text × Text
  | 0, t => ([], t)
  | fuel + 1, t =>
    match t.dropWhile Rune.isSpaceOrTab with
    | [] => ([], [])
    | c :: r =>
      if isNewline c then
        let (breaks, rest) := foldBreaks fuel r
        (c :: breaks, rest)
      else ([], c :: r)

/-- What blanks in front of a quoted text read as, and the text behind them. -/
def foldSpace (t : Text) : Text × Text :=
  let blanks := t.takeWhile Rune.isSpaceOrTab
  match t.drop blanks.length with
  | [] => (blanks, [])
  | c :: r =>
    if isNewline c then
      let (breaks, rest) := foldBreaks (r.length + 1) r
      (if breaks.isEmpty then [Rune.ofChar ' '] else breaks, rest)
    else (blanks, c :: r)

/-- Reads behind an apostrophe up to the one that closes it; two apostrophes mean one. -/
def single? : Nat → Text → Option (Text × Text)
  | 0, _ => none
  | fuel + 1, t =>
    match t with
    | [] => none
    | c :: r =>
      if c = '\'' then
        if r.head? = some (Rune.ofChar '\'') then
          (single? fuel r.tail).map fun (s, rest) => (c :: s, rest)
        else some ([], r)
      else if c.isSpaceOrTab || isNewline c then
        let (space, rest) := foldSpace t
        (single? fuel rest).map fun (s, rest) => (space ++ s, rest)
      else (single? fuel r).map fun (s, rest) => (c :: s, rest)

/-- The escapes that mean one character each. -/
def plainEscapes : List (Char × Nat) :=
  [('0', 0), ('a', 7), ('b', 8), ('t', 9), ('\t', 9), ('n', 10), ('v', 11), ('f', 12), ('r', 13),
    ('e', 27), (' ', 32), ('"', 34), ('\\', 92), ('/', 47), ('N', 0x85), ('_', 0xA0), ('L', 0x2028),
    ('P', 0x2029)]

/-- A character given by so many hexadecimal digits. -/
def coded? (digits : Nat) (t : Text) : Option (Rune × Text) :=
  let code := t.take digits
  if code.length = digits then
    (Json.hexNumber? code).bind fun n =>
      if n < 0x110000 then some (Rune.ofNat n, t.drop digits) else none
  else none

/-- What an escape reads as, behind its backslash. -/
def escape? : Text → Option (Text × Text)
  | [] => none
  | c :: r =>
    match plainEscapes.find? fun e => Rune.ofChar e.1 = c with
    | some (_, n) => some ([Rune.ofNat n], r)
    | none =>
      if c = 'x' then (coded? 2 r).map fun (c, rest) => ([c], rest)
      else if c = 'u' then (coded? 4 r).map fun (c, rest) => ([c], rest)
      else if c = 'U' then (coded? 8 r).map fun (c, rest) => ([c], rest)
      else if isNewline c then some (foldBreaks (r.length + 1) r)
      else none

/-- Reads behind a double quote up to the one that closes it. -/
def double? : Nat → Text → Option (Text × Text)
  | 0, _ => none
  | fuel + 1, t =>
    match t with
    | [] => none
    | c :: r =>
      if c = '"' then some ([], r)
      else if c = '\\' then do
        let (e, rest) ← escape? r
        let (s, rest) ← double? fuel rest
        some (e ++ s, rest)
      else if c.isSpaceOrTab || isNewline c then
        let (space, rest) := foldSpace t
        (double? fuel rest).map fun (s, rest) => (space ++ s, rest)
      else (double? fuel r).map fun (s, rest) => (c :: s, rest)

/-- Reads a scalar in quotes of either kind. -/
def quotedScalar? (t : Text) : Option (Text × Text) :=
  match t with
  | [] => none
  | c :: r =>
    if c = '\'' then single? t.length r else if c = '"' then double? t.length r else none

end TodoLedger.Yaml
