import TodoLedger.Data.Yaml.Node
import TodoLedger.Data.Yaml.Scalar
/-!
# Flow collections

Lists in brackets, maps in braces, and the scalars within them. Line breaks and comments may stand
wherever blanks may.
-/

namespace TodoLedger.Yaml

def isFlowMark (c : Rune) : Bool :=
  c = ',' || c = '[' || c = ']' || c = '\x7b' || c = '\x7d'

/-- Characters that never start a scalar without quotes. -/
def isIndicator (c : Rune) : Bool :=
  "-?:,[]\x7b\x7d#&*!|>'\"%@\x60".toText.contains c

def endsWord (t : Text) : Bool :=
  match t with
  | [] => true
  | c :: _ => c.isSpaceOrTab || isNewline c

/-- A scalar without quotes can start here. -/
def startsPlain (flow : Bool) (t : Text) : Bool :=
  match t with
  | [] => false
  | c :: r =>
    if c.isSpaceOrTab || isNewline c then false
    else !isIndicator c ||
      (!endsWord r && (c = '-' || (!flow && (c = '?' || c = ':'))))

/-- A colon that separates a key from its value stands here. -/
def startsValue (flow : Bool) (t : Text) : Bool :=
  match t with
  | [] => false
  | c :: r => c = ':' && (endsWord r || (flow && r.head?.any isFlowMark))

/-- The characters of a scalar up to a blank or to a mark that ends it. -/
def chunk (flow : Bool) : Text → Text
  | [] => []
  | c :: r =>
    if c.isSpaceOrTab || isNewline c || startsValue flow (c :: r) ||
        (flow && (isFlowMark c || c = '?')) then []
    else c :: chunk flow r

def isSpace (c : Rune) : Bool := c = ' '

/-- The rest of a scalar on its line: chunks with the spaces between them. -/
def plainLine (flow : Bool) : Nat → Text → Text × Text
  | 0, t => ([], t)
  | fuel + 1, t =>
    let word := chunk flow t
    let rest := t.drop word.length
    let spaces := rest.takeWhile isSpace
    let behind := rest.drop spaces.length
    if word.isEmpty then ([], t)
    else if spaces.isEmpty || behind.head? = some (Rune.ofChar '#') ||
        (chunk flow behind).isEmpty then
      (word, rest)
    else
      let (more, rest) := plainLine flow fuel behind
      (word ++ spaces ++ more, rest)

/-- Blanks, line breaks and comments between the parts of a collection. -/
def skipFlow : Nat → Text → Text
  | 0, t => t
  | fuel + 1, t =>
    match t.dropWhile fun c => isSpace c || isNewline c with
    | [] => []
    | c :: r =>
      if c = '#' then skipFlow fuel (r.dropWhile fun c => !isNewline c) else c :: r

def skipAll (t : Text) : Text := skipFlow (t.length + 1) t

/-- A scalar without quotes in a collection, over line breaks. -/
def flowPlain : Nat → Text → Text × Text
  | 0, t => ([], t)
  | fuel + 1, t =>
    let (line, rest) := plainLine true (t.length + 1) t
    match rest.dropWhile isSpace with
    | [] => (line, [])
    | c :: r =>
      if isNewline c then
        let (breaks, behind) := foldBreaks (r.length + 1) r
        if behind.head? = some (Rune.ofChar '#') || (chunk true behind).isEmpty then (line, rest)
        else
          let (more, rest) := flowPlain fuel behind
          (line ++ (if breaks.isEmpty then [Rune.ofChar ' '] else breaks) ++ more, rest)
      else (line, rest)

/-- A key and its colon stand on one line, and the key is not longer than this. -/
def maxKeyLength : Nat := 1024

/-- What stands between two ends of a text can be a key. -/
def isKeyText (t rest : Text) : Bool :=
  let key := t.take (t.length - rest.length)
  key.length ≤ maxKeyLength && !key.any isNewline

/-- The value of an entry is missing here. -/
def endsEntry (t : Text) : Bool :=
  t.head?.any fun (c : Rune) => c = ',' || c = ']' || c = '\x7d'

/-- Nothing follows the marks of a node. -/
def endsMarked (t : Text) : Bool := endsEntry t || t.head? = some (Rune.ofChar ':')

mutual

/-- Reads a value in a collection. -/
def flowValue? : Nat → Text → Option (Node × Text)
  | 0, _ => none
  | fuel + 1, t =>
    if startsMark t then do
      let (marks, rest) ← marks? t
      let rest := skipAll rest
      if endsMarked rest then some ((Node.plain []).mark marks, rest)
      else
        let (n, rest) ← flowBare? fuel rest
        some (n.mark marks, rest)
    else if t.head? = some (Rune.ofChar '*') then alias? t
    else flowBare? fuel t

/-- Reads a value without marks. -/
def flowBare? : Nat → Text → Option (Node × Text)
  | 0, _ => none
  | fuel + 1, t =>
    match t with
    | [] => none
    | c :: r =>
      if c = '[' then (flowItems? fuel (skipAll r)).map fun (items, rest) => (.list items, rest)
      else if c = '\x7b' then
        (flowEntries? fuel (skipAll r)).map fun (entries, rest) => (.map entries, rest)
      else if c = '"' || c = '\'' then (quotedScalar? t).map fun (s, rest) => (.quoted s, rest)
      else if startsPlain true t then
        let (s, rest) := flowPlain (t.length + 1) t
        some (.plain s, rest)
      else none

/-- Reads the value behind a key and a colon; it may be missing. -/
def flowAfterColon? : Nat → Text → Option (Node × Text)
  | 0, _ => none
  | fuel + 1, t =>
    let rest := skipAll t
    if endsEntry rest then some (.plain [], rest) else flowValue? fuel rest

/-- Reads a key and, behind a colon, its value. A question mark in front of a key lifts what is
asked of it. The flag says that there was a mark or a colon. -/
def flowEntry? : Nat → Text → Option ((Node × Node × Bool) × Text)
  | 0, _ => none
  | fuel + 1, t => do
    let isExplicit : Bool := t.head? = some (Rune.ofChar '?')
    let start := if isExplicit then skipAll t.tail else t
    let (key, rest) ← if isExplicit && endsMarked start then some (Node.plain [], start)
      else flowValue? fuel start
    let rest := skipAll rest
    if rest.head? = some (Rune.ofChar ':') then
      if isExplicit || isKeyText start rest then
        let (value, rest) ← flowAfterColon? fuel rest.tail
        some ((key, value, true), skipAll rest)
      else none
    else some ((key, .plain [], isExplicit), rest)

/-- Reads the items of a list up to its closing bracket. -/
def flowItems? : Nat → Text → Option (List Node × Text)
  | 0, _ => none
  | fuel + 1, t =>
    match t with
    | [] => none
    | c :: r =>
      if c = ']' then some ([], r)
      else do
        let ((first, value, isEntry), rest) ← flowEntry? fuel t
        let item := if isEntry then .map [(first, value)] else first
        match rest with
        | [] => none
        | d :: r =>
          if d = ',' then
            let (items, rest) ← flowItems? fuel (skipAll r)
            some (item :: items, rest)
          else if d = ']' then some ([item], r)
          else none

/-- Reads the entries of a map up to its closing brace. -/
def flowEntries? : Nat → Text → Option (List (Node × Node) × Text)
  | 0, _ => none
  | fuel + 1, t =>
    match t with
    | [] => none
    | c :: r =>
      if c = '\x7d' then some ([], r)
      else do
        let ((key, value, _), rest) ← flowEntry? fuel t
        match rest with
        | [] => none
        | d :: r =>
          if d = ',' then
            let (entries, rest) ← flowEntries? fuel (skipAll r)
            some ((key, value) :: entries, rest)
          else if d = '\x7d' then some ([(key, value)], r)
          else none

end

end TodoLedger.Yaml
