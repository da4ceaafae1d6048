import TodoLedger.Text.Case
import TodoLedger.Text.Search
/-!
# Glob patterns

A pattern is matched against a path segment by segment and without regard to case. `**` takes any
number of segments, and inside a segment `*`, `?` and `[…]` take any characters, one character and
one character of a set.
-/

namespace TodoLedger.Glob

/-- The characters of a set: single ones and ranges, or all but these. -/
structure CharSet where
  negated : Bool
  members : List Rune
  ranges : List (Rune × Rune)

def CharSet.has (s : CharSet) (c : Rune) : Bool :=
  s.negated != (s.members.contains c ||
    s.ranges.any fun r => r.1.code ≤ c.code && c.code ≤ r.2.code)

/-- One piece of a pattern for a segment. -/
inductive Piece
  | star
  | one
  | rune (c : Rune)
  | set (s : CharSet)

def pushRune (c : Rune) : List Text → List Text
  | [] => [[c]]
  | p :: ps => (c :: p) :: ps

/-- Cuts the inside of a set at the hyphens that join the ends of a range. So many characters
before the first such hyphen are no hyphens of this kind, and two after each. -/
def cutAtHyphens : Nat → Text → List Text
  | _, [] => [[]]
  | keep + 1, c :: r => pushRune c (cutAtHyphens keep r)
  | 0, c :: r => if c = '-' then [] :: cutAtHyphens 2 r else pushRune c (cutAtHyphens 0 r)

/-- A hyphen at the very end joins nothing and is a member. -/
def restoreLastHyphen : List Text → List Text
  | [] => []
  | [c] => [c]
  | [c, d] => if d.isEmpty then [c ++ [Rune.ofChar '-']] else [c, d]
  | c :: ds => c :: restoreLastHyphen ds

/-- A range whose ends are out of order is dropped together with its ends. -/
def dropEmptyRanges : List Text → List Text
  | [] => []
  | c :: cs =>
    match dropEmptyRanges cs with
    | [] => [c]
    | d :: ds =>
      match c.getLast?, d with
      | some a, b :: rest => if b.code < a.code then (c.dropLast ++ rest) :: ds else c :: d :: ds
      | _, _ => c :: d :: ds

/-- Each range reaches from the end of a chunk to the start of the next. -/
def rangesOf : List Text → List (Rune × Rune)
  | c :: d :: rest =>
    match c.getLast?, d.head? with
    | some a, some b => (a, b) :: rangesOf (d :: rest)
    | _, _ => rangesOf (d :: rest)
  | _ => []

def CharSet.ofChunks (negated : Bool) : List Text → CharSet
  | [] :: d :: rest => ⟨negated, Rune.ofChar '-' :: (d :: rest).flatten, rangesOf (d :: rest)⟩
  | chunks => ⟨negated, chunks.flatten, rangesOf chunks⟩

/-- The set written between two brackets. An exclamation mark in front negates it. -/
def CharSet.ofInside (inside : Text) : CharSet :=
  let keep := if inside.head? = some (Rune.ofChar '!') then 2 else 1
  match dropEmptyRanges (restoreLastHyphen (cutAtHyphens keep inside)) with
  | (c :: chunk) :: rest =>
    if c = '!' then .ofChunks true (chunk :: rest) else .ofChunks false ((c :: chunk) :: rest)
  | chunks => .ofChunks false chunks

/-- What stands before the bracket that closes a set. A closing bracket in front is a member. -/
def inside? (t : Text) : Option Text :=
  let mark := if t.head? = some (Rune.ofChar '!') then 1 else 0
  let lead := if (t.drop mark).head? = some (Rune.ofChar ']') then mark + 1 else mark
  let rest := t.drop lead
  let more := rest.takeWhile fun c => c ≠ Rune.ofChar ']'
  if more.length = rest.length then none else some (t.take lead ++ more)

/-- The pieces of a segment's pattern, read behind its first `skip` characters. -/
def piecesFrom : Nat → Text → List Piece
  | _, [] => []
  | skip + 1, _ :: r => piecesFrom skip r
  | 0, c :: r =>
    if c = '*' then .star :: piecesFrom 0 r
    else if c = '?' then .one :: piecesFrom 0 r
    else if c = '[' then
      match inside? r with
      | none => .rune c :: piecesFrom 0 r
      | some inside => .set (.ofInside inside) :: piecesFrom (inside.length + 1) r
    else .rune c :: piecesFrom 0 r

/-- The ends of a list, the list itself first. -/
def suffixes {α : Type} : List α → List (List α)
  | [] => [[]]
  | a :: r => (a :: r) :: suffixes r

def matchPieces : List Piece → Text → Bool
  | [], t => t.isEmpty
  | .star :: ps, t => (suffixes t).any (matchPieces ps)
  | .one :: ps, t => match t with
    | [] => false
    | _ :: r => matchPieces ps r
  | .rune c :: ps, t => match t with
    | [] => false
    | a :: r => a = c && matchPieces ps r
  | .set s :: ps, t => match t with
    | [] => false
    | a :: r => s.has a && matchPieces ps r

/-- The wildcard matching of one text against one pattern. -/
def matchWild (pattern t : Text) : Bool := matchPieces (piecesFrom 0 pattern) t

def isWildcard (c : Rune) : Bool := c = '*' || c = '?' || c = '['

def anySegments : Text := "**"
def anySegment : Text := "*"

def matchSegment (pattern segment : Text) : Bool :=
  if pattern = anySegment then true
  else if pattern.any isWildcard then matchWild (Text.lower pattern) (Text.lower segment)
  else Text.lower segment = Text.lower pattern

def matchSegments : List Text → List Text → Bool
  | [], path => path.isEmpty
  | p :: ps, path =>
    if p = anySegments then (suffixes path).any (matchSegments ps)
    else match path with
      | [] => false
      | s :: rest => matchSegment p s && matchSegments ps rest

/-- The segments of a path that is written with slashes of either kind. -/
def segments (t : Text) : List Text :=
  (Text.splitAt '/' (Text.mapChar '\\' '/' t)).filter fun s => !s.isEmpty

/-- The whole path matches the pattern. -/
def matchesPath (pattern path : Text) : Bool := matchSegments (segments pattern) (segments path)

end TodoLedger.Glob
