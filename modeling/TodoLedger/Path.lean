import TodoLedger.Text.Case
import TodoLedger.Text.Search
/-!
# Paths

A path is an anchor and the segments behind it. Empty segments and single dots are left out when a
path is read, double dots are kept, because they mean something only where directories exist.
-/

namespace TodoLedger

/-- Where a path starts: at the working directory, at the root, or at the root written with two
slashes. -/
inductive Anchor
  | relative
  | root
  | doubleRoot
deriving DecidableEq

structure Path where
  anchor : Anchor
  segments : List Text
deriving DecidableEq

def dot : Text := "."
def dotDot : Text := ".."

namespace Path

def isSlash (c : Rune) : Bool := c = '/'

/-- Any number of leading slashes but two mean the root. -/
def anchorOf (t : Text) : Anchor :=
  match (t.takeWhile isSlash).length with
  | 0 => .relative
  | 2 => .doubleRoot
  | _ => .root

def ofText (t : Text) : Path where
  anchor := anchorOf t
  segments := (Text.splitAt '/' t).filter fun s => !s.isEmpty && s ≠ dot

def anchorText : Anchor → Text
  | .relative => []
  | .root => "/"
  | .doubleRoot => "//"

def text (p : Path) : Text :=
  if p.anchor = .relative && p.segments.isEmpty then dot
  else anchorText p.anchor ++ Text.join "/" p.segments

/-- The path of a place below the root. -/
def absolute (segments : List Text) : Path := ⟨.root, segments⟩

/-- One path taken from another; an anchored path stands for itself. -/
def join (p q : Path) : Path :=
  if q.anchor = .relative then { p with segments := p.segments ++ q.segments } else q

/-- The path with one more segment. -/
def child (p : Path) (name : Text) : Path := { p with segments := p.segments ++ [name] }

def parent (p : Path) : Path := { p with segments := p.segments.dropLast }

def name (p : Path) : Text := p.segments.getLast?.getD []

/-- The last dot of a name and what follows it, if that is neither all of the name nor the dot
alone. -/
def suffixOf (name : Text) : Text :=
  let behind := name.reverse.takeWhile fun c => c ≠ Rune.ofChar '.'
  if behind.isEmpty || name.length ≤ behind.length + 1 then []
  else name.drop (name.length - (behind.length + 1))

def suffix (p : Path) : Text := suffixOf p.name

/-- Drops double dots together with the segments before them. -/
def resolveFrom (place : List Text) : List Text → List Text
  | [] => place
  | s :: rest => resolveFrom (if s = dotDot then place.dropLast else place ++ [s]) rest

/-- The place below the root that a path names from a directory, were all its segments
directories. -/
def resolve (cwd : List Text) (p : Path) : List Text :=
  resolveFrom (if p.anchor = .relative then cwd else []) p.segments

/-- What a place has behind a directory that it lies in. -/
def below? : List Text → List Text → Option (List Text)
  | [], place => some place
  | _ :: _, [] => none
  | a :: dir, b :: place => if a = b then below? dir place else none

/-- A place seen from a directory: relative if it lies there, else absolute. -/
def seenFrom (cwd place : List Text) : Path :=
  match below? cwd place with
  | some rest => ⟨.relative, rest⟩
  | none => absolute place

/-- The place that a path names, seen from the working directory. -/
def relativeTo (cwd : List Text) (p : Path) : Text := (seenFrom cwd (p.resolve cwd)).text

end Path

end TodoLedger
