import TodoLedger.Text.Rune
/-!
# Finding, cutting and replacing

Substrings of a text by their first occurrence.
-/

namespace TodoLedger.Text

/-- The rest of a text after a given beginning. -/
def dropLeading? : Text → Text → Option Text
  | [], t => some t
  | _ :: _, [] => none
  | a :: p, b :: t => if a = b then dropLeading? p t else none

def startsWith (t p : Text) : Bool := (dropLeading? p t).isSome

def endsWith (t s : Text) : Bool := startsWith t.reverse s.reverse

/-- The pattern occurs somewhere in the text. -/
def includes (t p : Text) : Bool :=
  startsWith t p || match t with
    | [] => false
    | _ :: r => includes r p

/-- The pieces between the occurrences of a character; there is always at least one. -/
def splitAt (c : Rune) : Text → List Text
  | [] => [[]]
  | a :: r =>
    if a = c then [] :: splitAt c r
    else match splitAt c r with
      | [] => [[a]]
      | p :: ps => (a :: p) :: ps

/-- What stands before and after the first occurrence of a pattern. -/
def cut? (p : Text) : Text → Option (Text × Text)
  | [] => if p.isEmpty then some ([], []) else none
  | a :: r =>
    match dropLeading? p (a :: r) with
    | some rest => some ([], rest)
    | none => (cut? p r).map fun (before, after) => (a :: before, after)

/-- Every occurrence of a character exchanged for a text. -/
def replaceChar (c : Rune) (replacement : Text) (t : Text) : Text :=
  t.flatMap fun a => if a = c then replacement else [a]

/-- Every occurrence of one character exchanged for another. -/
def mapChar (c d : Rune) (t : Text) : Text := t.map fun a => if a = c then d else a

end TodoLedger.Text
