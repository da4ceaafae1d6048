import TodoLedger.Text.Rune
/-!
# Sorted lists

Sorting by insertion, in a form that can be evaluated inside the logic.
-/

namespace TodoLedger

variable {α : Type}

/-- An element in front of those that it may stand in front of. -/
def insertSorted (le : α → α → Bool) (a : α) : List α → List α
  | [] => [a]
  | b :: bs => if le a b then a :: b :: bs else b :: insertSorted le a bs

/-- The elements in ascending order. Where the order does not tell two apart, they keep theirs. -/
def sorted (le : α → α → Bool) : List α → List α
  | [] => []
  | a :: as => insertSorted le a (sorted le as)

end TodoLedger
