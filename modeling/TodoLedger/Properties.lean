import TodoLedger.Text.Case
import TodoLedger.Text.Quoted
/-!
# Properties

An ordered map from keys to values in which keys that differ in case only are one key. A key keeps
the place and the spelling with which it was first set.
-/

namespace TodoLedger

/-- The entries in order, keys as they are spelled. -/
structure Properties where
  entries : List (Text × Text)
deriving DecidableEq

namespace Properties

def empty : Properties := ⟨[]⟩

instance : Inhabited Properties := ⟨empty⟩

/-- The two spellings are one key. -/
def sameKey (a b : Text) : Bool := Text.fold a = Text.fold b

def get? (p : Properties) (key : Text) : Option Text :=
  (p.entries.find? fun e => sameKey e.1 key).map Prod.snd

def has (p : Properties) (key : Text) : Bool := (p.get? key).isSome

/-- The keys in order, as they are spelled. -/
def keys (p : Properties) : List Text := p.entries.map Prod.fst

/-- Each key together with the value that it is found with. -/
def items (p : Properties) : List (Text × Text) :=
  p.keys.filterMap fun key => (p.get? key).map (key, ·)

def setEntry (key value : Text) : List (Text × Text) → List (Text × Text)
  | [] => [(key, value)]
  | e :: es => if sameKey e.1 key then (e.1, value) :: es else e :: setEntry key value es

def set (p : Properties) (key value : Text) : Properties := ⟨setEntry key value p.entries⟩

def setAll (p : Properties) (pairs : List (Text × Text)) : Properties :=
  pairs.foldl (fun p e => p.set e.1 e.2) p

def ofList (pairs : List (Text × Text)) : Properties := empty.setAll pairs

/-- A map of its own that is set to the same items. -/
def copy (p : Properties) : Properties := ofList p.items

/-- The map without a key; a missing key has no answer. -/
def erase? (p : Properties) (key : Text) : Option Properties :=
  if p.has key then some ⟨p.entries.filter fun e => !sameKey e.1 key⟩ else none

/-- The value of a key together with the map without it. -/
def pop? (p : Properties) (key : Text) : Option (Text × Properties) := do
  some (← p.get? key, ← p.erase? key)

/-- The value of a key, which is set first if it is missing. -/
def getOrSet (p : Properties) (key value : Text) : Text × Properties :=
  match p.get? key with
  | some v => (v, p)
  | none => (value, p.set key value)

/-- The value of the first key that is present. -/
def first? (p : Properties) (keys : List Text) : Option Text := keys.findSome? p.get?

def size (p : Properties) : Nat := p.entries.length

/-- The first entry together with the map without it. -/
def popFirst? (p : Properties) : Option ((Text × Text) × Properties) := do
  let key ← p.keys.head?
  let (value, q) ← p.pop? key
  some ((key, value), q)

theorem size_lt_of_erase? {p q : Properties} {key : Text} (h : p.erase? key = some q) :
    q.size < p.size := by
  rw [erase?] at h
  split at h
  · next hhas =>
      cases h
      obtain ⟨e, he, hkey⟩ : ∃ e ∈ p.entries, sameKey e.1 key = true := by
        simpa [has, get?] using hhas
      exact List.length_filter_lt_length_iff_exists.mpr ⟨e, he, by simp [hkey]⟩
  · cases h

theorem erase?_of_pop? {p q : Properties} {key value : Text} (h : p.pop? key = some (value, q)) :
    p.erase? key = some q := by
  simp only [pop?, Option.bind_eq_bind, Option.bind_eq_some_iff, Option.some.injEq,
    Prod.mk.injEq] at h
  obtain ⟨-, -, q, herase, -, rfl⟩ := h
  exact herase

theorem size_lt_of_popFirst? {p q : Properties} {e : Text × Text}
    (h : p.popFirst? = some (e, q)) : q.size < p.size := by
  simp only [popFirst?, Option.bind_eq_bind, Option.bind_eq_some_iff, Option.some.injEq,
    Prod.mk.injEq] at h
  obtain ⟨_, -, _, hpop, -, rfl⟩ := h
  exact size_lt_of_erase? (erase?_of_pop? hpop)

/-- The map after its first entry is taken out again and again until there is none. -/
def clear (p : Properties) : Properties :=
  match _ : p.popFirst? with
  | some (_, q) => q.clear
  | none => p
termination_by p.size
decreasing_by exact size_lt_of_popFirst? ‹_›

/-- The same spellings with the same values, in any order. -/
def sameEntries (p q : Properties) : Bool :=
  p.size = q.size && p.entries.all fun e => q.entries.contains e

/-- A display of the entries in order. -/
def display (p : Properties) : Text :=
  let shown := p.entries.map fun e => Text.quoted e.1 ++ ": " ++ Text.quoted e.2
  "PropertyMap(\x7b" ++ Text.join ", " shown ++ "\x7d)"

end Properties

end TodoLedger
