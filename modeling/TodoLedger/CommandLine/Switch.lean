import TodoLedger.Text.Digit
import TodoLedger.Text.Search
/-!
# Switches

A command line is a list of words. A word with a dash in front is a switch: a short one is a dash
and a letter, a long one two dashes and a name, of which an unambiguous beginning is enough. The
value of a switch stands in the same word or in the next one. Behind a word of two dashes alone no
word is a switch.
-/

namespace TodoLedger

/-- Why a command line starts nothing. -/
inductive Refusal
  | misuse
  | help
  | version
deriving DecidableEq

namespace CommandLine

/-- What a switch does to the choices made so far. A value may be refused. -/
inductive Meaning (α : Type)
  | mark (f : α → α)
  | value (f : Text → α → Option α)
  | refuse (r : Refusal)

structure Switch (α : Type) where
  names : List Text
  meaning : Meaning α

/-- A text that stands in the same word as a switch, behind an equals sign or directly. -/
structure Attached where
  equals : Bool
  text : Text

inductive Word (α : Type)
  | separator
  | plain
  | unknown
  | switch (s : Switch α) (isShort : Bool) (attached : Option Attached)

def separatorText : Text := "--"

def dash : Rune := '-'

/-- A dash and a number, which may have a point. -/
def isNegativeNumber : Text → Bool
  | [] => false
  | c :: r =>
    let r := if r.getLast? = some (Rune.ofChar '\n') then r.dropLast else r
    c = dash && (Text.isDecimal r || match Text.cut? "." r with
      | some (whole, fraction) => whole.all Rune.isDigit && Text.isDecimal fraction
      | none => false)

section Words

variable {α : Type} (switches : List (Switch α))

def named? (name : Text) : Option (Switch α) := switches.find? fun s => s.names.contains name

/-- What a word that is not the name of a switch can mean. -/
def readings (name : Text) (attached : Option Attached) (t : Text) : List (Word α) :=
  if Text.startsWith t separatorText then
    switches.flatMap fun s =>
      (s.names.filter fun n => Text.startsWith n name).map fun _ => .switch s false attached
  else
    ((named? switches (t.take 2)).map fun s => .switch s true (some ⟨false, t.drop 2⟩)).toList

/-- A word in front of the separator. -/
def Word.ofText (t : Text) : Except Refusal (Word α) :=
  if t.head? ≠ some dash || t.length = 1 then .ok .plain
  else
    let name := t.takeWhile fun c => c ≠ Rune.ofChar '='
    let attached : Option Attached :=
      if name.length < t.length then some ⟨true, t.drop (name.length + 1)⟩ else none
    match named? switches t, named? switches name with
    | some s, _ => .ok (.switch s (!Text.startsWith t separatorText) none)
    | none, some s => .ok (.switch s (!Text.startsWith name separatorText) attached)
    | none, none =>
      match readings switches name attached t with
      | [] => .ok (if isNegativeNumber t || t.contains (Rune.ofChar ' ') then .plain else .unknown)
      | [w] => .ok w
      | _ => .error .misuse

/-- The words of a command line, each with its text. -/
def words : List Text → Except Refusal (List (Text × Word α))
  | [] => .ok []
  | t :: rest =>
    if t = separatorText then .ok ((t, .separator) :: rest.map fun t => (t, .plain))
    else do
      let w ← Word.ofText switches t
      return (t, w) :: (← words rest)

end Words

/-- What the switches in one word do, in order. A value may be wanted from the next word, and the
word may end in a letter that is no switch. -/
structure Cluster (α : Type) where
  effects : List (α → Except Refusal α)
  wanted : Option (Text → α → Option α)
  hasExcess : Bool

def assign {α : Type} (f : Text → α → Option α) (t : Text) (a : α) : Except Refusal α :=
  match f t a with
  | some a => .ok a
  | none => .error .misuse

namespace Cluster

variable {α : Type}

def of (effect : α → Except Refusal α) : Cluster α := ⟨[effect], none, false⟩

def push (effect : α → Except Refusal α) (c : Cluster α) : Cluster α :=
  { c with effects := effect :: c.effects }

/-- A switch that is a word of its own. -/
def alone (s : Switch α) : Cluster α :=
  match s.meaning with
  | .mark f => of fun a => .ok (f a)
  | .refuse r => of fun _ => .error r
  | .value f => ⟨[], some f, false⟩

/-- A short switch and the text behind it: its value, or further short switches. -/
def short (switches : List (Switch α)) (s : Switch α) (equals : Bool) (t : Text) :
    Except Refusal (Cluster α) :=
  match s.meaning, t with
  | .value f, t => .ok (of (assign f t))
  | .mark f, t => behind (fun a => .ok (f a)) t
  | .refuse r, t => behind (fun _ => .error r) t
where
  behind (effect : α → Except Refusal α) : Text → Except Refusal (Cluster α)
  | [] => .error .misuse
  | c :: r =>
    if equals || c = dash then .error .misuse
    else match named? switches [dash, c], r with
      | none, _ => .ok ⟨[effect], none, true⟩
      | some s, [] => .ok ((alone s).push effect)
      | some s, d :: r =>
        if d = '=' then (short switches s true r).map (push effect)
        else (short switches s false (d :: r)).map (push effect)

def ofSwitch (switches : List (Switch α)) (s : Switch α) (isShort : Bool) :
    Option Attached → Except Refusal (Cluster α)
  | none => .ok (alone s)
  | some a =>
    if isShort then short switches s a.equals a.text
    else match s.meaning with
      | .value f => .ok (of (assign f a.text))
      | _ => .error .misuse

def apply (c : Cluster α) (a : α) : Except Refusal α := c.effects.foldlM (fun a f => f a) a

end Cluster

/-- What a word that is no switch stands for. -/
inductive Operand (α : Type)
  | none
  | single (f : Text → α → α)
  /-- A command; all words from it on are its own. -/
  | command

structure Grammar (α : Type) where
  switches : List (Switch α)
  operand : Operand α

/-- How far a command line has been read. -/
structure Reading (α : Type) where
  choices : α
  operand : Operand α
  command : List Text
  hasExcess : Bool

namespace Reading

variable {α : Type}

def excess (r : Reading α) : Reading α := { r with hasExcess := true }

def run (switches : List (Switch α)) :
    List (Text × Word α) → Reading α → Except Refusal (Reading α)
  | [], r => .ok r
  | (_, .unknown) :: rest, r => run switches rest r.excess
  | (_, .separator) :: rest, r =>
    match r.operand with
    | .none => run switches rest r.excess
    | .single _ => run switches rest r
    | .command => .error .misuse
  | (t, .plain) :: rest, r =>
    match r.operand with
    | .none => run switches rest r.excess
    | .command => .ok { r with command := t :: rest.map Prod.fst }
    | .single f =>
      let r := { r with choices := f t r.choices, operand := .none }
      match rest with
      | (_, .separator) :: rest => run switches rest r
      | rest => run switches rest r
  | (_, .switch s isShort attached) :: rest, r => do
    let c ← Cluster.ofSwitch switches s isShort attached
    let r := if c.hasExcess then r.excess else r
    match c.wanted with
    | none => run switches rest { r with choices := ← c.apply r.choices }
    | some f =>
      match rest with
      | (t, .plain) :: rest =>
        run switches rest { r with choices := ← assign f t (← c.apply r.choices) }
      | _ => .error .misuse

end Reading

/-- Reads a command line, starting from some choices. -/
def Grammar.read {α : Type} (g : Grammar α) (choices : α) (line : List Text) :
    Except Refusal (Reading α) := do
  Reading.run g.switches (← words g.switches line) ⟨choices, g.operand, [], false⟩

end CommandLine

end TodoLedger
