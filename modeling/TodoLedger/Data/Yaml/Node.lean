import TodoLedger.Data.Yaml.Scalar
/-!
# Nodes

What a YAML document is made of before its meaning is settled: scalars with or without quotes,
lists, maps, and the names and kinds given to them. A name given to a node can stand for it further
on, and a kind overrules what a scalar would mean by its form.
-/

namespace TodoLedger.Yaml

inductive Node
  | plain (t : Text)
  | quoted (t : Text)
  | list (items : List Node)
  | map (entries : List (Node × Node))
  | alias (name : Text)
  /-- A node with a name, or a kind, or both. -/
  | marked (name kind : Option Text) (node : Node)
deriving Inhabited

/-- The nodes that have a name, with their data. -/
abbrev Named := List (Text × Data)

/-- The sign of a key whose value is a map that is taken into the map. -/
def isMergeKey : Node → Bool
  | .plain t => t = mergeSign
  | .marked _ none (.plain t) => t = mergeSign
  | _ => false

/-- A value that can be a key. -/
def isKey : Data → Bool
  | .list _ | .map _ => false
  | _ => true

/-- The entries of a map, or of the maps in a list, of which the first ones come last. -/
def mergedEntries? : Data → Option (List (Data × Data))
  | .map entries => some entries
  | .list items => (items.reverse.mapM entriesOf?).map List.flatten
  | _ => none
where
  entriesOf? : Data → Option (List (Data × Data))
  | .map entries => some entries
  | _ => none

/-- The data of a node that is said to be of a kind. -/
def ofKind? (kind : Text) (node : Node) (data : Option Data) : Option Data :=
  match node, data with
  | .plain t, _ | .quoted t, _ =>
    if kind = ("!" : Text) then resolve? t
    else if kind = ("!!str" : Text) then some (.text t)
    else if kind = ("!!int" : Text) then integer? t
    else if kind = ("!!float" : Text) then number? t
    else if kind = ("!!bool" : Text) then truth? t
    else if kind = ("!!null" : Text) then some .null
    else none
  | .list _, some d => if kind = ("!" : Text) || kind = ("!!seq" : Text) then some d else none
  | .map _, some d => if kind = ("!" : Text) || kind = ("!!map" : Text) then some d else none
  | _, _ => none

mutual

/-- The data of a node behind named nodes, and all named nodes then. -/
def Node.data? (named : Named) : Node → Option (Data × Named)
  | .plain t => (resolve? t).map fun d => (d, named)
  | .quoted t => some (.text t, named)
  | .list items => (itemsData? named items).map fun (items, named) => (.list items, named)
  | .map entries =>
    (entriesData? named entries).map fun (merged, own, named) => (.map (merged ++ own), named)
  | .alias name => (named.lookup name).map fun d => (d, named)
  | .marked name kind node =>
    let inner := Node.data? named node
    let known := ((inner.map Prod.snd).getD named)
    let data := match kind with
      | none => inner.map Prod.fst
      | some kind => ofKind? kind node (inner.map Prod.fst)
    match name, data with
    | _, none => none
    | none, some d => some (d, known)
    | some name, some d =>
      if (known.lookup name).isSome then none else some (d, (name, d) :: known)

def itemsData? (named : Named) : List Node → Option (List Data × Named)
  | [] => some ([], named)
  | n :: ns => do
    let (d, named) ← Node.data? named n
    let (ds, named) ← itemsData? named ns
    some (d :: ds, named)

/-- The entries that are taken from other maps, and a map's own ones. -/
def entriesData? (named : Named) :
    List (Node × Node) → Option (List (Data × Data) × List (Data × Data) × Named)
  | [] => some ([], [], named)
  | (k, v) :: rest =>
    if isMergeKey k then do
      let (d, named) ← Node.data? named v
      let taken ← mergedEntries? d
      let (merged, own, named) ← entriesData? named rest
      some (taken ++ merged, own, named)
    else do
      let (key, named) ← match k with
        | .plain t => if t = valueSign then some (.text t, named) else Node.data? named k
        | _ => Node.data? named k
      if isKey key then
        let (d, named) ← Node.data? named v
        let (merged, own, named) ← entriesData? named rest
        some (merged, (key, d) :: own, named)
      else none

end

/-! ## Names and kinds in the text -/

/-- The characters of a node's name. -/
def isNameRune (c : Rune) : Bool :=
  c.isAsciiDigit || (65 ≤ c.code && c.code ≤ 90) || (97 ≤ c.code && c.code ≤ 122) ||
    c = '-' || c = '_'

/-- A name behind its sign, and the text behind it. -/
def name? (t : Text) : Option (Text × Text) :=
  let name := t.takeWhile isNameRune
  let rest := t.drop name.length
  let ends := match rest with
    | [] => true
    | c :: _ => c.isSpaceOrTab || isNewline c || "?:,]\x7d%@\x60".toText.contains c
  if name.isEmpty || !ends then none else some (name, rest)

/-- The characters of a kind. -/
def isKindRune (c : Rune) : Bool :=
  isNameRune c || ";/?:@&=+$,.!~*'()[]%".toText.contains c

/-- A kind behind its sign, in its short form, and the text behind it. -/
def kind? (t : Text) : Option (Text × Text) :=
  let ends (rest : Text) : Bool := rest.head?.all fun (c : Rune) => c = ' ' || isNewline c
  let (kind, rest) := match t with
    | [] => (("!" : Text), [])
    | c :: r =>
      if c = '<' then
        let whole := r.takeWhile isKindRune
        match r.drop whole.length with
        | d :: rest => if d = '>' then (whole, rest) else ([], t)
        | [] => ([], t)
      else
        let rest := t.takeWhile isKindRune
        (Rune.ofChar '!' :: rest, t.drop rest.length)
  if kind.isEmpty || !ends rest then none else some (kind, rest)

/-- The name and the kind in front of a node, in any order, and the text behind them and the spaces
that follow. -/
def marks? : Text → Option ((Option Text × Option Text) × Text)
  | [] => none
  | c :: r =>
    let skip (t : Text) : Text := t.dropWhile fun c => c = ' '
    if c = '&' then do
      let (name, rest) ← name? r
      match skip rest with
      | [] => some ((some name, none), [])
      | d :: s =>
        if d = '!' then do
          let (kind, rest) ← kind? s
          some ((some name, some kind), skip rest)
        else some ((some name, none), d :: s)
    else if c = '!' then do
      let (kind, rest) ← kind? r
      match skip rest with
      | [] => some ((none, some kind), [])
      | d :: s =>
        if d = '&' then do
          let (name, rest) ← name? s
          some ((some name, some kind), skip rest)
        else some ((none, some kind), d :: s)
    else none

/-- A mark stands here, be it well formed or not. -/
def startsMark (t : Text) : Bool := t.head?.any fun (c : Rune) => c = '&' || c = '!'

def Node.mark (marks : Option Text × Option Text) (n : Node) : Node := .marked marks.1 marks.2 n

/-- A node that stands for another one, behind its sign. -/
def alias? (t : Text) : Option (Node × Text) :=
  match t with
  | [] => none
  | c :: r => if c = '*' then (name? r).map fun (name, rest) => (.alias name, rest) else none

end TodoLedger.Yaml
