import TodoLedger.Data.Yaml.Flow
import TodoLedger.Text.Line
/-!
# YAML

Reading data from a YAML document: lists and maps by indentation, flow collections, scalars plain,
quoted and in blocks, and the names and kinds of nodes.
-/

namespace TodoLedger.Yaml

/-- A line or the rest of one: its text, the column where it starts, and whether a line feed ends
it. -/
structure Row where
  column : Nat
  text : Text
  isEnded : Bool

def rowOf (isEnded : Bool) (line : Text) : Row :=
  let spaces := line.takeWhile isSpace
  ⟨spaces.length, line.drop spaces.length, isEnded⟩

/-- The row without its first `n` characters and the spaces behind them. -/
def Row.behind (r : Row) (n : Nat) : Row :=
  let rest := r.text.drop n
  let spaces := rest.takeWhile isSpace
  { r with column := r.column + n + spaces.length, text := rest.drop spaces.length }

/-- The rows of a text; a line feed at the very end starts no further row. -/
def rowsOf (t : Text) : List Row :=
  let lines := Text.splitAt '\n' t
  match lines.getLast? with
  | none | some [] => lines.dropLast.map (rowOf true)
  | some last => lines.dropLast.map (rowOf true) ++ [rowOf false last]

def Row.line (r : Row) : Text := List.replicate r.column (Rune.ofChar ' ') ++ r.text

/-- Nothing but a comment stands here. -/
def isVoid (t : Text) : Bool :=
  match t.dropWhile isSpace with
  | [] => true
  | c :: _ => c = '#'

/-- Nothing but a comment stands behind a value that ends here. -/
def endsHere (t : Text) : Bool :=
  match t with
  | [] => true
  | c :: _ => isSpace c && isVoid t

def skipVoid (rows : List Row) : List Row := rows.dropWhile fun r => isVoid r.text

/-- The text behind a sign and a blank, with its column. -/
def signedRow? (sign : Rune) (r : Row) : Option Row :=
  match r.text with
  | [] => none
  | c :: rest =>
    if c = sign && (rest.isEmpty || rest.head? = some (Rune.ofChar ' ')) then some (r.behind 1)
    else none

/-- The text behind a dash that starts an item, with its column. -/
def itemRow? : Row → Option Row := signedRow? '-'

/-- A key without its marks, and the text behind it. -/
def bareKey? (t : Text) : Option (Node × Text) :=
  match t with
  | [] => none
  | c :: _ =>
    if c = '"' || c = '\'' then (quotedScalar? t).map fun (s, rest) => (.quoted s, rest)
    else if startsPlain false t then
      let (s, rest) := plainLine false (t.length + 1) t
      some (.plain s, rest)
    else none

/-- A key, and the text behind it. -/
def key? (t : Text) : Option (Node × Text) :=
  if startsMark t then do
    let (marks, rest) ← marks? t
    if startsValue false rest then some ((Node.plain []).mark marks, rest)
    else
      let (n, rest) ← bareKey? rest
      some (n.mark marks, rest)
  else if t.head? = some (Rune.ofChar '*') then alias? t
  else bareKey? t

/-- The key of an entry that starts here and the text behind its colon. -/
def keyRow? (r : Row) : Option (Node × Row) := do
  let (key, rest) ← key? r.text
  let rest := rest.dropWhile isSpace
  if startsValue false rest && isKeyText r.text rest then
    some (key, r.behind (r.text.length - rest.length + 1))
  else none

/-- An entry starts here, be its key simple, missing or introduced by a question mark. -/
def startsEntry (r : Row) : Bool :=
  (keyRow? r).isSome || (signedRow? '?' r).isSome || (signedRow? ':' r).isSome

/-- The text of some rows again. -/
def textOf : List Row → Text
  | [] => []
  | r :: rows => r.text ++ (if r.isEnded then [Rune.ofChar '\n'] else []) ++ linesText rows
where
  linesText : List Row → Text
  | [] => []
  | r :: rows => r.line ++ (if r.isEnded then [Rune.ofChar '\n'] else []) ++ linesText rows

/-- Reads a value of the flow kind, which may run over several rows; nothing stands behind it. -/
def flowRows? (read : Text → Option (Node × Text)) (rows : List Row) :
    Option (Node × List Row) := do
  let (n, rest) ← read (textOf rows)
  let line := rest.takeWhile fun c => !isNewline c
  if isVoid line then
    match rest.drop line.length with
    | [] => some (n, [])
    | _ :: behind => some (n, rowsOf behind)
  else none

def isMarker (mark : Text) (r : Row) : Bool :=
  r.column = 0 && r.text.take 3 = mark && endsWord (r.text.drop 3)

/-- A row that goes on with a scalar that was started further up. -/
def continues (column : Nat) (r : Row) : Bool :=
  column ≤ r.column && r.text.head? ≠ some (Rune.ofChar '#') && !(chunk false r.text).isEmpty

/-- A plain scalar on the rows that are indented at least to a column: its text, the end of its last
row and the rows behind that. -/
def plainRows (column : Nat) : Nat → List Row → Text × Text × List Row
  | 0, rows => ([], [], rows)
  | _, [] => ([], [], [])
  | fuel + 1, r :: rows =>
    let (line, rest) := plainLine false (r.text.length + 1) r.text
    if !(rest.dropWhile isSpace).isEmpty then (line, rest, rows)
    else
      let blank := rows.takeWhile fun r => r.text.isEmpty
      match rows.drop blank.length with
      | [] => (line, [], [])
      | s :: more =>
        if continues column s then
          let (text, left) := plainRows column fuel (s :: more)
          let fold := if blank.isEmpty then [Rune.ofChar ' ']
            else List.replicate blank.length (Rune.ofChar '\n')
          (line ++ fold ++ text, left)
        else (line, [], rows)

/-- How the line breaks at the end of a block scalar are kept. -/
inductive Chomping
  | clip
  | strip
  | keep
deriving DecidableEq

/-- The marks behind the sign of a block scalar: chomping and indentation, each at most once. -/
def blockMarks? (t : Text) : Option (Chomping × Option Nat) :=
  let marks := t.takeWhile fun c => !isSpace c
  let chomping (c : Rune) : Option Chomping :=
    if c = '+' then some .keep else if c = '-' then some .strip else none
  let digit (c : Rune) : Option Nat :=
    if 49 ≤ c.code && c.code ≤ 57 then some (c.code - 48) else none
  if !isVoid (t.drop marks.length) then none
  else match marks with
    | [] => some (.clip, none)
    | [a] => match chomping a, digit a with
      | some k, _ => some (k, none)
      | none, some n => some (.clip, some n)
      | none, none => none
    | [a, b] => match chomping a, digit b, digit a, chomping b with
      | some k, some n, _, _ => some (k, some n)
      | _, _, some n, some k => some (k, some n)
      | _, _, _, _ => none
    | _ => none

/-- The lines of a block scalar that is indented to a column: their texts, and none for a line that
is blank up to there. -/
def blockLines (column : Nat) (rows : List Row) : List Text :=
  (rows.takeWhile fun r => r.text.isEmpty || column ≤ r.column).map fun r => r.line.drop column

def blockColumn (least : Nat) (rows : List Row) : Nat :=
  let blank := rows.takeWhile fun r => r.text.isEmpty
  let deepest := (blank.map Row.column).foldl max 0
  let first := ((rows.drop blank.length).head?.map Row.column).getD 0
  max least (max deepest first)

/-- Joins the lines of a folded scalar. Lines that start with a blank keep their breaks. -/
def foldLines : List Text → Text
  | [] => []
  | [line] => line
  | line :: next :: rest =>
    let more := foldLines (next :: rest)
    let indented (t : Text) := t.head?.any Rune.isSpaceOrTab
    if line.isEmpty then Rune.ofChar '\n' :: more
    else if next.isEmpty || indented line || indented next then
      if next.isEmpty && !indented line &&
          !((rest.dropWhile List.isEmpty).head?.any indented) then line ++ more
      else line ++ Rune.ofChar '\n' :: more
    else line ++ Rune.ofChar ' ' :: more

/-- Reads a block scalar behind its sign. -/
def blockScalar? (folded : Bool) (parent : Int) (marks : Text) (rows : List Row) :
    Option (Node × List Row) := do
  let (chomping, indent) ← blockMarks? marks
  let least := (max (parent + 1) 1).toNat
  let column := match indent with
    | some n => least + n - 1
    | none => blockColumn least rows
  let lines := blockLines column rows
  let body := (lines.reverse.dropWhile List.isEmpty).reverse
  let breaks := lines.length - body.length
  let text := if folded then foldLines body else Text.join "\n" body
  let last : Nat := if (rows.take lines.length).all Row.isEnded then 1 else 0
  let newlines := match chomping with
    | .strip => 0
    | .clip => if body.isEmpty then 0 else if breaks = 0 then last else 1
    | .keep => (if body.isEmpty then breaks else breaks + 1) + last - 1
  some (.quoted (text ++ List.replicate newlines (Rune.ofChar '\n')), rows.drop lines.length)

/-- Reads a scalar, a flow collection or a name that starts in the first row. -/
def bareRows? (parent : Int) (rows : List Row) : Option (Node × List Row) :=
  match rows with
  | [] => none
  | r :: more =>
    match r.text with
    | [] => none
    | c :: rest =>
      if c = '|' then blockScalar? false parent rest more
      else if c = '>' then blockScalar? true parent rest more
      else if c = '[' || c = '\x7b' then
        flowRows? (fun t => flowBare? (3 * t.length + 3) t) rows
      else if c = '"' || c = '\'' then
        flowRows? (fun t => (quotedScalar? t).map fun (s, rest) => (.quoted s, rest)) rows
      else if startsPlain false r.text then
        let (s, rest, left) := plainRows (parent + 1).toNat (rows.length + 1) rows
        if endsHere rest then some (.plain s, left) else none
      else none

mutual

/-- Reads a value whose rows are indented at least to a column; there may be none. -/
def node? (fuel column : Nat) (rows : List Row) : Option (Node × List Row) :=
  match fuel with
  | 0 => none
  | fuel + 1 =>
    match skipVoid rows with
    | [] => some (.plain [], [])
    | r :: more =>
      if r.column < column then some (.plain [], r :: more)
      else if (itemRow? r).isSome then
        (items? fuel r.column (r :: more)).map fun (items, rest) => (.list items, rest)
      else if startsEntry r then
        (entries? fuel r.column (r :: more)).map fun (entries, rest) => (.map entries, rest)
      else inline? fuel ((column : Int) - 1) none (r :: more)

/-- Reads a value that starts in the first row and is no collection by indentation, unless there
are marks only in this row. Items may then stand at a column of their own. -/
def inline? (fuel : Nat) (parent : Int) (column : Option Nat) (rows : List Row) :
    Option (Node × List Row) :=
  match fuel, rows with
  | 0, _ | _, [] => none
  | fuel + 1, r :: more =>
    if startsMark r.text then do
      let (marks, rest) ← marks? r.text
      if isVoid rest then
        let (n, left) ← below? fuel parent column more
        some (n.mark marks, left)
      else
        let (n, left) ← bareRows? parent (r.behind (r.text.length - rest.length) :: more)
        some (n.mark marks, left)
    else match alias? r.text with
      | some (n, rest) => if endsHere rest then some (n, more) else none
      | none => bareRows? parent (r :: more)

/-- Reads a value that starts further down; its rows are indented deeper than the parent's. -/
def below? (fuel : Nat) (parent : Int) (column : Option Nat) (rows : List Row) :
    Option (Node × List Row) :=
  match fuel with
  | 0 => none
  | fuel + 1 =>
    match skipVoid rows with
    | [] => some (.plain [], [])
    | s :: rest =>
      if some s.column = column && (itemRow? s).isSome then
        (items? fuel s.column (s :: rest)).map fun (items, left) => (.list items, left)
      else node? fuel (parent + 1).toNat (s :: rest)

/-- Reads the items of a list at a column. -/
def items? (fuel column : Nat) (rows : List Row) : Option (List Node × List Row) :=
  match fuel with
  | 0 => none
  | fuel + 1 =>
    match skipVoid rows with
    | [] => some ([], [])
    | r :: more =>
      if r.column < column then some ([], r :: more)
      else if column < r.column then none
      else match itemRow? r with
        | none => some ([], r :: more)
        | some behind => do
          let (item, rest) ← node? fuel (column + 1) (behind :: more)
          let (items, rest) ← items? fuel column rest
          some (item :: items, rest)

/-- Reads a key or a value behind a sign of its own. -/
def signed? (fuel column : Nat) (behind : Row) (rows : List Row) : Option (Node × List Row) :=
  match fuel with
  | 0 => none
  | fuel + 1 =>
    if isVoid behind.text then below? fuel column (some column) rows
    else node? fuel (column + 1) (behind :: rows)

/-- Reads the entries of a map at a column. -/
def entries? (fuel column : Nat) (rows : List Row) : Option (List (Node × Node) × List Row) :=
  match fuel with
  | 0 => none
  | fuel + 1 =>
    match skipVoid rows with
    | [] => some ([], [])
    | r :: more =>
      if r.column < column then some ([], r :: more)
      else if column < r.column then none
      else do
        let ((key, value), rest) ← entry? fuel column r more
        let (entries, rest) ← entries? fuel column rest
        some ((key, value) :: entries, rest)

/-- Reads the entry that starts in a row. -/
def entry? (fuel column : Nat) (r : Row) (more : List Row) :
    Option ((Node × Node) × List Row) :=
  match fuel with
  | 0 => none
  | fuel + 1 =>
    match signedRow? '?' r, signedRow? ':' r with
    | some behind, _ => do
      let (key, rest) ← signed? fuel column behind more
      match skipVoid rest with
      | [] => some ((key, .plain []), [])
      | s :: rest =>
        match (if s.column = column then signedRow? ':' s else none) with
        | none => some ((key, .plain []), s :: rest)
        | some behind => do
          let (value, rest) ← signed? fuel column behind rest
          some ((key, value), rest)
    | none, some behind => do
      let (value, rest) ← signed? fuel column behind more
      some ((.plain [], value), rest)
    | none, none => do
      let (key, behind) ← keyRow? r
      let (value, rest) ← if isVoid behind.text then below? fuel column (some column) more
        else inline? fuel column (some column) (behind :: more)
      some ((key, value), rest)

end

/-- The characters that may stand in a document. -/
def isAllowed (c : Rune) : Bool :=
  c.code = 9 || c.code = 10 || c.code = 13 || (0x20 ≤ c.code && c.code ≤ 0x7E) ||
    c.code = 0x85 || (0xA0 ≤ c.code && c.code ≤ 0xD7FF) ||
    (0xE000 ≤ c.code && c.code ≤ 0xFFFD) || 0x10000 ≤ c.code

def startMarker : Text := "---"
def endMarker : Text := "..."

/-- The first document of a stream: what stands behind its start marker, if there is one, and the
rows of the document. The rows behind the document come last. -/
def documentRows? (rows : List Row) : Option (Option Row × List Row × List Row) :=
  let rows := skipVoid rows
  let directives := rows.takeWhile fun r => r.column = 0 && r.text.head? = some (Rune.ofChar '%')
  let rows := if directives.isEmpty then rows else skipVoid (rows.drop directives.length)
  let isEnd (r : Row) := isMarker startMarker r || isMarker endMarker r
  let cut (rows : List Row) := (rows.takeWhile fun r => !isEnd r, rows.dropWhile fun r => !isEnd r)
  match rows with
  | [] => if directives.isEmpty then some (none, [], []) else none
  | r :: more =>
    if isMarker startMarker r then some (some (r.behind 3), cut more)
    else if directives.isEmpty then some (none, cut (r :: more)) else none

/-- The node of a document. Nothing but marks may precede a collection by indentation in the row of
the start marker. -/
def document? (fuel : Nat) (start : Option Row) (rows : List Row) : Option (Node × List Row) :=
  match start with
  | none => node? fuel 0 rows
  | some r => if isVoid r.text then node? fuel 0 rows else inline? fuel (-1) none (r :: rows)

/-- A text without a byte order mark, and with line feeds for next line characters. -/
def prepared (t : Text) : Text :=
  (Text.dropBom t).map fun c => if c.code = 0x85 then Rune.ofChar '\n' else c

/-- The data of a document, or nothing if the text is no YAML or holds several documents. -/
def parse? (t : Text) : Option Data := do
  if !t.all isAllowed then none
  let t := prepared t
  let (start, body, behind) ← documentRows? (rowsOf t)
  if !(skipVoid (behind.dropWhile (isMarker endMarker))).isEmpty then none
  let (n, rest) ← document? (4 * t.length + 8) start body
  if (skipVoid rest).isEmpty then (n.data? []).map Prod.fst else none

end TodoLedger.Yaml
