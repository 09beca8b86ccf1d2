import CallGuard.Toml.Moment
import CallGuard.Toml.Number
import CallGuard.Toml.Tree

/-!
# Documents

A document is a list of lines: headers of tables, headers of arrays of tables, and keys with values. Arrays may spread
over several lines and end with a comma; tables in braces stand on one line and do not. Arrays and tables in braces
nest less than `depthLimit` deep, and a key has less than `depthLimit` parts.

`Value.ofDocument?` reads a document into the table that it describes.
-/

namespace CallGuard.Toml

/-- The depth that values and keys must stay below. -/
def depthLimit : Nat := 80

/-! ## Keys -/

/-- A character of a key without quotes. -/
def isBare (c : Char) : Bool := c.isAlphanum || c = '-' || c = '_'

/-- Read one part of a key, with the blanks around it. -/
def keyPart : Scan String := fun s =>
  let s := dropBlanks s
  let part := basicText s <|> rawText s <|> (textOf isBare s).map fun (cs, r) => (String.ofList cs, r)
  part.map fun (k, r) => (k, dropBlanks r)

/-- Read a key with points. -/
def key : Scan Path := fun s => do
  let (first, s) ← keyPart s
  let (more, s) := many (fun s => literal ['.'] s >>= fun (_, r) => keyPart r) s
  let parts := first :: more
  if parts.length < depthLimit then some (⟨parts.dropLast, parts.getLastD first⟩, s) else none

/-! ## Values -/

/-- Read a truth value. -/
def truth : Scan Value := fun s =>
  ((literal "true".toList s).map fun (_, r) => (.boolean true, r)) <|>
    (literal "false".toList s).map fun (_, r) => (.boolean false, r)

/-- Read a value that has no parts. -/
def scalar : Scan Value := fun s =>
  ((quotedText s).map fun (t, r) => (.text t, r)) <|> ((moment s).map fun (m, r) => (.moment m, r)) <|>
    number s <|> truth s

/-- Read a list of at least one element with commas between them. -/
def commaList {α : Type} (element : Scan α) : Scan (List α) := fun s => do
  let (first, s) ← element s
  let (more, s) := many (fun s => literal [','] s >>= fun (_, r) => element r) s
  some (first :: more, s)

/-- Read the elements of an array and its closing bracket. -/
def arrayRest (value : Scan Value) : Scan Value := fun s => do
  let element : Scan Value := fun s => (value (dropLayout s)).map fun (v, r) => (v, dropLayout r)
  let (items, s) := match commaList element s with
    | some (items, s) => (items, (optional (literal [',']) s).2)
    | none => ([], s)
  let (_, s) ← literal [']'] (dropLayout s)
  some (.array items, s)

/-- Read a key and, after an equals sign, its value. -/
def assignment (value : Scan Value) : Scan (Path × Value) := fun s => do
  let (k, s) ← key s
  let (_, s) ← literal ['='] s
  let (v, s) ← value (dropBlanks s)
  some ((k, v), s)

/-- Read the entries of a table in braces and its closing brace. -/
def tableRest (value : Scan Value) : Scan Value := fun s => do
  let entry : Scan (Path × Value) := fun s => (assignment value s).map fun (e, r) => (e, dropBlanks r)
  let (pairs, s) := (commaList entry s).getD ([], s)
  let (_, s) ← literal ['\x7d'] (dropBlanks s)
  let v ← Value.ofAssignments? pairs
  some (v, s)

/-- Read a value in which arrays and tables nest at most `depth` deep. -/
def value : Nat → Scan Value
  | 0 => scalar
  | depth + 1 => fun s =>
    match s with
    | '[' :: r => arrayRest (value depth) r
    | '\x7b' :: r => tableRest (value depth) r
    | _ => scalar s

/-! ## Lines -/

/-- A line that says something. -/
inductive Statement
  | assign (path : Path) (v : Value)
  | header (path : Path)
  | tableHeader (path : Path)

/-- Read a key between brackets. -/
def bracketed (left right : List Char) : Scan Path := fun s => do
  let (_, s) ← literal left s
  let (k, s) ← key s
  let (_, s) ← literal right s
  some (k, s)

/-- Read a statement. -/
def statement : Scan Statement := fun s =>
  match s with
  | '[' :: '[' :: _ => (bracketed ['[', '['] [']', ']'] s).map fun (k, r) => (.tableHeader k, r)
  | '[' :: _ => (bracketed ['['] [']'] s).map fun (k, r) => (.header k, r)
  | _ => (assignment (value (depthLimit - 1)) s).map fun ((k, v), r) => (.assign k v, r)

/-- Read a line, which may be blank. -/
def line : Scan (Option Statement) := fun s =>
  let s := dropBlanks s
  match s with
  | '#' :: _ | '\n' :: _ | '\r' :: _ => (restOfLine s).map fun (_, r) => (none, r)
  | _ => do
    let (st, s) ← statement s
    let (_, s) ← restOfLine s
    some (some st, s)

/-- Read the statements of a document; a byte order mark before them is passed over. -/
def statements? (s : List Char) : Option (List Statement) :=
  let s := match s with
    | '\uFEFF' :: r => r
    | _ => s
  let (lines, rest) := many line s
  if (dropBlanks rest).isEmpty then some (lines.filterMap id) else none

/-! ## Building -/

/-- The tables of a document so far, and the way to the table that takes the keys. -/
structure Builder where
  root : Entries := []
  way : List String := []

/-- Take one statement into account. -/
def Builder.step (b : Builder) : Statement → Option Builder
  | .assign path v => do
    let root ← Entries.updateUnder b.way (Entries.assign path v .defined) b.root
    some { b with root := root }
  | .header path => do
    let root ← Entries.define path b.root
    some ⟨root, path.parents ++ [path.last]⟩
  | .tableHeader path => do
    let root ← Entries.addTable path b.root
    some ⟨root, path.parents ++ [path.last]⟩

/-- The table that a document describes. -/
def Value.ofDocument? (text : String) : Option Value := do
  let sts ← statements? text.toList
  let b ← sts.foldlM Builder.step {}
  some (.table (entriesToValues b.root))

end CallGuard.Toml
