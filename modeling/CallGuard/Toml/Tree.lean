import CallGuard.Toml.Value

/-!
# Tables under construction

A document builds its tables in pieces: headers open tables, and keys with points reach into tables. A `Node` is a
value that is complete, a table that may still grow, or an array of tables whose last one may still grow. How a table
came about decides how it may grow:

* a table that a header **defined** takes the keys that follow the header, and no second header;
* a table on the way of a header is **implied**, and a later header may define it;
* a table on the way of a key with points is **dotted**; only such keys may put keys into it, and no header may define
  it.

A key with points may pass through implied and dotted tables and into the last table of an array, but the table that
takes the key must be dotted. No key is written twice.
-/

namespace CallGuard.Toml

/-- How a table came about. -/
inductive Growth
  | defined
  | implied
  | dotted
deriving DecidableEq, Repr

/-- A value that may still grow. -/
inductive Node
  | value (v : Value)
  | table (growth : Growth) (entries : List (String × Node))
  | tables (items : List (List (String × Node)))

/-- The entries of a table under construction. -/
abbrev Entries := List (String × Node)

/-- A key with points: the tables on its way, and its last part. -/
structure Path where
  parents : List String
  last : String
deriving DecidableEq, Repr

namespace Entries

/-- Write an entry: over the one of that key, else at the end. -/
def put (es : Entries) (key : String) (n : Node) : Entries :=
  if es.any (·.1 == key) then es.map fun e => if e.1 == key then (key, n) else e else es ++ [(key, n)]

/-- Change the table at the end of a way, which begins in a table of the given growth. Tables that are missing on the
way come about as `made`, and only tables that satisfy `passable` may be passed. -/
def updateAt (made : Growth) (passable : Growth → Bool) :
    List String → (Growth → Entries → Option Entries) → Growth → Entries → Option Entries
  | [], f, growth, es => f growth es
  | key :: way, f, _, es =>
    match es.lookup key with
    | none => do
      let inner ← updateAt made passable way f made []
      some (es.put key (.table made inner))
    | some (.table growth inner) => do
      if passable growth then
        let inner ← updateAt made passable way f growth inner
        some (es.put key (.table growth inner))
      else none
    | some (.tables items) => do
      let last ← items.getLast?
      let inner ← updateAt made passable way f .defined last
      some (es.put key (.tables (items.dropLast ++ [inner])))
    | some (.value _) => none

/-- Write a value under a key with points. -/
def assign (path : Path) (v : Value) : Growth → Entries → Option Entries :=
  updateAt .dotted (· ≠ .defined) path.parents fun growth es =>
    if growth = .dotted ∨ path.parents = [] then
      if es.any (·.1 == path.last) then none else some (es.put path.last (.value v))
    else none

/-- Change the table that the header of a table or of an array of tables stands for. -/
def updateUnder (way : List String) (f : Entries → Option Entries) (es : Entries) : Option Entries :=
  updateAt .implied (fun _ => true) way (fun _ es => f es) .defined es

/-- Define the table of a header. -/
def define (path : Path) : Entries → Option Entries :=
  updateUnder path.parents fun es =>
    match es.lookup path.last with
    | none => some (es.put path.last (.table .defined []))
    | some (.table .implied inner) => some (es.put path.last (.table .defined inner))
    | some _ => none

/-- Add a table to the array of tables of a header. -/
def addTable (path : Path) : Entries → Option Entries :=
  updateUnder path.parents fun es =>
    match es.lookup path.last with
    | none => some (es.put path.last (.tables [[]]))
    | some (.tables items) => some (es.put path.last (.tables (items ++ [[]])))
    | some _ => none

end Entries

/-! ## Complete tables -/

mutual

/-- The value of a node that grows no more. -/
def Node.toValue : Node → Value
  | .value v => v
  | .table _ es => .table (entriesToValues es)
  | .tables items => .array (itemsToValues items)

/-- The entries of a table that grows no more. -/
def entriesToValues : List (String × Node) → List (String × Value)
  | [] => []
  | (key, n) :: es => (key, n.toValue) :: entriesToValues es

/-- The tables of an array that grows no more. -/
def itemsToValues : List (List (String × Node)) → List Value
  | [] => []
  | es :: items => .table (entriesToValues es) :: itemsToValues items

end

/-- The table that keys with points write, in their order. -/
def Value.ofAssignments? (pairs : List (Path × Value)) : Option Value := do
  let es ← pairs.foldlM (fun es p => Entries.assign p.1 p.2 .defined es) []
  some (.table (entriesToValues es))

end CallGuard.Toml
