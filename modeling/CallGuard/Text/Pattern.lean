import CallGuard.Text.Alphanumeric
import CallGuard.Text.Pattern.Set

/-!
# The form of search patterns

`isPattern` holds of the regular expressions that can be searched for: a row of items, of which each can be repeated
by `*`, `+` or `?`, with `|` between alternatives. An item is a sign, a set in brackets, or a group in parentheses. A
group can have a name, which no other group has, and options, which end with it; options in parentheses of their own
hold to the end of the group around them. Counted repetition does not belong to the patterns. Their items may be
nested up to `Pattern.maxNesting` levels.
-/

namespace CallGuard.Text
namespace Pattern

/-- The most levels to which the items of a pattern may be nested. -/
def maxNesting : Nat := 250

/-! ## The heads of groups -/

/-- Options that are given and options that are denied. -/
structure OptionChange where
  given : List Char := []
  denied : List Char := []
deriving DecidableEq, Repr

namespace OptionChange

/-- The letters of options. -/
def letters : List Char := ['i', 'm', 's', 'U', 'u', 'R', 'x']

/-- What becomes of an option that is on or off. -/
def apply (c : OptionChange) (letter : Char) (on : Bool) : Bool :=
  (on || c.given.contains letter) && !c.denied.contains letter

/-- The options after a change; the other letters do not bear on the form of a pattern. -/
def options (c : OptionChange) (o : Options) : Options where
  allScripts := c.apply 'u' o.allScripts
  foldsCase := c.apply 'i' o.foldsCase
  spaced := c.apply 'x' o.spaced

/-- Read options up to the colon or parenthesis behind them. No letter occurs twice, and a hyphen stands once, before
the options that are denied. -/
def read (c : OptionChange) (denying : Bool) : List Char → Option (OptionChange × List Char)
  | [] => none
  | a :: s =>
    if a = ':' ∨ a = ')' then if denying && c.denied = [] then none else some (c, a :: s)
    else if a = '-' then if denying then none else c.read true s
    else if letters.contains a && !c.given.contains a && !c.denied.contains a then
      read (if denying then { c with denied := a :: c.denied } else { c with given := a :: c.given }) denying s
    else none

end OptionChange

/-- A character that the name of a group may hold, or begin with. -/
def isNameChar (first : Bool) (c : Char) : Bool :=
  c = '_' || if first then isAlphabetic c else isAlphanumeric c || ['.', '[', ']'].contains c

/-- Read the name of a group up to the angle behind it. -/
def readName (s : List Char) : Option (List Char × List Char) :=
  match s.span (· ≠ '>') with
  | (c :: name, _ :: s) => if isNameChar true c && name.all (isNameChar false) then some (c :: name, s) else none
  | _ => none

/-! ## Rows of items -/

/-- An item: how deeply it is nested, and whether it can be repeated. -/
structure Item where
  nesting : Nat
  repeatable : Bool := true
deriving DecidableEq, Repr

/-- The items that have been read, the last one first, and the nesting of the alternatives before them. -/
structure Row where
  items : List Item := []
  alternatives : List Nat := []
deriving DecidableEq, Repr

namespace Row

/-- A row with one more item. -/
def push (r : Row) (i : Item) : Row := { r with items := i :: r.items }

/-- The row in which another alternative begins. -/
def branch (r : Row) : Row := { alternatives := Pattern.nesting (r.items.map (·.nesting)) :: r.alternatives }

/-- How deeply a row is nested. -/
def nesting (r : Row) : Nat := Pattern.nesting r.branch.alternatives

/-- The row with its last item repeated. -/
def repeat? (r : Row) : Option Row :=
  match r.items with
  | i :: items => if i.repeatable then some { r with items := { nesting := 1 + i.nesting } :: items } else none
  | [] => none

end Row

/-- A pattern in reading: the options in force, the row of the innermost open group, the options and rows around it,
and the names that groups have. -/
structure Reading where
  options : Options := {}
  row : Row := {}
  outer : List (Options × Row) := []
  names : List (List Char) := []
deriving DecidableEq, Repr

namespace Reading

/-- The reading with one more item. -/
def push (r : Reading) (i : Item) : Reading := { r with row := r.row.push i }

/-- The reading with one more sign, if it may stand here. -/
def pushSign (r : Reading) (sign : Sign) : Option Reading :=
  if r.options.allows sign then some (r.push { nesting := 0 }) else none

/-- The reading in a new group with some options. -/
def enter (r : Reading) (o : Options) : Reading :=
  { r with options := o, row := {}, outer := (r.options, r.row) :: r.outer }

/-- The reading behind the innermost group. -/
def leave (r : Reading) : Option Reading :=
  match r.outer with
  | (o, row) :: outer => some { r with options := o, row := row.push { nesting := 1 + r.row.nesting }, outer }
  | [] => none

/-- Read on behind the head of a group with a name. -/
def enterNamed (r : Reading) (s : List Char) : Option (Reading × List Char) := do
  let (name, s) ← readName s
  if r.names.contains name then none
  else some ({ r.enter r.options with names := name :: r.names }, s)

/-- Read on behind the parenthesis that opens a group, or options in parentheses of their own. -/
def readOpening (r : Reading) : List Char → Option (Reading × List Char)
  | '?' :: 'P' :: '<' :: s | '?' :: '<' :: s => r.enterNamed s
  | '?' :: s =>
    match OptionChange.read {} false s with
    | some (change, ':' :: s) => some (r.enter (change.options r.options), s)
    | some (change, ')' :: s) =>
      if change = {} then none
      else some ({ r.push { nesting := 0, repeatable := false } with options := change.options r.options }, s)
    | _ => none
  | s => some (r.enter r.options, s)

/-- Read an item, or a sign that separates or repeats items, of which `c` is the first character. -/
def step (r : Reading) (c : Char) (s : List Char) : Option (Reading × List Char) :=
  match c with
  | '(' => r.readOpening (r.options.skip s)
  | ')' => r.leave.map (·, s)
  | '|' => some ({ r with row := r.row.branch }, s)
  | '[' => (readSet r.options s).map fun (n, s) => (r.push { nesting := 1 + n }, s)
  | '*' | '+' | '?' =>
    r.row.repeat?.map fun row => ({ r with row }, match s with
      | '?' :: s => s
      | s => s)
  | '{' => none
  | '\\' => do
    let (sign, s) ← readEscape r.options s
    some (← r.pushSign sign, s)
  | '.' => if r.options.allScripts then some (r.push { nesting := 0 }, s) else none
  | '^' | '$' => (r.pushSign .anchor).map (·, s)
  | _ => (r.pushSign (.char c false)).map (·, s)

/-- Read on to the end of the pattern, in at most as many steps as `bound` has characters; the answer is its
nesting. -/
def read : (bound : List Char) → Reading → List Char → Option Nat
  | bound, r, s =>
    match r.options.skip s, bound with
    | [], _ => if r.outer = [] then some r.row.nesting else none
    | _ :: _, [] => none
    | c :: s, _ :: bound =>
      match r.step c s with
      | some (r, rest) => read bound r rest
      | none => none

end Reading
end Pattern

/-- A text is a search pattern. Each step of its reading takes a character at least, so the text is bound enough. -/
def isPattern (s : List Char) : Bool := (Pattern.Reading.read s {} s).any (· ≤ Pattern.maxNesting)

end CallGuard.Text
