import CallGuard.Telemetry.Event
import CallGuard.Text.Alphanumeric
import CallGuard.Text.Excerpt
import CallGuard.Text.Pattern

/-!
# Directives of a log filter

A `Directive` sets the least severity that is written, for the events of an origin or of all, and perhaps only for
those that have a field.

As text it is `level`, `origin` (which lets everything pass), or an origin, a scope in brackets, and `=level`, where
each part may be absent. Levels are named in any case of letters, or numbered from 0 (nothing) to 5 (everything); an
equals sign without a level lets everything pass. A scope is the name of a span, a field in braces, or both; a field
is a name, which may be followed by an equals sign and the value to search for.

Blanks around a directive take no part in its form but in its pieces: they shift them, as `Excerpt` says.
-/

namespace CallGuard

open Text

/-- A bound on severity: events pass that are at least as severe, or none. -/
inductive Threshold
  | nothing
  | atLeast (s : Severity)
deriving DecidableEq, Repr

namespace Threshold

/-- The bound that lets everything pass. -/
def everything : Threshold := .atLeast .trace

/-- An event of this severity passes. -/
def passes (t : Threshold) (s : Severity) : Bool :=
  match t with
  | .nothing => false
  | .atLeast least => decide (least.rank ≤ s.rank)

/-- The names of the bounds. -/
def names : List (String × Threshold) :=
  [("off", .nothing), ("error", .atLeast .error), ("warn", .atLeast .warn), ("info", .atLeast .info),
    ("debug", .atLeast .debug), ("trace", everything)]

/-- The number that decimal digits write, a plus sign before them or not. -/
def number? (s : List Char) : Option Nat :=
  let digits := match s with
    | '+' :: digits => digits
    | digits => digits
  if digits ≠ [] ∧ digits.all Char.isDigit then (String.ofList digits).toNat? else none

/-- The bound that a text names or numbers. -/
def parse? (s : List Char) : Option Threshold :=
  match number? s with
  | some n => names[n]?.map (·.2)
  | none => names.lookup (String.ofList s).toLower

end Threshold

/-- The events of an origin that a directive is about. -/
inductive Scope
  | all
  /-- The events that have a field. -/
  | withField (name : String)
  /-- The events inside of a span; there are none, as nothing here opens a span. -/
  | inSpan
deriving DecidableEq, Repr

namespace Scope

/-- An event belongs to a scope. -/
def covers (s : Scope) (e : Event) : Bool :=
  match s with
  | .all => true
  | .withField name => e.fieldNames.contains name
  | .inSpan => false

/-- A scope gives way to another: a field counts for more than none, a later name for more than an earlier one. -/
def yields : Scope → Scope → Bool
  | .all, .withField _ => true
  | .withField a, .withField b => decide (a < b)
  | _, _ => false

end Scope

/-- A bound for the events of an origin, or of all, within a scope. -/
structure Directive where
  origin : Option String
  scope : Scope := .all
  threshold : Threshold
deriving DecidableEq, Repr

namespace Directive

/-- How specific the origin of a directive is. -/
def weight (d : Directive) : Nat := (d.origin.map fun o => o.length + 1).getD 0

/-- A directive gives way to another one about the same event: to one with a longer origin, and of equal origins to
one with a stronger scope. -/
def yields (d other : Directive) : Bool :=
  d.weight < other.weight || (d.weight = other.weight && d.scope.yields other.scope)

/-- A directive is about an event. -/
def concerns (d : Directive) (e : Event) : Bool :=
  d.origin.all (fun o => o.toList.isPrefixOf e.origin.toList) && d.scope.covers e

/-! ## Reading -/

/-- A text can begin with a character, if it is to write a directive with an origin or a level. -/
def isHead (c : Char) : Bool := ['-', ':', '_'].contains c || isAlphanumeric c

/-- The bound behind an equals sign. -/
def bound? (level : List Char) : Option Threshold := if level = [] then some .everything else Threshold.parse? level

/-- The directive that a single word writes. -/
def ofWord (word : List Char) : Directive :=
  match Threshold.parse? word with
  | some t => { origin := none, threshold := t }
  | none => { origin := some (String.ofList word), threshold := .everything }

/-- A decimal number, with a fraction and an exponent or without. -/
def isNumber (s : List Char) : Bool :=
  let (whole, s) := s.span Char.isDigit
  let (places, s) := match s with
    | '.' :: s => s.span Char.isDigit
    | s => ([], s)
  let exponent (s : List Char) := s ≠ [] && s.all Char.isDigit
  whole ++ places ≠ [] && match s with
    | [] => true
    | e :: sign :: s => e.toLower = 'e' && exponent (if sign = '+' ∨ sign = '-' then s else sign :: s)
    | _ => false

/-- A text can be the value to search for in a field: a pattern, or a number with a plus sign. -/
def isValue : List Char → Bool
  | '+' :: s => isNumber s || ["inf", "infinity", "nan"].contains (String.ofList s).toLower
  | s => isPattern s

/-- The scope that a field in braces writes. With a value it is about spans, because an event is not searched. -/
def fieldScope? (field : List Char) : Option Scope :=
  match field.span (· ≠ '=') with
  | ([], []) => none
  | (name, []) => some (.withField (String.ofList name))
  | (_, _ :: s) => if isValue (s.takeWhile (· ≠ '=')) then some .inSpan else none

/-- The scope in brackets of which the first is read, and the rest of the directive. -/
def scope? (e : Excerpt) (inside : List Char) : Option (Scope × List Char) :=
  match inside.dropWhile fun c => c ≠ ']' && c ≠ '{' with
  | ']' :: rest => some (.inSpan, rest)
  | '{' :: fields =>
    match fields.dropWhile (· ≠ '}') with
    | '}' :: ']' :: rest => do
      let scope ← fieldScope? (e.between fields ('}' :: ']' :: rest))
      some (if inside.head? = some '{' then scope else .inSpan, rest)
    | _ => none
  | _ => none

/-- The directive with an origin whose scope begins with `inside`. -/
def scoped? (e : Excerpt) (origin : Option String) (inside : List Char) : Option Directive := do
  let (scope, rest) ← scope? e inside
  match rest with
  | [] => some { origin, scope, threshold := .everything }
  | '=' :: level => (bound? (e.onward level)).map fun t => { origin, scope, threshold := t }
  | _ => none

/-- The directive that a text writes. -/
def parse? (s : List Char) : Option Directive :=
  let e := Excerpt.ofText s
  match e.body with
  | [] => none
  | '[' :: inside => scoped? e none inside
  | c :: rest =>
    if !isHead c then none
    else
      let rest := rest.dropWhile fun c => c ≠ '=' && c ≠ '['
      let origin := String.ofList (e.between e.body rest)
      match rest with
      | '=' :: level => (bound? (e.onward level)).map fun t => { origin := some origin, threshold := t }
      | '[' :: inside => scoped? e (some origin) inside
      | _ => some (ofWord s)

end Directive
end CallGuard
