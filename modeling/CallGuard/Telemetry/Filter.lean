import CallGuard.Telemetry.Directive

/-!
# Which events are written, and how

A `LogFilter` is a list of directives. An event is written if the most specific directive about it lets it pass: the
one with the longest origin, and of those the one with the strongest scope. Of directives that are as specific as each
other the last counts, and an event that no directive is about is not written.

As text a filter separates its directives by commas. The filter of the environment is taken if each of its directives
can be read. That of the settings goes without the ones that cannot be read, and lets errors pass if none is left.
-/

namespace CallGuard

/-- Directives in the order of their writing. -/
structure LogFilter where
  directives : List Directive
deriving DecidableEq, Repr

namespace LogFilter

/-- The filter that lets only errors pass. -/
def errorsOnly : LogFilter := ⟨[{ origin := none, threshold := .atLeast .error }]⟩

/-- The texts of the directives in the text of a filter. -/
def parts (s : String) : List (List Char) := ((s.splitOn ",").filter (· ≠ "")).map String.toList

/-- The filter that a text writes, if each of its directives can be read. -/
def parse? (s : String) : Option LogFilter := ((parts s).mapM Directive.parse?).map LogFilter.mk

/-- The filter that a text writes, without the directives that cannot be read. -/
def parseReadable (s : String) : LogFilter :=
  match (parts s).filterMap Directive.parse? with
  | [] => errorsOnly
  | ds => ⟨ds⟩

/-- The filter in force: the one that the environment gives, if it can be read, else the one for the level in the
settings. -/
def choose (environment : Option String) (settings : LogSettings) : LogFilter :=
  match environment.bind parse? with
  | some f => f
  | none => parseReadable ("circuit_stats=" ++ settings.level)

/-- The directive that decides about an event: the most specific one, the last of equals. -/
def decisive? (f : LogFilter) (e : Event) : Option Directive :=
  f.directives.foldl (fun best d =>
    if !d.concerns e then best
    else match best with
      | some b => if d.yields b then some b else some d
      | none => some d) none

/-- An event is written. -/
def passes (f : LogFilter) (e : Event) : Bool := (f.decisive? e).any (·.threshold.passes e.severity)

end LogFilter

/-! ## Lines -/

/-- The text of the value of a field. -/
def FieldValue.display : FieldValue → String
  | .text s => s
  | .number n => toString n
  | .flag b => if b then "true" else "false"

/-- The line of an event: severity, origin if it is wanted, message and fields. -/
def Event.line (withTarget : Bool) (e : Event) : String :=
  e.severity.name ++ " " ++ (if withTarget then e.origin ++ ": " else "") ++ e.message ++
    String.join (e.fields.map fun (k, v) => " " ++ k ++ "=" ++ v.display)

/-- The lines of the events that a filter lets pass. -/
def LogFilter.lines (f : LogFilter) (withTarget : Bool) (events : List Event) : List String :=
  (events.filter f.passes).map (Event.line withTarget)

end CallGuard
