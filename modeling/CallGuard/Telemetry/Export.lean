import CallGuard.Outcome
import CallGuard.Table

/-!
# Exported series

What a registry shows to the outside is a table of named series. A circuit resolves one series for each outcome of its
calls and its fallbacks when it is registered, so that they stand in the table at 0; later events only add to them. A
series is named by the label of a circuit, and two circuits of one label share their series.

**Main statements.** The series of a circuit stand in the order of the outcomes, and the place of an outcome in its type
leads to its own series (`EventSeries.call_ofLabel`, `EventSeries.fallback_ofLabel`). `value_bump`, `value_put` and
`value_resolveAll` say what becomes of the value of every series.
-/

namespace CallGuard

/-- The name of an exported series. -/
inductive Series
  /-- How many circuits of this label were registered. -/
  | registrations (label : String)
  /-- How many circuits are registered. -/
  | circuits
  | calls (label : String) (outcome : CallOutcome)
  | fallbacks (label : String) (outcome : FallbackOutcome)
deriving DecidableEq, Repr

namespace Series

/-- The family to which a series belongs. -/
def family : Series → String
  | .registrations _ => "circuit_stats_registrations_total"
  | .circuits => "circuit_stats_circuits"
  | .calls .. | .fallbacks .. => "circuit_stats_events_total"

/-- The labels of a series in increasing order of their names. -/
def labels : Series → List (String × String)
  | .registrations label => [("circuit", label)]
  | .circuits => []
  | .calls label o => [("circuit", label), ("event", o.name), ("path", "command")]
  | .fallbacks label o => [("circuit", label), ("event", o.name), ("path", "fallback")]

/-- The texts by which series are ordered: the family, then each label and its value. -/
def sortKey (s : Series) : List String := s.family :: s.labels.flatMap fun (k, v) => [k, v]

end Series

/-- The series of the events of one circuit, one for each outcome, in the fixed order of the outcomes. -/
structure EventSeries where
  calls : Vector Series CallOutcome.all.length
  fallbacks : Vector Series FallbackOutcome.all.length

namespace EventSeries

/-- The series of a circuit of this label. -/
def ofLabel (label : String) : EventSeries where
  calls := .ofFn fun i => .calls label (CallOutcome.all.get i)
  fallbacks := .ofFn fun i => .fallbacks label (FallbackOutcome.all.get i)

/-- The series in the place of the end of a call. -/
def call (s : EventSeries) (o : CallOutcome) : Series := s.calls.get ⟨o.ctorIdx, o.ctorIdx_lt⟩

/-- The series in the place of the end of a fallback. -/
def fallback (s : EventSeries) (o : FallbackOutcome) : Series := s.fallbacks.get ⟨o.ctorIdx, o.ctorIdx_lt⟩

/-- All series of a circuit, those of its calls first. -/
def toList (s : EventSeries) : List Series := s.calls.toList ++ s.fallbacks.toList

@[simp] theorem call_ofLabel (label : String) (o : CallOutcome) : (ofLabel label).call o = .calls label o := by
  cases o <;> rfl

@[simp] theorem fallback_ofLabel (label : String) (o : FallbackOutcome) :
    (ofLabel label).fallback o = .fallbacks label o := by
  cases o <;> rfl

end EventSeries

/-- The exported series, and how often one was looked up. -/
structure Export where
  lookups : Nat := 0
  values : Table Series Nat := {}
deriving Inhabited

namespace Export

/-- The value of a series. -/
def value (e : Export) (s : Series) : Nat := e.values.get s

/-- Look a series up, which puts it into the table. -/
def resolve (e : Export) (s : Series) : Export :=
  { e with lookups := e.lookups + 1, values := e.values.update s id }

/-- Look up every series in a list. -/
def resolveAll (e : Export) (ss : List Series) : Export := ss.foldl resolve e

/-- Add one to a series that was looked up before. -/
def bump (e : Export) (s : Series) : Export := { e with values := e.values.update s (· + 1) }

/-- Set a series that was looked up before. -/
def put (e : Export) (s : Series) (n : Nat) : Export := { e with values := e.values.update s fun _ => n }

/-- The series of the events of a circuit. -/
def eventSeries (label : String) : List Series := (EventSeries.ofLabel label).toList

/-- The events of a circuit in one line, which does not show their values. -/
def summary : String := "EventCounters \x7b .. \x7d"

/-- The series and their values in order of their texts. -/
def sorted (e : Export) : List (Series × Nat) :=
  e.values.entries.mergeSort fun a b => !List.lex b.1.sortKey a.1.sortKey fun x y => decide (x < y)

/-! ## Values -/

variable (e : Export) (s t : Series)

theorem length_eventSeries (label : String) : (eventSeries label).length = 12 := rfl

@[simp] theorem value_resolve : (e.resolve s).value t = e.value t := by
  rw [value, resolve, Table.get_update]
  split
  · rename_i h
    rw [h]
    rfl
  · rfl

@[simp] theorem lookups_resolve : (e.resolve s).lookups = e.lookups + 1 := rfl

@[simp] theorem value_resolveAll (ss : List Series) : (e.resolveAll ss).value t = e.value t := by
  induction ss generalizing e with
  | nil => rfl
  | cons s ss ih => exact (ih (e.resolve s)).trans (e.value_resolve s t)

@[simp] theorem lookups_resolveAll (ss : List Series) : (e.resolveAll ss).lookups = e.lookups + ss.length := by
  induction ss generalizing e with
  | nil => rfl
  | cons s ss ih =>
    rw [List.length_cons, Nat.add_comm ss.length, ← Nat.add_assoc]
    exact ih (e.resolve s)

theorem value_bump : (e.bump s).value t = e.value t + if t = s then 1 else 0 := by
  rw [value, bump, Table.get_update]
  split
  · rename_i h
    rw [h]
    rfl
  · rfl

@[simp] theorem lookups_bump : (e.bump s).lookups = e.lookups := rfl

theorem value_put (n : Nat) : (e.put s n).value t = if t = s then n else e.value t := by
  rw [value, put, Table.get_update]
  rfl

@[simp] theorem lookups_put (n : Nat) : (e.put s n).lookups = e.lookups := rfl

end Export
end CallGuard
