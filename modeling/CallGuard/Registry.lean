import CallGuard.CircuitName
import CallGuard.Stats
import CallGuard.Settings.Problem
import CallGuard.Telemetry.Event
import CallGuard.Telemetry.Export

/-!
# The registry of circuits

A `Registry` holds the settings in force and the counters of every registered circuit. The first registration of a
name settles its window and whether its fallbacks are counted, from what the caller asks for, else from the override
for that name, else from the common settings; later registrations of the name find the same counters. New settings
concern only circuits that are registered after them.

Every registration and every report also moves the exported series and leaves its events in the journal.
-/

namespace CallGuard

/-- A registered circuit and its counters. -/
structure RegisteredCircuit where
  name : CircuitName
  window : Window
  calls : CallStats
  fallbacks : Option FallbackStats

namespace RegisteredCircuit

/-- A circuit whose counters start at `now`. -/
def start (now : Int) (name : CircuitName) (window : Window) (valid : window.Valid) (track : Bool) :
    RegisteredCircuit where
  name := name
  window := window
  calls := .start window valid now
  fallbacks := if track then some (.start window valid now) else none

/-- A circuit whose counters start at `now`, unless its window has a problem. -/
def create (now : Int) (name : CircuitName) (window : Window) (track : Bool) :
    Except SettingsError RegisteredCircuit := do
  let calls ← Stats.create window now
  let fallbacks ← if track then (Stats.create window now).map some else .ok none
  .ok { name := name, window := window, calls := calls, fallbacks := fallbacks }

variable {window : Window}

theorem create_of_valid (valid : window.Valid) (now : Int) (name : CircuitName) (track : Bool) :
    create now name window track = .ok (start now name window valid track) := by
  rw [create, Stats.create_of_valid valid, Stats.create_of_valid valid]
  cases track <;> rfl

theorem create_of_not_valid (h : ¬ window.Valid) (now : Int) (name : CircuitName) (track : Bool) :
    create now name window track = .error (.invalid (window.problems Window.commonScope)) := by
  rw [create, Stats.create_of_not_valid h]
  rfl

end RegisteredCircuit

/-- What a caller asks for when it registers a circuit; the rest comes from the settings. -/
structure Registration where
  scope : String := ""
  window : Option Window := none
  trackFallback : Option Bool := none
deriving DecidableEq, Repr, Inhabited

/-- A registered circuit, by name and place. -/
structure Handle where
  name : CircuitName
  index : Nat
deriving DecidableEq, Repr, Inhabited

/-- The circuits in the order of their registration, the settings for new ones, and what the outside can see. -/
structure Registry where
  settings : Settings
  circuits : Array RegisteredCircuit := #[]
  exported : Export := {}
  journal : Array Event := #[]

namespace Registry

/-- Write an event into the journal. -/
def note (r : Registry) (e : Event) : Registry := { r with journal := r.journal.push e }

/-! ## Settings -/

/-- A registry without circuits, if the settings have no problem. -/
def create (settings : Settings) : Except SettingsError Registry :=
  match settings.check with
  | .ok s => .ok (note { settings := s } (.registryCreated s.window s.overrides.length))
  | .error e => .error e

/-- Replace the settings for circuits to come, unless the new ones have a problem. -/
def apply (r : Registry) (settings : Settings) : Except SettingsError Registry :=
  match settings.check with
  | .ok s => .ok { r.note (.settingsReplaced s.window) with settings := s }
  | .error e => .error e

/-- Apply new settings, or note why they are refused. -/
def applyOrNote (r : Registry) (settings : Settings) : Registry :=
  match r.apply settings with
  | .ok r' => r'
  | .error e => r.note (.updateRefused e)

/-- Apply updates one after the other; a refused one leaves the settings as they are. -/
def applyAll (r : Registry) (updates : List Settings) : Registry :=
  (updates.foldl applyOrNote r).note .updatesEnded

/-! ## Looking up -/

/-- The circuit of a name. -/
def find? (r : Registry) (name : CircuitName) : Option Handle :=
  (r.circuits.findIdx? (·.name == name)).map fun i => ⟨name, i⟩

/-- What a handle stands for. -/
def circuit? (r : Registry) (h : Handle) : Option RegisteredCircuit := r.circuits[h.index]?

/-- The number of registered circuits. -/
def size (r : Registry) : Nat := r.circuits.size

/-- The names of the registered circuits in increasing order. -/
def names (r : Registry) : List CircuitName := CircuitName.sort (r.circuits.toList.map (·.name))

/-- A registry in one line. -/
def summary (r : Registry) : String := "Registry \x7b circuits: " ++ toString r.size ++ " \x7d"

/-! ## Registering -/

/-- The window that a new circuit gets. -/
def windowOf (r : Registry) (name : String) (reg : Registration) : Window :=
  reg.window.getD (r.settings.windowFor name)

/-- Whether a new circuit counts its fallbacks. -/
def fallbackOf (r : Registry) (name : String) (reg : Registration) : Bool :=
  reg.trackFallback.getD (r.settings.fallbackFor name)

/-- Put a new circuit into the registry; its series stand at 0. -/
def insert (r : Registry) (c : RegisteredCircuit) : Registry :=
  { r.note (.circuitRegistered c.name.label c.window c.fallbacks.isSome) with
    circuits := r.circuits.push c
    exported := r.exported.resolveAll (Export.eventSeries c.name.label) }

/-- Count a registration in the exported series. -/
def countRegistration (r : Registry) (label : String) : Registry :=
  { r with exported := (r.exported.resolve (.registrations label)).bump (.registrations label) }

/-- Export a number of registered circuits. -/
def showSize (r : Registry) (n : Nat) : Registry :=
  { r with exported := (r.exported.resolve .circuits).put .circuits n }

/-- Add a new circuit: put it in, count its registration, and export how many circuits there are. -/
def add (r : Registry) (c : RegisteredCircuit) : Registry :=
  let r := (r.insert c).countRegistration c.name.label
  r.showSize r.size

/-- The circuit `name` in the scope of `reg`, registered at `now` if it is new. If its counters are refused, nothing is
registered. -/
def register (r : Registry) (now : Int) (name : String) (reg : Registration) :
    Except SettingsError Handle × Registry :=
  let name' : CircuitName := ⟨reg.scope, name⟩
  match r.find? name' with
  | some h => (.ok h, r)
  | none =>
    match RegisteredCircuit.create now name' (r.windowOf name reg) (r.fallbackOf name reg) with
    | .ok c => (.ok ⟨name', r.size⟩, r.add c)
    | .error error => (.error error, r.note (.circuitRefused name'.label error))

/-! ## Reporting -/

/-- Count a call that ended at `t`. -/
def report (r : Registry) (h : Handle) (outcome : CallOutcome) (t : Int) : Registry :=
  { r.note (.callRecorded h.name.label outcome) with
    circuits := r.circuits.modify h.index fun c => { c with calls := c.calls.record outcome.category t }
    exported := r.exported.bump ((EventSeries.ofLabel h.name.label).call outcome) }

/-- Whether the fallbacks of a circuit are counted. -/
def tracksFallback (r : Registry) (h : Handle) : Bool := (r.circuit? h).any (·.fallbacks.isSome)

/-- Count a fallback that ended at `t`, if the circuit counts its fallbacks. -/
def reportFallback (r : Registry) (h : Handle) (outcome : FallbackOutcome) (t : Int) : Registry :=
  if r.tracksFallback h then
    { r.note (.fallbackRecorded h.name.label outcome) with
      circuits := r.circuits.modify h.index fun c =>
        { c with fallbacks := c.fallbacks.map (·.record outcome.category t) }
      exported := r.exported.bump ((EventSeries.ofLabel h.name.label).fallback outcome) }
  else r.note (.fallbackIgnored h.name.label outcome)

end Registry
end CallGuard
