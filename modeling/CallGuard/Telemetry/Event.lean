import CallGuard.Outcome
import CallGuard.Settings.Problem

/-!
# Log events

Every event has a severity, the part of the program that it comes from, a fixed message, and fields in a fixed order.
-/

namespace CallGuard

/-- How much an event matters. -/
inductive Severity
  | trace
  | debug
  | info
  | warn
  | error
deriving DecidableEq, Repr, Inhabited

namespace Severity

/-- The severities from the least to the greatest. -/
def rank : Severity → Nat
  | .trace => 0
  | .debug => 1
  | .info => 2
  | .warn => 3
  | .error => 4

/-- The name of a severity in log lines. -/
def name : Severity → String
  | .trace => "TRACE"
  | .debug => "DEBUG"
  | .info => "INFO"
  | .warn => "WARN"
  | .error => "ERROR"

end Severity

/-- The value of a field of an event. -/
inductive FieldValue
  | text (s : String)
  | number (n : Nat)
  | flag (b : Bool)
deriving DecidableEq, Repr

/-- Something worth writing into the log. -/
inductive Event
  | registryCreated (window : Window) (overrides : Nat)
  | settingsReplaced (window : Window)
  | circuitRefused (label : String) (error : SettingsError)
  | circuitRegistered (label : String) (window : Window) (trackFallback : Bool)
  /-- A circuit was registered by another between the two looks that a registration takes. -/
  | registrationLost (label : String)
  | callRecorded (label : String) (outcome : CallOutcome)
  | fallbackRecorded (label : String) (outcome : FallbackOutcome)
  /-- A fallback ended on a circuit that does not count its fallbacks. -/
  | fallbackIgnored (label : String) (outcome : FallbackOutcome)
  | callUnsuccessful (label : String) (outcome : CallOutcome)
  | fallbackUnsuccessful (label : String) (outcome : FallbackOutcome)
  | updateRefused (error : SettingsError)
  | updatesEnded
deriving DecidableEq, Repr

namespace Event

/-- How much an event matters. -/
def severity : Event → Severity
  | .registryCreated .. | .settingsReplaced .. | .circuitRegistered .. => .info
  | .circuitRefused .. => .error
  | .updateRefused .. => .warn
  | .callRecorded .. | .fallbackRecorded .. => .trace
  | .registrationLost .. | .fallbackIgnored .. | .callUnsuccessful .. | .fallbackUnsuccessful .. | .updatesEnded =>
    .debug

/-- The part of the program that an event comes from. -/
def origin : Event → String
  | .updateRefused .. | .updatesEnded => "circuit_stats::config::watcher"
  | .callUnsuccessful .. | .fallbackUnsuccessful .. => "circuit_stats::circuit::executor"
  | _ => "circuit_stats::registry"

/-- The message of an event. -/
def message : Event → String
  | .registryCreated .. => "Metrics registry created"
  | .settingsReplaced .. => "Registry configuration updated"
  | .circuitRefused .. => "Circuit failed to register metrics"
  | .circuitRegistered .. => "Circuit metrics registered"
  | .registrationLost .. => "Lost registration race, using existing bundles"
  | .callRecorded .. => "Command outcome recorded"
  | .fallbackRecorded .. => "Fallback outcome recorded"
  | .fallbackIgnored .. => "No fallback metrics attached, outcome ignored"
  | .callUnsuccessful .. => "Execution did not succeed"
  | .fallbackUnsuccessful .. => "Fallback did not succeed"
  | .updateRefused .. => "Rejected configuration update"
  | .updatesEnded => "Config update channel closed"

/-- The fields that show a window. -/
def windowFields (w : Window) : List (String × FieldValue) :=
  [("bucket_duration_ms", .number w.bucketMs.toNat), ("num_buckets", .number w.buckets.toNat)]

/-- The fields that show an outcome. -/
def outcomeFields (label outcome : String) : List (String × FieldValue) :=
  [("circuit", .text label), ("event", .text outcome)]

/-- The fields of an event in their order. -/
def fields : Event → List (String × FieldValue)
  | .registryCreated w overrides => windowFields w ++ [("overrides", .number overrides)]
  | .settingsReplaced w => windowFields w
  | .circuitRefused label e => [("circuit", .text label), ("error", .text e.message)]
  | .circuitRegistered label w track =>
    ("circuit", .text label) :: windowFields w ++ [("track_fallback", .flag track)]
  | .registrationLost label => [("circuit", .text label)]
  | .callRecorded label o | .callUnsuccessful label o => outcomeFields label o.name
  | .fallbackRecorded label o | .fallbackIgnored label o | .fallbackUnsuccessful label o =>
    outcomeFields label o.name
  | .updateRefused e => [("error", .text e.message)]
  | .updatesEnded => []

/-- The names of the fields of an event; its message counts as one. -/
def fieldNames (e : Event) : List String := "message" :: e.fields.map (·.1)

end Event
end CallGuard
