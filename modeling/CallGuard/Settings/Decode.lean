import CallGuard.Settings.Problem
import CallGuard.Toml.Document

/-!
# Settings from documents

Settings are decoded from the value tree of a document. A record may be written as a table of its fields by name, as
an array of its fields in their order, or as a moment, which has none of the fields; fields that are missing take
their defaults, and keys and items beyond the known ones are passed over. A known field of a wrong type or out of
range makes the whole document malformed, whatever else is wrong with it.

**Main statements.** `Settings.read` refuses malformed documents before it looks at problems; settings that it accepts
have none (`Settings.valid_of_ofValue`).
-/

namespace CallGuard

open Toml (Value)

/-! ## Records -/

namespace Toml.Value

/-- The value can stand for a record. -/
def isRecord : Value → Bool
  | .table _ | .array _ | .moment _ => true
  | _ => false

/-- The field of a record that has the given name and place. -/
def field? (v : Value) (name : String) (place : Nat) : Option Value :=
  match v with
  | .table entries => entries.lookup name
  | .array items => items[place]?
  | _ => none

/-- Decode a field of a record, with a default if it is missing. -/
def fieldD {α : Type} (v : Value) (name : String) (place : Nat) (decode : Value → Option α) (dflt : α) :
    Option α :=
  match v.field? name place with
  | some w => decode w
  | none => some dflt

/-- Decode a field of a record that may be missing. -/
def fieldOption {α : Type} (v : Value) (name : String) (place : Nat) (decode : Value → Option α) :
    Option (Option α) :=
  v.fieldD name place (fun w => (decode w).map some) none

/-- A truth value. -/
def asBoolean : Value → Option Bool
  | .boolean b => some b
  | _ => none

/-- A text. -/
def asText : Value → Option String
  | .text s => some s
  | _ => none

/-- An integer from 0 to the greatest of 63 bits. -/
def asUInt64 : Value → Option UInt64
  | .integer n => if 0 ≤ n ∧ n.toNat < UInt64.size / 2 then some (.ofNat n.toNat) else none
  | _ => none

/-- An integer of 32 bits. -/
def asUInt32 : Value → Option UInt32
  | .integer n => if 0 ≤ n ∧ n.toNat < UInt32.size then some (.ofNat n.toNat) else none
  | _ => none

end Toml.Value

/-! ## Settings -/

/-- The window that a record describes. -/
def Window.decode (v : Value) : Option Window := do
  if !v.isRecord then none
  let bucketMs ← v.fieldD "bucket_duration_ms" 0 Value.asUInt64 1000
  let buckets ← v.fieldD "num_buckets" 1 Value.asUInt32 10
  some ⟨bucketMs, buckets⟩

/-- The override that a record describes. -/
def Override.decode (v : Value) : Option Override := do
  if !v.isRecord then none
  let window ← v.fieldOption "rolling" 0 Window.decode
  let trackFallback ← v.fieldOption "track_fallback" 1 Value.asBoolean
  some ⟨window, trackFallback⟩

/-- The way to write the log that a record describes. -/
def LogSettings.decode (v : Value) : Option LogSettings := do
  if !v.isRecord then none
  let level ← v.fieldD "level" 0 Value.asText "info"
  let withTarget ← v.fieldD "with_target" 1 Value.asBoolean true
  some ⟨level, withTarget⟩

/-- The overrides that a table describes; names have no places, so it must be a table. -/
def Override.decodeAll : Value → Option (List (String × Override))
  | .table entries => entries.mapM fun (name, v) => (decode v).map fun o => (name, o)
  | _ => none

/-- The settings that a record describes. -/
def Settings.decode (v : Value) : Option Settings := do
  if !v.isRecord then none
  let window ← v.fieldD "rolling" 0 Window.decode {}
  let trackFallback ← v.fieldD "track_fallback" 1 Value.asBoolean true
  let overrides ← v.fieldD "circuits" 2 Override.decodeAll []
  let logging ← v.fieldD "logging" 3 LogSettings.decode {}
  some ⟨window, trackFallback, overrides, logging⟩

namespace Settings

/-- The settings of a value tree, or why they are refused. -/
def ofValue (v : Value) : Except SettingsError Settings :=
  match decode v with
  | some s => s.check
  | none => .error .malformed

/-- The settings of a text, or why they are refused. -/
def read (text : String) : Except SettingsError Settings :=
  match Value.ofDocument? text with
  | some v => ofValue v
  | none => .error .malformed

/-- The settings of a file of the given contents, if it exists, or why they are refused. -/
def load (contents : Option ByteArray) : Except SettingsError Settings :=
  match contents with
  | none => .error (.unreadable .missing)
  | some bytes =>
    match String.fromUTF8? bytes with
    | none => .error (.unreadable .notText)
    | some text => read text

theorem eq_of_check {s t : Settings} (h : s.check = .ok t) : t = s ∧ s.Valid := by
  unfold check at h
  split at h
  · exact ⟨by cases h; rfl, by assumption⟩
  · cases h

/-- Settings of a tree have no problem. -/
theorem valid_of_ofValue {v : Value} {s : Settings} (h : ofValue v = .ok s) : s.Valid := by
  unfold ofValue at h
  split at h
  · obtain ⟨rfl, hv⟩ := eq_of_check h
    exact hv
  · cases h

end Settings
end CallGuard
