import CallGuard.Settings.Decode

/-!
# Reloading a watched file

A `Reload` remembers the last good settings of a watched file. When something happens in the directory of the file, it
decides what to hand on: the settings of the file, if they are good and differ from the last good ones. Contents that
are refused, other files and removals hand nothing on and leave the last good settings as they are.
-/

namespace CallGuard

/-- The last good settings of a watched file, if there are any. -/
structure Reload where
  last : Option Settings := none
deriving Repr

/-- Something that happens in the directory of a watched file. -/
inductive FileEvent
  /-- The watched file was written, and holds these bytes now. -/
  | written (contents : ByteArray)
  /-- Another file was written. -/
  | otherWritten
  /-- The watched file was removed. -/
  | removed

/-- What comes of an event. -/
inductive Verdict
  /-- New settings are handed on. -/
  | reloaded (settings : Settings)
  /-- The settings are the last good ones. -/
  | unchanged
  /-- The contents are refused. -/
  | rejected (error : SettingsError)
  /-- The event does not concern the contents of the file. -/
  | ignored

namespace Reload

/-- Begin to watch a file that has the given contents, if it exists. -/
def start (contents : Option ByteArray) : Reload := ⟨(Settings.load contents).toOption⟩

/-- Settings that were loaded say the same as the last good ones. -/
def isLast (r : Reload) (s : Settings) : Bool := r.last.any fun t => decide (t.Same s)

/-- What comes of an event, and what is remembered after it. -/
def step (r : Reload) : FileEvent → Verdict × Reload
  | .written contents =>
    match Settings.load (some contents) with
    | .error e => (.rejected e, r)
    | .ok s => if r.isLast s then (.unchanged, r) else (.reloaded s, ⟨some s⟩)
  | .otherWritten | .removed => (.ignored, r)

/-- What comes of events one after the other. -/
def run (r : Reload) : List FileEvent → List Verdict
  | [] => []
  | e :: es => (r.step e).1 :: (r.step e).2.run es

/-- The settings that are handed on, in their order. -/
def forwarded (verdicts : List Verdict) : List Settings :=
  verdicts.filterMap fun
    | .reloaded s => some s
    | _ => none

end Reload

/-- A path names a file: its last part is neither missing nor a step up. -/
def namesFile (path : String) : Bool :=
  match (path.splitOn "/").filter (fun part => part ≠ "" && part ≠ ".") |>.getLast? with
  | some part => part ≠ ".."
  | none => false

end CallGuard
