import CallGuard.Settings

/-!
# What is wrong with settings

A window needs a positive width and at least one bucket, and the log level is one of five names, in any case of
letters. `Settings.problems` lists every violation: first those of the common window, then those of the overrides in
increasing order of their names, then the log level; inside a window the width comes before the number of buckets.

**Main statement.** A window has no problem exactly if it is valid (`Window.problems_eq_nil_iff`).
-/

namespace CallGuard

/-- One violation in settings. -/
inductive Problem
  /-- The buckets of the window at `scope` have no width. -/
  | zeroWidth (scope : String)
  /-- The window at `scope` has no bucket. -/
  | noBuckets (scope : String)
  /-- The log level is none of the known ones. -/
  | unknownLevel (level : String)
deriving DecidableEq, Repr

/-- The text of a violation. -/
def Problem.message : Problem → String
  | .zeroWidth scope => scope ++ ": bucket_duration_ms must be greater than 0"
  | .noBuckets scope => scope ++ ": num_buckets must be greater than 0"
  | .unknownLevel level => "logging.level: unknown level '" ++ level ++ "'"

/-- What is wrong with the window at `scope`. -/
def Window.problems (scope : String) (w : Window) : List Problem :=
  (if w.bucketMs = 0 then [.zeroWidth scope] else []) ++ (if w.buckets = 0 then [.noBuckets scope] else [])

theorem Window.problems_eq_nil_iff {scope : String} {w : Window} : w.problems scope = [] ↔ w.Valid := by
  unfold Window.problems Window.Valid
  by_cases h₁ : w.bucketMs = 0 <;> by_cases h₂ : w.buckets = 0 <;> simp [h₁, h₂]

/-- The place of a window that belongs to no override. -/
def Window.commonScope : String := "rolling"

/-- The place of the window of an override. -/
def Override.scope (name : String) : String := "circuits." ++ name ++ ".rolling"

/-- What is wrong with the override for circuits named `name`. -/
def Override.problems (name : String) (o : Override) : List Problem :=
  match o.window with
  | some w => w.problems (scope name)
  | none => []

/-- The log levels that settings may name. -/
def LogSettings.levels : List String := ["trace", "debug", "info", "warn", "error"]

/-- What is wrong with the way to write the log. -/
def LogSettings.problems (l : LogSettings) : List Problem :=
  if l.level.toLower ∈ levels then [] else [.unknownLevel l.level]

/-- What is wrong with settings. -/
def Settings.problems (s : Settings) : List Problem :=
  s.window.problems Window.commonScope ++ (byName s.overrides).flatMap (fun e => e.2.problems e.1) ++
    s.logging.problems

/-- Settings with no problem. -/
def Settings.Valid (s : Settings) : Prop := s.problems = []

instance (s : Settings) : Decidable s.Valid := inferInstanceAs (Decidable (_ = _))

/-! ## Refused settings -/

/-- Why a text could not be read. -/
inductive ReadError
  | missing
  | notText
deriving DecidableEq, Repr

/-- The text of a failure to read. -/
def ReadError.message : ReadError → String
  | .missing => "No such file or directory (os error 2)"
  | .notText => "stream did not contain valid UTF-8"

/-- Why settings were refused. -/
inductive SettingsError
  /-- There was no text. -/
  | unreadable (cause : ReadError)
  /-- The text is no document, or a field of it has a wrong type. -/
  | malformed
  /-- The settings have problems. -/
  | invalid (problems : List Problem)
deriving DecidableEq, Repr

/-- The text of a refusal; a malformed document is not described further. -/
def SettingsError.message : SettingsError → String
  | .unreadable cause => "IO error: " ++ cause.message
  | .malformed => "Parse error"
  | .invalid problems => "Validation failed: " ++ ", ".intercalate (problems.map Problem.message)

/-- The settings, if they have no problem. -/
def Settings.check (s : Settings) : Except SettingsError Settings :=
  match s.problems with
  | [] => .ok s
  | ps => .error (.invalid ps)

end CallGuard
