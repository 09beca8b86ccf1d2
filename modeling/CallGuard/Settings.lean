import CallGuard.Window

/-!
# Settings

`Settings` hold the window and the fallback toggle that every circuit starts from, overrides of either for circuits of
a given name, and how to write the log. The overrides are a finite map from names, listed in any order;
`Settings.canonical` lists them by name, so that two settings say the same exactly if their canonical forms are equal.
-/

namespace CallGuard

/-- What a circuit of one name has of its own; the rest comes from the common settings. -/
structure Override where
  window : Option Window := none
  trackFallback : Option Bool := none
deriving DecidableEq, Repr, Inhabited

/-- How to write the log. -/
structure LogSettings where
  level : String := "info"
  withTarget : Bool := true
deriving DecidableEq, Repr, Inhabited

/-- The settings of a registry. -/
structure Settings where
  window : Window := {}
  trackFallback : Bool := true
  overrides : List (String × Override) := []
  logging : LogSettings := {}
deriving DecidableEq, Repr, Inhabited

namespace Settings

/-- The override for circuits named `name`. -/
def override? (s : Settings) (name : String) : Option Override := s.overrides.lookup name

/-- The window of circuits named `name`. -/
def windowFor (s : Settings) (name : String) : Window := ((s.override? name).bind (·.window)).getD s.window

/-- Whether circuits named `name` count their fallbacks. -/
def fallbackFor (s : Settings) (name : String) : Bool :=
  ((s.override? name).bind (·.trackFallback)).getD s.trackFallback

/-- Overrides in increasing order of their names. -/
def byName (overrides : List (String × Override)) : List (String × Override) :=
  overrides.mergeSort fun a b => decide (a.1 ≤ b.1)

/-- The same settings with their overrides in increasing order of names. -/
def canonical (s : Settings) : Settings := { s with overrides := byName s.overrides }

/-- Two settings say the same. -/
def Same (s t : Settings) : Prop := s.canonical = t.canonical

instance (s t : Settings) : Decidable (s.Same t) := inferInstanceAs (Decidable (_ = _))

end Settings
end CallGuard
