import CallGuard.Table

/-!
# Cancel signals

A `Signal` is raised at most once and stays raised; it also counts the calls that wait for it. Signals are found by
name in `Signals`, where a name that was never used stands for a fresh signal.
-/

namespace CallGuard

/-- Whether a signal is raised, and how many wait for it. -/
structure Signal where
  raised : Bool := false
  waiting : Nat := 0
deriving DecidableEq, Repr, Inhabited

/-- The signals by their names. -/
abbrev Signals := Table String Signal

namespace Signals

/-- Raise a signal. -/
def cancel (s : Signals) (name : String) : Signals := s.update name fun x => { x with raised := true }

/-- One more waits for a signal. -/
def enter (s : Signals) (name : String) : Signals := s.update name fun x => { x with waiting := x.waiting + 1 }

/-- One less waits for a signal. -/
def leave (s : Signals) (name : String) : Signals := s.update name fun x => { x with waiting := x.waiting - 1 }

/-- The number of signals that are raised. -/
def raisedCount (s : Signals) : Nat := s.entries.countP (·.2.raised)

end Signals
end CallGuard
