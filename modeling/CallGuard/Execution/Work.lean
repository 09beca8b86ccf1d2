import CallGuard.Registry
import CallGuard.Execution.Context
import CallGuard.Execution.Error
import CallGuard.Execution.Limiter

/-!
# Circuits and the work they guard

A `Circuit` is a registered circuit with its limits. `Work α` is a program that a circuit guards: it raises signals,
waits, makes a guarded call of its own, and ends with a value or an error, or never.
-/

namespace CallGuard

/-- The limits of a circuit; times are in milliseconds. -/
structure Limits where
  timeout : Nat := 1000
  maxCalls : Option Nat := some 10
  maxFallbacks : Option Nat := some 10
  forceOpen : Bool := false
deriving DecidableEq, Repr, Inhabited

/-- A registered circuit with limits of its own. Two circuits of one name share their counters, not their permits. -/
structure Circuit where
  id : Nat
  handle : Handle
  limits : Limits
deriving DecidableEq, Repr, Inhabited

/-- The two parts of a guarded call, each with permits of its own. -/
inductive Part
  | primary
  | fallback
deriving DecidableEq, Repr

/-- The number of permits for a part of the calls of a circuit. -/
def Circuit.maxOf (c : Circuit) : Part → Option Nat
  | .primary => c.limits.maxCalls
  | .fallback => c.limits.maxFallbacks

/-- What work ends with when it succeeds: a value of its own, or the value of the call that it made. -/
inductive Value (α : Type)
  | plain (a : α)
  | nested (v : Value α)
deriving DecidableEq, Repr

/-- How work ends. -/
abbrev WorkResult (α : Type) := Except WorkError (Value α)

/-- How a guarded call ends. -/
abbrev CallResult (α : Type) := Except CallError (Value α)

/-- Work to be guarded. -/
inductive Work (α : Type)
  /-- End. -/
  | done (result : WorkResult α)
  /-- Never end. -/
  | hang
  /-- Raise a signal, then go on. -/
  | raise (signal : String) (rest : Work α)
  /-- Wait, unless the time is zero, then go on. -/
  | wait (ms : Nat) (rest : Work α)
  /-- Make a guarded call without a fallback and end as it ends. -/
  | call (circuit : Circuit) (context : Context.Derivation) (work : Work α)
  /-- Make a guarded call with a fallback and end as it ends. -/
  | callOr (circuit : Circuit) (context : Context.Derivation) (work rescue : Work α)

/-- The result of work that ends as the call that it made: the value is marked, an error is told by its text. -/
def CallResult.asWork {α : Type} : CallResult α → WorkResult α
  | .ok v => .ok (.nested v)
  | .error e => .error (.failed e.message)

/-- A bound on the steps that work takes. -/
def Work.size {α : Type} : Work α → Nat
  | .done _ | .hang => 1
  | .raise _ rest | .wait _ rest => rest.size + 1
  | .call _ _ work => work.size + 2
  | .callOr _ _ work rescue => work.size + rescue.size + 4

end CallGuard
