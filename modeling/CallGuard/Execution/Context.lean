/-!
# Contexts of calls

A `Context` carries what a caller allows: a deadline, in milliseconds of the clock, and the name of a cancel signal. A
child of a context has the earlier of its own deadline and its parent's, and the parent's signal. A `Derivation` says
how to make a context at the moment at which a call starts.
-/

namespace CallGuard

/-- The deadline and the signal under which a call runs. -/
structure Context where
  deadline : Option Nat := none
  signal : Option String := none
deriving DecidableEq, Repr, Inhabited

namespace Context

/-- The context without a deadline or a signal. -/
def background : Context := {}

/-- A fresh context with a deadline. -/
def withDeadline (deadline : Nat) : Context := { deadline := some deadline }

/-- A fresh context that ends `ms` milliseconds after `now`. -/
def withTimeout (now ms : Nat) : Context := withDeadline (now + ms)

/-- The same context under another signal. -/
def withSignal (c : Context) (name : String) : Context := { c with signal := some name }

/-- A child that ends `ms` milliseconds after `now`, or with its parent. -/
def child (c : Context) (now ms : Nat) : Context :=
  { c with deadline := some (match c.deadline with
      | some d => min d (now + ms)
      | none => now + ms) }

/-- One step in making a context. -/
inductive Step
  | deadline (instant : Nat)
  | timeout (ms : Nat)
  | signal (name : String)
  | child (ms : Nat)
deriving DecidableEq, Repr

/-- The context after a step that is made at `now`. -/
def step (now : Nat) (c : Context) : Step → Context
  | .deadline instant => withDeadline instant
  | .timeout ms => withTimeout now ms
  | .signal name => c.withSignal name
  | .child ms => c.child now ms

/-- How to make a context: from the enclosing one or from the background, by steps in order. -/
structure Derivation where
  inherit : Bool := false
  steps : List Step := []
deriving DecidableEq, Repr, Inhabited

/-- The context that a derivation makes at `now` inside `enclosing`. -/
def derive (enclosing : Context) (now : Nat) (d : Derivation) : Context :=
  d.steps.foldl (step now) (if d.inherit then enclosing else background)

end Context
end CallGuard
