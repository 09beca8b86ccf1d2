/-!
# Outcomes and the counters that they move

A guarded call ends in one of seven ways, a fallback in one of five. `CallOutcome.category` and
`FallbackOutcome.category` name the counter that an outcome moves; the two tables are one-to-one, so that bad requests
and interrupts reach neither the successes nor the failures.

**Main statements.** Different outcomes have different names (`CallOutcome.name_injective`) and different counters
(`CallOutcome.category_injective`); likewise for fallbacks.
-/

namespace CallGuard

/-! ## Guarded calls -/

/-- How a guarded call ended. -/
inductive CallOutcome
  /-- The work ended without an error. -/
  | success
  /-- The work ended with a real error. -/
  | failure
  /-- The work found the request itself to be invalid. -/
  | badRequest
  /-- The caller's deadline or signal came first. -/
  | interrupt
  /-- The circuit's own time ran out. -/
  | timeout
  /-- No permit was free. -/
  | concurrencyRejected
  /-- The circuit was open. -/
  | shortCircuited
deriving DecidableEq, Repr, Inhabited

/-- The counters of a circuit's calls. -/
inductive CallCategory
  | successes
  | failures
  | badRequests
  | interrupts
  | timeouts
  | concurrencyRejections
  | shortCircuits
deriving DecidableEq, Repr, Inhabited

namespace CallOutcome

/-- The outcomes in their fixed order. -/
def all : List CallOutcome :=
  [.success, .failure, .badRequest, .interrupt, .timeout, .concurrencyRejected, .shortCircuited]

/-- The name of an outcome in exported series and log events. -/
def name : CallOutcome → String
  | .success => "success"
  | .failure => "failure"
  | .badRequest => "bad_request"
  | .interrupt => "interrupt"
  | .timeout => "timeout"
  | .concurrencyRejected => "concurrency_rejected"
  | .shortCircuited => "short_circuited"

/-- The outcome is a real pass or fail of the work. -/
def isLegitimate : CallOutcome → Bool
  | .success | .failure => true
  | _ => false

/-- The call ran and says nothing about the health of the work. -/
def isExcluded : CallOutcome → Bool
  | .badRequest | .interrupt => true
  | _ => false

/-- The counter that an outcome moves. -/
def category : CallOutcome → CallCategory
  | .success => .successes
  | .failure => .failures
  | .badRequest => .badRequests
  | .interrupt => .interrupts
  | .timeout => .timeouts
  | .concurrencyRejected => .concurrencyRejections
  | .shortCircuited => .shortCircuits

theorem mem_all (o : CallOutcome) : o ∈ all := by cases o <;> decide

theorem ctorIdx_lt (o : CallOutcome) : o.ctorIdx < all.length := by cases o <;> decide

theorem name_injective {a b : CallOutcome} (h : a.name = b.name) : a = b := by
  cases a <;> cases b <;> first | rfl | exact absurd h (by decide)

theorem category_injective {a b : CallOutcome} (h : a.category = b.category) : a = b := by
  cases a <;> cases b <;> first | rfl | cases h

end CallOutcome

/-- The counters of a circuit's calls in their fixed order. -/
def CallCategory.all : List CallCategory := CallOutcome.all.map CallOutcome.category

/-! ## Fallbacks -/

/-- How a fallback ended. -/
inductive FallbackOutcome
  | success
  | failure
  /-- The fallback found the request itself to be invalid. -/
  | badRequest
  /-- The caller's deadline or signal came first. -/
  | interrupt
  | concurrencyRejected
deriving DecidableEq, Repr, Inhabited

/-- The counters of a circuit's fallbacks. -/
inductive FallbackCategory
  | successes
  | failures
  | badRequests
  | interrupts
  | concurrencyRejections
deriving DecidableEq, Repr, Inhabited

namespace FallbackOutcome

/-- The outcomes in their fixed order. -/
def all : List FallbackOutcome := [.success, .failure, .badRequest, .interrupt, .concurrencyRejected]

/-- The name of an outcome in exported series and log events. -/
def name : FallbackOutcome → String
  | .success => "success"
  | .failure => "failure"
  | .badRequest => "bad_request"
  | .interrupt => "interrupt"
  | .concurrencyRejected => "concurrency_rejected"

/-- The outcome is a real pass or fail of the fallback. -/
def isLegitimate : FallbackOutcome → Bool
  | .success | .failure => true
  | _ => false

/-- The counter that an outcome moves. -/
def category : FallbackOutcome → FallbackCategory
  | .success => .successes
  | .failure => .failures
  | .badRequest => .badRequests
  | .interrupt => .interrupts
  | .concurrencyRejected => .concurrencyRejections

theorem mem_all (o : FallbackOutcome) : o ∈ all := by cases o <;> decide

theorem ctorIdx_lt (o : FallbackOutcome) : o.ctorIdx < all.length := by cases o <;> decide

theorem name_injective {a b : FallbackOutcome} (h : a.name = b.name) : a = b := by
  cases a <;> cases b <;> first | rfl | exact absurd h (by decide)

theorem category_injective {a b : FallbackOutcome} (h : a.category = b.category) : a = b := by
  cases a <;> cases b <;> first | rfl | cases h

end FallbackOutcome

/-- The counters of a circuit's fallbacks in their fixed order. -/
def FallbackCategory.all : List FallbackCategory := FallbackOutcome.all.map FallbackOutcome.category

end CallGuard
