import CallGuard.Duration

/-!
# Why guarded work did not succeed

Work ends with a `WorkError` of its own: the request was bad, or the work failed. A guarded call ends with a
`CallError`, which also tells time, interruption and refusal apart, and keeps the primary error under a fallback's.
-/

namespace CallGuard

/-- The error that work ends with. -/
inductive WorkError
  | badRequest (message : String)
  | failed (message : String)
deriving DecidableEq, Repr

/-- The text of an error of work. -/
def WorkError.message : WorkError → String
  | .badRequest m => "bad request: " ++ m
  | .failed m => m

/-- The error that a guarded call ends with. -/
inductive CallError
  | badRequest (message : String)
  | failed (message : String)
  /-- The circuit's own time ran out. -/
  | timeout (limit : Duration)
  /-- The caller's deadline or signal came first. -/
  | interrupted
  /-- The circuit was open. -/
  | shortCircuited
  /-- No permit was free. -/
  | concurrencyRejected
  | fallbackFailed (primary : CallError) (error : WorkError)
  | fallbackRejected (primary : CallError)
  | fallbackInterrupted (primary : CallError)
deriving DecidableEq, Repr

namespace CallError

/-- The error of a call whose work ended with `e`. -/
def ofWork : WorkError → CallError
  | .badRequest m => .badRequest m
  | .failed m => .failed m

/-- The text of an error of a call. -/
def message : CallError → String
  | .badRequest m => "bad request: " ++ m
  | .failed m => "operation failed: " ++ m
  | .timeout limit => "operation timed out after " ++ limit.text
  | .interrupted => "operation interrupted by caller"
  | .shortCircuited => "circuit is open"
  | .concurrencyRejected => "concurrency limit reached"
  | .fallbackFailed primary error => "fallback failed: " ++ error.message ++ " (primary: " ++ primary.message ++ ")"
  | .fallbackRejected primary => "fallback concurrency limit reached (primary: " ++ primary.message ++ ")"
  | .fallbackInterrupted primary => "fallback interrupted by caller (primary: " ++ primary.message ++ ")"

/-- A fallback may answer in place of this error: bad requests and interrupts are the caller's own. -/
def allowsFallback : CallError → Bool
  | .failed _ | .timeout _ | .shortCircuited | .concurrencyRejected => true
  | _ => false

/-- The call was refused before its work was begun. -/
def isRefusal : CallError → Bool
  | .shortCircuited | .concurrencyRejected => true
  | _ => false

end CallError
end CallGuard
