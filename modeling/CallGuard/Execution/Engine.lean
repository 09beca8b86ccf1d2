import CallGuard.Registry
import CallGuard.Execution.Signal
import CallGuard.Execution.Work

/-!
# What guarded calls act on

The `Engine` holds a clock in whole milliseconds, the registry, the number of circuits that were created, the permits
that are held for the two parts of the calls of each of them, and the cancel signals. Its operations are the
elementary acts of guarded calls.
-/

namespace CallGuard

/-- The state on which guarded calls act. -/
structure Engine where
  now : Nat := 0
  registry : Registry
  created : Nat := 0
  permits : Table (Nat × Part) Nat := {}
  signals : Signals := {}

namespace Engine

/-- The instant of the clock in nanoseconds. -/
def instant (e : Engine) : Int := (e.now * Duration.perMilli : Nat)

/-- Move the clock. -/
def advance (e : Engine) (ms : Nat) : Engine := { e with now := e.now + ms }

/-- Register a circuit, or find it, and give it limits and permits of its own. -/
def createCircuit (e : Engine) (name : String) (reg : Registration) (limits : Limits) :
    Except SettingsError Circuit × Engine :=
  match e.registry.register e.instant name reg with
  | (.ok h, r) => (.ok ⟨e.created, h, limits⟩, { e with registry := r, created := e.created + 1 })
  | (.error err, r) => (.error err, { e with registry := r })

/-! ## Permits -/

/-- The limiter of a part of the calls of a circuit. -/
def limiter (e : Engine) (c : Circuit) (p : Part) : Limiter := ⟨c.maxOf p, e.permits.get (c.id, p)⟩

/-- Record the state of a limiter. -/
def putLimiter (e : Engine) (c : Circuit) (p : Part) (l : Limiter) : Engine :=
  { e with permits := e.permits.update (c.id, p) fun _ => l.active }

/-- Take a permit, if one is free. -/
def acquire? (e : Engine) (c : Circuit) (p : Part) : Option Engine :=
  (e.limiter c p).acquire?.map (e.putLimiter c p)

/-- Give a permit back. -/
def release (e : Engine) (c : Circuit) (p : Part) : Engine := e.putLimiter c p (e.limiter c p).release

/-! ## Signals -/

/-- Raise a signal. -/
def cancel (e : Engine) (signal : String) : Engine := { e with signals := e.signals.cancel signal }

/-- Wait for the signal of a context, if it has one. -/
def enter (e : Engine) (c : Context) : Engine :=
  match c.signal with
  | some s => { e with signals := e.signals.enter s }
  | none => e

/-- Wait no longer for the signal of a context. -/
def leave (e : Engine) (c : Context) : Engine :=
  match c.signal with
  | some s => { e with signals := e.signals.leave s }
  | none => e

/-- Whether the signal of a context is raised, if it has one. -/
def cancelled? (e : Engine) (c : Context) : Option Bool := c.signal.map fun s => (e.signals.get s).raised

/-- The deadline of a context has come, or its signal is raised. -/
def interrupts (e : Engine) (c : Context) : Bool :=
  c.deadline.any (decide <| · ≤ e.now) || (e.cancelled? c).getD false

/-! ## Registry -/

/-- Write an event into the journal. -/
def note (e : Engine) (event : Event) : Engine := { e with registry := e.registry.note event }

/-- Report the outcome of the primary part of a call that ends now. -/
def report (e : Engine) (c : Circuit) (o : CallOutcome) : Engine :=
  { e with registry := e.registry.report c.handle o e.instant }

/-- Report the outcome of a fallback that ends now. -/
def reportFallback (e : Engine) (c : Circuit) (o : FallbackOutcome) : Engine :=
  { e with registry := e.registry.reportFallback c.handle o e.instant }

end Engine
end CallGuard
