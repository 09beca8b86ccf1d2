import CallGuard.Execution.Engine

/-!
# Guarded calls

A guarded call runs its work as its primary part. It is refused while its circuit is open or has no permit left. The
primary part ends when the work does, else when the circuit's time runs out, else when the caller's context interrupts
it; of two that come at one instant the former wins. Then its outcome is reported and its permit given back. An error
that allows it starts the fallback, if there is one, which needs a permit of its own and ends with its work or by the
caller's interruption; its outcome is reported too.

Calls are polled: `Work.start` begins work and goes as far as it can without waiting, `Suspended.poll` goes on with
work that had to wait. A suspended call waits for the signal of its context. Work that is given up goes away at once,
with the permits of the calls inside it, and nothing is reported for them.
-/

namespace CallGuard

variable {α : Type}

/-- What does not change while a call runs. -/
structure Frame where
  circuit : Circuit
  context : Context
deriving DecidableEq, Repr

/-- The part in which a call is. -/
inductive Stage (α : Type)
  /-- The work runs until `due` at most; then the fallback may follow. -/
  | primary (due : Nat) (rescue : Option (Work α))
  /-- The fallback runs in answer to an error. -/
  | fallback (cause : CallError)

/-- The part of a stage. -/
def Stage.part : Stage α → Part
  | .primary .. => .primary
  | .fallback .. => .fallback

/-- Work that cannot go on now. -/
inductive Suspended (α : Type)
  | waiting (due : Nat) (rest : Work α)
  | hanging
  /-- The work made a guarded call, whose own work is suspended. -/
  | calling (frame : Frame) (stage : Stage α) (inner : Suspended α)

/-- A guarded call whose work is suspended. -/
structure InFlight (α : Type) where
  frame : Frame
  stage : Stage α
  inner : Suspended α

/-- How a call ended: its primary part, the error that its fallback was given if one ran, and the answer. -/
structure Completion (α : Type) where
  primary : CallResult α
  fallbackSaw : Option CallError
  answer : CallResult α

/-- The work of the call was begun. -/
def Completion.ran (c : Completion α) : Bool :=
  match c.primary with
  | .ok _ => true
  | .error e => !e.isRefusal

/-- Where a poll leaves work or a call. -/
inductive Progress (σ ρ : Type)
  | suspended (s : σ)
  | finished (r : ρ)

/-- A poll that begins work or goes on with it. -/
abbrev Poll (σ ρ : Type) := Engine → Progress σ ρ × Engine

/-- Where a poll leaves the work that made a call, from where it leaves the call. -/
def Progress.ofCall : Progress (InFlight α) (Completion α) → Progress (Suspended α) (WorkResult α)
  | .suspended f => .suspended (.calling f.frame f.stage f.inner)
  | .finished c => .finished (CallResult.asWork c.answer)

/-! ## How a part ends -/

/-- How the primary part of a call ended that had begun. -/
inductive Ending (α : Type)
  | own (result : WorkResult α)
  | timedOut
  | interrupted

/-- The outcome of an ending. -/
def Ending.outcome : Ending α → CallOutcome
  | .own (.ok _) => .success
  | .own (.error (.badRequest _)) => .badRequest
  | .own (.error (.failed _)) => .failure
  | .timedOut => .timeout
  | .interrupted => .interrupt

/-- The result of an ending on a circuit with the given limits. -/
def Ending.result (limits : Limits) : Ending α → CallResult α
  | .own (.ok v) => .ok v
  | .own (.error e) => .error (.ofWork e)
  | .timedOut => .error (.timeout (.ofMillis limits.timeout))
  | .interrupted => .error .interrupted

/-- The outcome of a fallback that ended with its work, or without it by an interruption. -/
def fallbackOutcome : Option (WorkResult α) → FallbackOutcome
  | some (.ok _) => .success
  | some (.error (.badRequest _)) => .badRequest
  | some (.error (.failed _)) => .failure
  | none => .interrupt

/-- The answer of a call whose fallback ended with its work, or without it by an interruption. -/
def fallbackAnswer (cause : CallError) : Option (WorkResult α) → CallResult α
  | some (.ok v) => .ok v
  | some (.error e) => .error (.fallbackFailed cause e)
  | none => .error (.fallbackInterrupted cause)

namespace Frame

/-- Report the end of the primary part and give its permit back. -/
def closePrimary (f : Frame) (o : CallOutcome) (e : Engine) : Engine :=
  let e := e.report f.circuit o
  let e := if o = .success then e else e.note (.callUnsuccessful f.circuit.handle.name.label o)
  e.release f.circuit .primary

/-- Report the end of the fallback and give its permit back. -/
def closeFallback (f : Frame) (o : FallbackOutcome) (e : Engine) : Engine :=
  let e := e.reportFallback f.circuit o
  let e := if o = .success then e else e.note (.fallbackUnsuccessful f.circuit.handle.name.label o)
  e.release f.circuit .fallback

end Frame

/-- Give work up: the calls inside it hold no permit any more and wait for no signal. -/
def Suspended.abandon : Suspended α → Engine → Engine
  | .waiting .., e | .hanging, e => e
  | .calling f stage inner, e => ((inner.abandon e).leave f.context).release f.circuit stage.part

/-! ## Going through the stages of a call -/

/-- The fallback of a call: the work, and the poll that begins it. -/
structure Rescue (α : Type) where
  work : Work α
  begin : Poll (Suspended α) (WorkResult α)

namespace Frame

/-- What becomes of a fallback after its work was polled. -/
def settleFallback (f : Frame) (cause : CallError) (p : Progress (Suspended α) (WorkResult α)) :
    Poll (InFlight α) (Completion α) := fun e =>
  let close (r : Option (WorkResult α)) (e : Engine) :=
    (.finished ⟨.error cause, some cause, fallbackAnswer cause r⟩, f.closeFallback (fallbackOutcome r) e)
  match p with
  | .finished r => close (some r) e
  | .suspended s =>
    if e.interrupts f.context then close none (s.abandon e)
    else (.suspended ⟨f, .fallback cause, s⟩, e.enter f.context)

/-- Begin the fallback, if a permit is free. -/
def startFallback (f : Frame) (cause : CallError) (begin : Poll (Suspended α) (WorkResult α)) :
    Poll (InFlight α) (Completion α) := fun e =>
  match e.acquire? f.circuit .fallback with
  | none => (.finished ⟨.error cause, none, .error (.fallbackRejected cause)⟩,
      e.reportFallback f.circuit .concurrencyRejected)
  | some e =>
    let (p, e) := begin e
    f.settleFallback cause p e

/-- What becomes of a call after its primary part: an error that allows it starts the fallback. -/
def afterPrimary (f : Frame) (result : CallResult α) (rescue : Option (Rescue α)) :
    Poll (InFlight α) (Completion α) := fun e =>
  match result, rescue with
  | .error cause, some r =>
    if cause.allowsFallback then f.startFallback cause r.begin e else (.finished ⟨result, none, result⟩, e)
  | _, _ => (.finished ⟨result, none, result⟩, e)

/-- What becomes of a primary part after its work was polled: the work's own end comes first, then the circuit's time,
then the caller's interruption. -/
def settlePrimary (f : Frame) (due : Nat) (rescue : Option (Rescue α))
    (p : Progress (Suspended α) (WorkResult α)) : Poll (InFlight α) (Completion α) := fun e =>
  let close (x : Ending α) (e : Engine) :=
    f.afterPrimary (x.result f.circuit.limits) rescue (f.closePrimary x.outcome e)
  match p with
  | .finished r => close (.own r) e
  | .suspended s =>
    if due ≤ e.now then close .timedOut (s.abandon e)
    else if e.interrupts f.context then close .interrupted (s.abandon e)
    else (.suspended ⟨f, .primary due (rescue.map (·.work)), s⟩, e.enter f.context)

/-- Begin a guarded call whose work and fallback are begun by the given polls. -/
def startCall (f : Frame) (begin : Poll (Suspended α) (WorkResult α)) (rescue : Option (Rescue α)) :
    Poll (InFlight α) (Completion α) := fun e =>
  if f.circuit.limits.forceOpen then
    f.afterPrimary (.error .shortCircuited) rescue (e.report f.circuit .shortCircuited)
  else
    match e.acquire? f.circuit .primary with
    | none => f.afterPrimary (.error .concurrencyRejected) rescue (e.report f.circuit .concurrencyRejected)
    | some e =>
      let (p, e') := begin e
      f.settlePrimary (e.now + f.circuit.limits.timeout) rescue p e'

end Frame

/-! ## Polling -/

/-- Begin work inside a context, and go as far as it can without waiting. -/
def Work.start : Work α → Context → Poll (Suspended α) (WorkResult α)
  | .done r, _ => fun e => (.finished r, e)
  | .hang, _ => fun e => (.suspended .hanging, e)
  | .raise signal rest, ctx => fun e => rest.start ctx (e.cancel signal)
  | .wait ms rest, ctx => fun e =>
    if ms = 0 then rest.start ctx e else (.suspended (.waiting (e.now + ms) rest), e)
  | .call circuit d work, ctx => fun e =>
    let inside := ctx.derive e.now d
    let (p, e) := Frame.startCall ⟨circuit, inside⟩ (work.start inside) none e
    (p.ofCall, e)
  | .callOr circuit d work rescue, ctx => fun e =>
    let inside := ctx.derive e.now d
    let (p, e) := Frame.startCall ⟨circuit, inside⟩ (work.start inside) (some ⟨rescue, rescue.start inside⟩) e
    (p.ofCall, e)

/-- What becomes of a call after its suspended work was polled. -/
def Frame.settle (f : Frame) (stage : Stage α) (p : Progress (Suspended α) (WorkResult α)) :
    Poll (InFlight α) (Completion α) :=
  match stage with
  | .primary due rescue => f.settlePrimary due (rescue.map fun w => ⟨w, w.start f.context⟩) p
  | .fallback cause => f.settleFallback cause p

/-- Go on with suspended work inside a context. -/
def Suspended.poll : Suspended α → Context → Poll (Suspended α) (WorkResult α)
  | .waiting due rest, ctx => fun e => if due ≤ e.now then rest.start ctx e else (.suspended (.waiting due rest), e)
  | .hanging, _ => fun e => (.suspended .hanging, e)
  | .calling f stage inner, _ => fun e =>
    let (p, e) := inner.poll f.context (e.leave f.context)
    let (q, e) := f.settle stage p e
    (q.ofCall, e)

/-- Go on with a guarded call. -/
def InFlight.poll (c : InFlight α) : Poll (InFlight α) (Completion α) := fun e =>
  let (p, e) := c.inner.poll c.frame.context (e.leave c.frame.context)
  c.frame.settle c.stage p e

/-! ## Waking up -/

/-- The instants at which the stage of a call may have to be polled again. -/
def Stage.wakes : Stage α → List Nat
  | .primary due _ => [due]
  | .fallback _ => []

/-- The instants at which suspended work may have to be polled again. -/
def Suspended.wakes : Suspended α → List Nat
  | .waiting due _ => [due]
  | .hanging => []
  | .calling f stage inner => stage.wakes ++ f.context.deadline.toList ++ inner.wakes

/-- The instants at which a call may have to be polled again. -/
def InFlight.wakes (c : InFlight α) : List Nat := (Suspended.calling c.frame c.stage c.inner).wakes

/-- A bound on the steps that suspended work still takes. -/
def Suspended.size : Suspended α → Nat
  | .waiting _ rest => rest.size + 1
  | .hanging => 1
  | .calling _ stage inner => inner.size + 2 + match stage with
    | .primary _ (some w) => w.size + 2
    | _ => 0

end CallGuard
