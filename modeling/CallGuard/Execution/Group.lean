import CallGuard.Execution.Call

/-!
# Groups of tasks on a virtual clock

Tasks that are started together run on a clock that moves only when nothing can go on. At every instant the tasks are
polled in their order, each going as far as it can, and again as long as a poll raised a signal; then the clock moves
to the earliest instant at which a task may go on. A task that waits for nothing that ever comes stays unfinished.
-/

namespace CallGuard

variable {α : Type}

/-- A guarded call to be made from the background. -/
structure Call (α : Type) where
  circuit : Circuit
  context : Context.Derivation
  work : Work α
  rescue : Option (Work α)

/-- What a task does. -/
inductive Action (α : Type)
  | call (c : Call α)
  | cancel (signal : String)
  | observe (signal : String)
  | probe (h : Handle)

/-- A task and its delay after the beginning of the group. -/
structure Item (α : Type) where
  start : Nat
  action : Action α

/-- What can be told of a call when it has ended. -/
structure CallReport (α : Type) where
  completion : Completion α
  context : Context
  cancelled : Option Bool
  ended : Nat

/-- What a task answers. -/
inductive Reply (α : Type)
  | call (r : CallReport α)
  | signal (s : Signal)
  | reading (c : Option RegisteredCircuit) (instant : Int)

/-- A task of a running group. -/
inductive Task (α : Type)
  | planned (start : Nat) (action : Action α)
  | running (call : InFlight α)
  | ended (reply : Reply α)

/-- Begin a guarded call from the background. -/
def Call.start (c : Call α) (context : Context) : Poll (InFlight α) (Completion α) :=
  Frame.startCall ⟨c.circuit, context⟩ (c.work.start context) (c.rescue.map fun w => ⟨w, w.start context⟩)

/-- The task of a call, from where a poll leaves it. -/
def Task.ofProgress (context : Context) (p : Progress (InFlight α) (Completion α) × Engine) : Task α × Engine :=
  match p with
  | (.suspended f, e) => (.running f, e)
  | (.finished c, e) => (.ended (.call ⟨c, context, e.cancelled? context, e.now⟩), e)

/-- Begin what a task does. -/
def Action.start (a : Action α) (e : Engine) : Task α × Engine :=
  match a with
  | .call c =>
    let context := Context.background.derive e.now c.context
    Task.ofProgress context (c.start context e)
  | .cancel s =>
    let e := e.cancel s
    (.ended (.signal (e.signals.get s)), e)
  | .observe s => (.ended (.signal (e.signals.get s)), e)
  | .probe h => (.ended (.reading (e.registry.circuit? h) e.instant), e)

namespace Task

/-- Poll one task. -/
def poll (t : Task α) (e : Engine) : Task α × Engine :=
  match t with
  | .planned start a => if start ≤ e.now then a.start e else (t, e)
  | .running f => ofProgress f.frame.context (f.poll e)
  | .ended _ => (t, e)

/-- Poll tasks in their order. -/
def pollAll : List (Task α) → Engine → List (Task α) × Engine
  | [], e => ([], e)
  | t :: ts, e =>
    let (t, e) := t.poll e
    let (ts, e) := pollAll ts e
    (t :: ts, e)

/-- Poll tasks again as long as a signal is raised, `fuel` times at most. -/
def settleAll : Nat → List (Task α) → Engine → List (Task α) × Engine
  | 0, ts, e => (ts, e)
  | fuel + 1, ts, e =>
    let raised := e.signals.raisedCount
    let (ts, e) := pollAll ts e
    if e.signals.raisedCount = raised then (ts, e) else settleAll fuel ts e

/-- The instants at which a task may have to be polled again. -/
def wakes : Task α → List Nat
  | .planned start _ => [start]
  | .running f => f.wakes
  | .ended _ => []

/-- The earliest later instant at which one of the tasks may have to be polled again. -/
def nextWake (ts : List (Task α)) (now : Nat) : Option Nat := ((ts.flatMap wakes).filter (now < ·)).min?

/-- A bound on the steps that a task still takes. -/
def size : Task α → Nat
  | .planned _ (.call c) => c.work.size + (c.rescue.map Work.size).getD 0 + 5
  | .planned _ _ => 2
  | .running f => (Suspended.calling f.frame f.stage f.inner).size
  | .ended _ => 0

/-- A bound on the steps that tasks still take. -/
def sizeAll : List (Task α) → Nat
  | [] => 0
  | t :: ts => t.size + sizeAll ts

/-- Run tasks until none can go on, over `fuel` instants at most. -/
def runAll : Nat → List (Task α) → Engine → List (Task α) × Engine
  | 0, ts, e => (ts, e)
  | fuel + 1, ts, e =>
    let (ts, e) := settleAll (sizeAll ts + 1) ts e
    match nextWake ts e.now with
    | some t => runAll fuel ts { e with now := t }
    | none => (ts, e)

/-- The answer of a task that has ended. -/
def reply? : Task α → Option (Reply α)
  | .ended r => some r
  | _ => none

end Task

/-- Run tasks that start together; a task that never ends has no answer. -/
def Engine.run (e : Engine) (items : List (Item α)) : List (Option (Reply α)) × Engine :=
  let tasks := items.map fun i => Task.planned (e.now + i.start) i.action
  let (tasks, e) := Task.runAll (Task.sizeAll tasks + 1) tasks e
  (tasks.map Task.reply?, e)

end CallGuard
