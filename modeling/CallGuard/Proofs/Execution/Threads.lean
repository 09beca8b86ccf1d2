import CallGuard.Proofs.Execution.Polls

/-!
# Guarded calls one section at a time

A poll of a guarded call does many things in a row: it asks for permits, begins the work inside, gives permits back. A
`Thread` goes through the same in sections, in each of which at most one permit is taken or given back, so that the
sections of several threads may come in any order. It has a stack of open calls, the innermost first, and says what is
next (`Control`): the call to make, the work to begin, the way in which an open call ends.

A call holds a permit as long as it has a `Holder`: while it is open, and while it is suspended inside what the thread
has at hand (`Suspended.holders`).

**Main statements.** There is a list of ways in which a section can go, each with what the thread and the engine are
after it (`Thread.Section`), and every section goes in one of them (`Thread.section_step`). A thread that is left alone
does what a poll does: it begins a call as `Call.start` does (`Call.turns_start`), and goes on with a suspended one as
`InFlight.poll` does (`InFlight.turns_poll`).
-/

namespace CallGuard

variable {α : Type}

/-! ## Calls that hold a permit -/

/-- A call that holds a permit for the part in which it is, without the work inside it. -/
structure Holder (α : Type) where
  frame : Frame
  stage : Stage α

/-- The calls in suspended work, from the outermost to the innermost. -/
def Suspended.holders : Suspended α → List (Holder α)
  | .waiting .. | .hanging => []
  | .calling f stage inner => ⟨f, stage⟩ :: inner.holders

/-- The innermost call in suspended work, and the work without it. -/
def Suspended.shed? : Suspended α → Option (Holder α × Suspended α)
  | .waiting .. | .hanging => none
  | .calling f stage inner =>
    match inner.shed? with
    | some (h, rest) => some (h, .calling f stage rest)
    | none => some (⟨f, stage⟩, inner)

/-- The time of the circuit has run out, if the call is in the part that it limits. -/
def Stage.isOver (now : Nat) : Stage α → Bool
  | .primary due _ => due ≤ now
  | .fallback _ => false

/-- The result of work that ended by itself. -/
def Ending.own? : Ending α → Option (WorkResult α)
  | .own r => some r
  | .timedOut | .interrupted => none

/-! ## Threads -/

/-- What a thread does next. -/
inductive Control (α : Type)
  /-- Make a guarded call. -/
  | call (f : Frame) (work : Work α) (rescue : Option (Work α))
  /-- Begin work inside a context. -/
  | start (work : Work α) (context : Context)
  /-- Go on with suspended work inside a context. -/
  | poll (s : Suspended α) (context : Context)
  /-- Tell the innermost open call where its work is. -/
  | settle (p : Progress (Suspended α) (WorkResult α))
  /-- Give up suspended work, and end the part of the innermost open call. -/
  | abandon (s : Suspended α) (x : Ending α)
  /-- End the part of the innermost open call. -/
  | close (x : Ending α)
  /-- Go on after a primary part, which has ended or was refused. -/
  | decided (f : Frame) (result : CallResult α) (rescue : Option (Work α))
  /-- Ask for a permit for the fallback of a call. -/
  | rescue (f : Frame) (cause : CallError) (work : Work α)
  /-- Tell whoever made the call where it is. -/
  | answer (q : Progress (InFlight α) (Completion α))

/-- A row of sections: what is next, and the open calls, the innermost first. -/
structure Thread (α : Type) where
  control : Control α
  opened : List (Holder α) := []

/-- The suspended calls that a thread has at hand. -/
def Control.resting : Control α → List (Holder α)
  | .poll s _ | .settle (.suspended s) | .abandon s _ => s.holders
  | .answer (.suspended c) => ⟨c.frame, c.stage⟩ :: c.inner.holders
  | _ => []

namespace Thread

/-- The calls of a thread that hold a permit, each once. -/
def holders (t : Thread α) : List (Holder α) := t.control.resting ++ t.opened

/-- A thread that makes a guarded call. -/
def ofCall (f : Frame) (work : Work α) (rescue : Option (Work α)) : Thread α := ⟨.call f work rescue, []⟩

/-- A thread between two polls of a call, or after the last one. -/
def ofProgress (q : Progress (InFlight α) (Completion α)) : Thread α := ⟨.answer q, []⟩

/-- The next section. A thread whose call is suspended begins to poll it again. -/
def step : Thread α → Engine → Thread α × Engine
  | ⟨.call f work rescue, hs⟩, e =>
    if f.circuit.limits.forceOpen then
      (⟨.decided f (.error .shortCircuited) rescue, hs⟩, e.report f.circuit .shortCircuited)
    else
      match e.acquire? f.circuit .primary with
      | none => (⟨.decided f (.error .concurrencyRejected) rescue, hs⟩, e.report f.circuit .concurrencyRejected)
      | some e' => (⟨.start work f.context, ⟨f, .primary (e'.now + f.circuit.limits.timeout) rescue⟩ :: hs⟩, e')
  | ⟨.start (.done r) _, hs⟩, e => (⟨.settle (.finished r), hs⟩, e)
  | ⟨.start .hang _, hs⟩, e => (⟨.settle (.suspended .hanging), hs⟩, e)
  | ⟨.start (.raise signal rest) x, hs⟩, e => (⟨.start rest x, hs⟩, e.cancel signal)
  | ⟨.start (.wait ms rest) x, hs⟩, e =>
    if ms = 0 then (⟨.start rest x, hs⟩, e) else (⟨.settle (.suspended (.waiting (e.now + ms) rest)), hs⟩, e)
  | ⟨.start (.call c d work) x, hs⟩, e => (⟨.call ⟨c, x.derive e.now d⟩ work none, hs⟩, e)
  | ⟨.start (.callOr c d work rescue) x, hs⟩, e => (⟨.call ⟨c, x.derive e.now d⟩ work (some rescue), hs⟩, e)
  | ⟨.poll (.waiting due rest) x, hs⟩, e =>
    if due ≤ e.now then (⟨.start rest x, hs⟩, e) else (⟨.settle (.suspended (.waiting due rest)), hs⟩, e)
  | ⟨.poll .hanging _, hs⟩, e => (⟨.settle (.suspended .hanging), hs⟩, e)
  | ⟨.poll (.calling f stage inner) _, hs⟩, e => (⟨.poll inner f.context, ⟨f, stage⟩ :: hs⟩, e.leave f.context)
  | ⟨.settle (.finished r), hs⟩, e => (⟨.close (.own r), hs⟩, e)
  | ⟨.settle (.suspended s), ⟨f, stage⟩ :: hs⟩, e =>
    if stage.isOver e.now then (⟨.abandon s .timedOut, ⟨f, stage⟩ :: hs⟩, e)
    else if e.interrupts f.context then (⟨.abandon s .interrupted, ⟨f, stage⟩ :: hs⟩, e)
    else (⟨.answer (.suspended ⟨f, stage, s⟩), hs⟩, e.enter f.context)
  | ⟨.abandon s x, hs⟩, e =>
    match s.shed? with
    | some (h, rest) => (⟨.abandon rest x, hs⟩, (e.leave h.frame.context).release h.frame.circuit h.stage.part)
    | none => (⟨.close x, hs⟩, e)
  | ⟨.close x, ⟨f, .primary _ rescue⟩ :: hs⟩, e =>
    (⟨.decided f (x.result f.circuit.limits) rescue, hs⟩, f.closePrimary x.outcome e)
  | ⟨.close x, ⟨f, .fallback cause⟩ :: hs⟩, e =>
    (⟨.answer (.finished ⟨.error cause, some cause, fallbackAnswer cause x.own?⟩), hs⟩,
      f.closeFallback (fallbackOutcome x.own?) e)
  | ⟨.decided f (.error cause) (some work), hs⟩, e =>
    if cause.allowsFallback then (⟨.rescue f cause work, hs⟩, e)
    else (⟨.answer (.finished ⟨.error cause, none, .error cause⟩), hs⟩, e)
  | ⟨.decided _ result _, hs⟩, e => (⟨.answer (.finished ⟨result, none, result⟩), hs⟩, e)
  | ⟨.rescue f cause work, hs⟩, e =>
    match e.acquire? f.circuit .fallback with
    | none => (⟨.answer (.finished ⟨.error cause, none, .error (.fallbackRejected cause)⟩), hs⟩,
        e.reportFallback f.circuit .concurrencyRejected)
    | some e' => (⟨.start work f.context, ⟨f, .fallback cause⟩ :: hs⟩, e')
  | ⟨.answer q, h :: hs⟩, e => (⟨.settle q.ofCall, h :: hs⟩, e)
  | ⟨.answer (.suspended c), []⟩, e =>
    (⟨.poll c.inner c.frame.context, [⟨c.frame, c.stage⟩]⟩, e.leave c.frame.context)
  | t@⟨.answer (.finished _), []⟩, e | t@⟨.close _, []⟩, e | t@⟨.settle (.suspended _), []⟩, e => (t, e)

/-- Sections of a thread in a row, without any of another. -/
def Turns : Thread α × Engine → Thread α × Engine → Prop :=
  Relation.ReflTransGen fun s s' => s.1.step s.2 = s'

namespace Turns

variable {s s' s'' : Thread α × Engine}

theorem trans (h : Turns s s') (h' : Turns s' s'') : Turns s s'' := Relation.ReflTransGen.trans h h'

/-- A section, then others. -/
theorem step (h : s.1.step s.2 = s') (h' : Turns s' s'') : Turns s s'' := Relation.ReflTransGen.head h h'

theorem single (h : s.1.step s.2 = s') : Turns s s' := Relation.ReflTransGen.single h

end Turns
end Thread

open Thread (Turns)

/-! ## Giving up -/

namespace Suspended

variable {s rest : Suspended α} {h : Holder α}

/-- The innermost call is the last one that holds a permit. -/
theorem holders_of_shed? (hshed : s.shed? = some (h, rest)) : s.holders = rest.holders ++ [h] := by
  induction s generalizing rest with
  | waiting | hanging => cases hshed
  | calling f stage inner ih =>
    cases hin : inner.shed? with
    | none =>
      simp only [shed?, hin, Option.some.injEq, Prod.mk.injEq] at hshed
      obtain ⟨rfl, rfl⟩ := hshed
      rw [holders]
      cases inner with
      | waiting | hanging => rfl
      | calling => rw [shed?] at hin; split at hin <;> cases hin
    | some found =>
      simp only [shed?, hin, Option.some.injEq, Prod.mk.injEq] at hshed
      obtain ⟨rfl, rfl⟩ := hshed
      rw [holders, ih hin, holders, List.cons_append]

theorem holders_of_shed?_none (hshed : s.shed? = none) : s.holders = [] := by
  cases s with
  | waiting | hanging => rfl
  | calling => rw [shed?] at hshed; split at hshed <;> cases hshed

theorem abandon_of_holders (hs : s.holders = []) (e : Engine) : s.abandon e = e := by
  cases s with
  | waiting | hanging => rfl
  | calling => cases hs

/-- What is given up as a whole is given up from the innermost call on. -/
theorem abandon_of_shed? (hshed : s.shed? = some (h, rest)) (e : Engine) :
    s.abandon e = rest.abandon ((e.leave h.frame.context).release h.frame.circuit h.stage.part) := by
  induction s generalizing rest with
  | waiting | hanging => cases hshed
  | calling f stage inner ih =>
    cases hin : inner.shed? with
    | none =>
      simp only [shed?, hin, Option.some.injEq, Prod.mk.injEq] at hshed
      obtain ⟨rfl, rfl⟩ := hshed
      have hnone := holders_of_shed?_none hin
      rw [abandon, abandon_of_holders hnone, abandon_of_holders hnone]
    | some found =>
      simp only [shed?, hin, Option.some.injEq, Prod.mk.injEq] at hshed
      obtain ⟨rfl, rfl⟩ := hshed
      rw [abandon, ih hin, abandon]

end Suspended

/-- Work is begun in sections as it is begun by `Work.start`. -/
def Work.InSections (w : Work α) : Prop := ∀ x h hs e,
  Turns (⟨.start w x, h :: hs⟩, e) (⟨.settle (w.start x e).1, h :: hs⟩, (w.start x e).2)

namespace Thread

/-! ## The sections -/

section Sections

variable {f : Frame} {stage : Stage α} {s : Suspended α} {hs : List (Holder α)} {e e' : Engine} {work : Work α}
  {rescue : Option (Work α)} {cause : CallError} {x : Ending α}

theorem step_call_of_open (h : f.circuit.limits.forceOpen = true) : step ⟨.call f work rescue, hs⟩ e =
    (⟨.decided f (.error .shortCircuited) rescue, hs⟩, e.report f.circuit .shortCircuited) := if_pos h

theorem step_call_of_not_open (h : f.circuit.limits.forceOpen = false) : step ⟨.call f work rescue, hs⟩ e =
    match e.acquire? f.circuit .primary with
    | none => (⟨.decided f (.error .concurrencyRejected) rescue, hs⟩, e.report f.circuit .concurrencyRejected)
    | some e' => (⟨.start work f.context, ⟨f, .primary (e'.now + f.circuit.limits.timeout) rescue⟩ :: hs⟩, e') :=
  if_neg (by simp [h])

theorem step_call_of_full (ho : f.circuit.limits.forceOpen = false) (h : e.acquire? f.circuit .primary = none) :
    step ⟨.call f work rescue, hs⟩ e =
      (⟨.decided f (.error .concurrencyRejected) rescue, hs⟩, e.report f.circuit .concurrencyRejected) := by
  rw [step_call_of_not_open ho, h]

theorem step_call_of_acquired (ho : f.circuit.limits.forceOpen = false)
    (h : e.acquire? f.circuit .primary = some e') : step ⟨.call f work rescue, hs⟩ e =
      (⟨.start work f.context, ⟨f, .primary (e'.now + f.circuit.limits.timeout) rescue⟩ :: hs⟩, e') := by
  rw [step_call_of_not_open ho, h]

theorem step_wait_of_zero {ms : Nat} {y : Context} (h : ms = 0) :
    step ⟨.start (.wait ms work) y, hs⟩ e = (⟨.start work y, hs⟩, e) := if_pos h

theorem step_wait_of_ne_zero {ms : Nat} {y : Context} (h : ms ≠ 0) : step ⟨.start (.wait ms work) y, hs⟩ e =
    (⟨.settle (.suspended (.waiting (e.now + ms) work)), hs⟩, e) := if_neg h

theorem step_waiting_of_le {due : Nat} {y : Context} (h : due ≤ e.now) :
    step ⟨.poll (.waiting due work) y, hs⟩ e = (⟨.start work y, hs⟩, e) := if_pos h

theorem step_waiting_of_lt {due : Nat} {y : Context} (h : e.now < due) : step ⟨.poll (.waiting due work) y, hs⟩ e =
    (⟨.settle (.suspended (.waiting due work)), hs⟩, e) := if_neg (Nat.not_le_of_lt h)

theorem step_rescue : step ⟨.rescue f cause work, hs⟩ e =
    match e.acquire? f.circuit .fallback with
    | none => (⟨.answer (.finished ⟨.error cause, none, .error (.fallbackRejected cause)⟩), hs⟩,
        e.reportFallback f.circuit .concurrencyRejected)
    | some e' => (⟨.start work f.context, ⟨f, .fallback cause⟩ :: hs⟩, e') := rfl

theorem step_rescue_of_full (h : e.acquire? f.circuit .fallback = none) : step ⟨.rescue f cause work, hs⟩ e =
    (⟨.answer (.finished ⟨.error cause, none, .error (.fallbackRejected cause)⟩), hs⟩,
      e.reportFallback f.circuit .concurrencyRejected) := by
  rw [step_rescue, h]

theorem step_rescue_of_acquired (h : e.acquire? f.circuit .fallback = some e') :
    step ⟨.rescue f cause work, hs⟩ e = (⟨.start work f.context, ⟨f, .fallback cause⟩ :: hs⟩, e') := by
  rw [step_rescue, h]

theorem step_decided_of_allowed (h : cause.allowsFallback = true) :
    step ⟨.decided f (.error cause) (some work), hs⟩ e = (⟨.rescue f cause work, hs⟩, e) := if_pos h

/-- Without a fallback, or after a value or an error that allows none, the primary result is the answer. -/
theorem step_decided_of_not_allowed {result : CallResult α}
    (h : ∀ cause w, result = .error cause → rescue = some w → cause.allowsFallback = false) :
    step ⟨.decided f result rescue, hs⟩ e = (⟨.answer (.finished ⟨result, none, result⟩), hs⟩, e) := by
  rcases result with cause | v
  · rcases rescue with _ | w
    · rfl
    · exact if_neg (by simp [h cause w rfl rfl])
  · rfl

theorem step_settle : step ⟨.settle (.suspended s), ⟨f, stage⟩ :: hs⟩ e =
    if stage.isOver e.now then (⟨.abandon s .timedOut, ⟨f, stage⟩ :: hs⟩, e)
    else if e.interrupts f.context then (⟨.abandon s .interrupted, ⟨f, stage⟩ :: hs⟩, e)
    else (⟨.answer (.suspended ⟨f, stage, s⟩), hs⟩, e.enter f.context) := rfl

theorem step_settle_timedOut (h : stage.isOver e.now = true) :
    step ⟨.settle (.suspended s), ⟨f, stage⟩ :: hs⟩ e = (⟨.abandon s .timedOut, ⟨f, stage⟩ :: hs⟩, e) := if_pos h

theorem step_settle_interrupted (hd : stage.isOver e.now = false) (h : e.interrupts f.context = true) :
    step ⟨.settle (.suspended s), ⟨f, stage⟩ :: hs⟩ e = (⟨.abandon s .interrupted, ⟨f, stage⟩ :: hs⟩, e) := by
  rw [step_settle, if_neg (by simp [hd]), if_pos h]

theorem step_settle_suspended (hd : stage.isOver e.now = false) (h : e.interrupts f.context = false) :
    step ⟨.settle (.suspended s), ⟨f, stage⟩ :: hs⟩ e =
      (⟨.answer (.suspended ⟨f, stage, s⟩), hs⟩, e.enter f.context) := by
  rw [step_settle, if_neg (by simp [hd]), if_neg (by simp [h])]

theorem step_abandon : step ⟨.abandon s x, hs⟩ e =
    match s.shed? with
    | some (h, rest) => (⟨.abandon rest x, hs⟩, (e.leave h.frame.context).release h.frame.circuit h.stage.part)
    | none => (⟨.close x, hs⟩, e) := rfl

theorem step_abandon_of_shed? {h : Holder α} {rest : Suspended α} (hshed : s.shed? = some (h, rest)) :
    step ⟨.abandon s x, hs⟩ e =
      (⟨.abandon rest x, hs⟩, (e.leave h.frame.context).release h.frame.circuit h.stage.part) := by
  rw [step_abandon, hshed]

theorem step_abandon_of_none (hshed : s.shed? = none) : step ⟨.abandon s x, hs⟩ e = (⟨.close x, hs⟩, e) := by
  rw [step_abandon, hshed]

end Sections

/-- The ways in which a section goes. -/
inductive Section : Thread α → Engine → Thread α → Engine → Prop
  | callOpen (f : Frame) (work : Work α) (rescue : Option (Work α)) (hs : List (Holder α)) (e : Engine)
      (hopen : f.circuit.limits.forceOpen = true) : Section ⟨.call f work rescue, hs⟩ e
        ⟨.decided f (.error .shortCircuited) rescue, hs⟩ (e.report f.circuit .shortCircuited)
  | callFull (f : Frame) (work : Work α) (rescue : Option (Work α)) (hs : List (Holder α)) (e : Engine)
      (hopen : f.circuit.limits.forceOpen = false) (hfull : e.acquire? f.circuit .primary = none) :
      Section ⟨.call f work rescue, hs⟩ e ⟨.decided f (.error .concurrencyRejected) rescue, hs⟩
        (e.report f.circuit .concurrencyRejected)
  | callTaken (f : Frame) (work : Work α) (rescue : Option (Work α)) (hs : List (Holder α)) (e e' : Engine)
      (hopen : f.circuit.limits.forceOpen = false) (htaken : e.acquire? f.circuit .primary = some e') :
      Section ⟨.call f work rescue, hs⟩ e
        ⟨.start work f.context, ⟨f, .primary (e'.now + f.circuit.limits.timeout) rescue⟩ :: hs⟩ e'
  | done (r : WorkResult α) (x : Context) (hs : List (Holder α)) (e : Engine) :
      Section ⟨.start (.done r) x, hs⟩ e ⟨.settle (.finished r), hs⟩ e
  | hang (x : Context) (hs : List (Holder α)) (e : Engine) :
      Section ⟨.start .hang x, hs⟩ e ⟨.settle (.suspended .hanging), hs⟩ e
  | raise (signal : String) (rest : Work α) (x : Context) (hs : List (Holder α)) (e : Engine) :
      Section ⟨.start (.raise signal rest) x, hs⟩ e ⟨.start rest x, hs⟩ (e.cancel signal)
  | skip (ms : Nat) (rest : Work α) (x : Context) (hs : List (Holder α)) (e : Engine) (hms : ms = 0) :
      Section ⟨.start (.wait ms rest) x, hs⟩ e ⟨.start rest x, hs⟩ e
  | wait (ms : Nat) (rest : Work α) (x : Context) (hs : List (Holder α)) (e : Engine) (hms : ms ≠ 0) :
      Section ⟨.start (.wait ms rest) x, hs⟩ e ⟨.settle (.suspended (.waiting (e.now + ms) rest)), hs⟩ e
  | nest (c : Circuit) (d : Context.Derivation) (work : Work α) (x : Context) (hs : List (Holder α)) (e : Engine) :
      Section ⟨.start (.call c d work) x, hs⟩ e ⟨.call ⟨c, x.derive e.now d⟩ work none, hs⟩ e
  | nestOr (c : Circuit) (d : Context.Derivation) (work rescue : Work α) (x : Context) (hs : List (Holder α))
      (e : Engine) : Section ⟨.start (.callOr c d work rescue) x, hs⟩ e
        ⟨.call ⟨c, x.derive e.now d⟩ work (some rescue), hs⟩ e
  | due (due : Nat) (rest : Work α) (x : Context) (hs : List (Holder α)) (e : Engine) (hdue : due ≤ e.now) :
      Section ⟨.poll (.waiting due rest) x, hs⟩ e ⟨.start rest x, hs⟩ e
  | early (due : Nat) (rest : Work α) (x : Context) (hs : List (Holder α)) (e : Engine) (hdue : e.now < due) :
      Section ⟨.poll (.waiting due rest) x, hs⟩ e ⟨.settle (.suspended (.waiting due rest)), hs⟩ e
  | hanging (x : Context) (hs : List (Holder α)) (e : Engine) :
      Section ⟨.poll .hanging x, hs⟩ e ⟨.settle (.suspended .hanging), hs⟩ e
  | wake (f : Frame) (stage : Stage α) (inner : Suspended α) (x : Context) (hs : List (Holder α)) (e : Engine) :
      Section ⟨.poll (.calling f stage inner) x, hs⟩ e ⟨.poll inner f.context, ⟨f, stage⟩ :: hs⟩ (e.leave f.context)
  | finished (r : WorkResult α) (hs : List (Holder α)) (e : Engine) :
      Section ⟨.settle (.finished r), hs⟩ e ⟨.close (.own r), hs⟩ e
  | timeOut (s : Suspended α) (f : Frame) (stage : Stage α) (hs : List (Holder α)) (e : Engine)
      (hover : stage.isOver e.now = true) :
      Section ⟨.settle (.suspended s), ⟨f, stage⟩ :: hs⟩ e ⟨.abandon s .timedOut, ⟨f, stage⟩ :: hs⟩ e
  | interrupt (s : Suspended α) (f : Frame) (stage : Stage α) (hs : List (Holder α)) (e : Engine)
      (hover : stage.isOver e.now = false) (hi : e.interrupts f.context = true) :
      Section ⟨.settle (.suspended s), ⟨f, stage⟩ :: hs⟩ e ⟨.abandon s .interrupted, ⟨f, stage⟩ :: hs⟩ e
  | rest (s : Suspended α) (f : Frame) (stage : Stage α) (hs : List (Holder α)) (e : Engine)
      (hover : stage.isOver e.now = false) (hi : e.interrupts f.context = false) :
      Section ⟨.settle (.suspended s), ⟨f, stage⟩ :: hs⟩ e ⟨.answer (.suspended ⟨f, stage, s⟩), hs⟩
        (e.enter f.context)
  | shed (s rest : Suspended α) (h : Holder α) (x : Ending α) (hs : List (Holder α)) (e : Engine)
      (hshed : s.shed? = some (h, rest)) : Section ⟨.abandon s x, hs⟩ e ⟨.abandon rest x, hs⟩
        ((e.leave h.frame.context).release h.frame.circuit h.stage.part)
  | gone (s : Suspended α) (x : Ending α) (hs : List (Holder α)) (e : Engine) (hshed : s.shed? = none) :
      Section ⟨.abandon s x, hs⟩ e ⟨.close x, hs⟩ e
  | closePrimary (f : Frame) (due : Nat) (rescue : Option (Work α)) (x : Ending α) (hs : List (Holder α))
      (e : Engine) : Section ⟨.close x, ⟨f, .primary due rescue⟩ :: hs⟩ e
        ⟨.decided f (x.result f.circuit.limits) rescue, hs⟩ (f.closePrimary x.outcome e)
  | closeFallback (f : Frame) (cause : CallError) (x : Ending α) (hs : List (Holder α)) (e : Engine) :
      Section ⟨.close x, ⟨f, .fallback cause⟩ :: hs⟩ e
        ⟨.answer (.finished ⟨.error cause, some cause, fallbackAnswer cause x.own?⟩), hs⟩
        (f.closeFallback (fallbackOutcome x.own?) e)
  | fallBack (f : Frame) (cause : CallError) (work : Work α) (hs : List (Holder α)) (e : Engine)
      (hallows : cause.allowsFallback = true) :
      Section ⟨.decided f (.error cause) (some work), hs⟩ e ⟨.rescue f cause work, hs⟩ e
  | keep (f : Frame) (result : CallResult α) (rescue : Option (Work α)) (hs : List (Holder α)) (e : Engine)
      (hnot : ∀ cause work, result = .error cause → rescue = some work → cause.allowsFallback = false) :
      Section ⟨.decided f result rescue, hs⟩ e ⟨.answer (.finished ⟨result, none, result⟩), hs⟩ e
  | rescueFull (f : Frame) (cause : CallError) (work : Work α) (hs : List (Holder α)) (e : Engine)
      (hfull : e.acquire? f.circuit .fallback = none) : Section ⟨.rescue f cause work, hs⟩ e
        ⟨.answer (.finished ⟨.error cause, none, .error (.fallbackRejected cause)⟩), hs⟩
        (e.reportFallback f.circuit .concurrencyRejected)
  | rescueTaken (f : Frame) (cause : CallError) (work : Work α) (hs : List (Holder α)) (e e' : Engine)
      (htaken : e.acquire? f.circuit .fallback = some e') : Section ⟨.rescue f cause work, hs⟩ e
        ⟨.start work f.context, ⟨f, .fallback cause⟩ :: hs⟩ e'
  | pass (q : Progress (InFlight α) (Completion α)) (h : Holder α) (hs : List (Holder α)) (e : Engine) :
      Section ⟨.answer q, h :: hs⟩ e ⟨.settle q.ofCall, h :: hs⟩ e
  | again (c : InFlight α) (e : Engine) : Section ⟨.answer (.suspended c), []⟩ e
      ⟨.poll c.inner c.frame.context, [⟨c.frame, c.stage⟩]⟩ (e.leave c.frame.context)
  | answered (k : Completion α) (e : Engine) : Section ⟨.answer (.finished k), []⟩ e ⟨.answer (.finished k), []⟩ e
  | closed (x : Ending α) (e : Engine) : Section ⟨.close x, []⟩ e ⟨.close x, []⟩ e
  | settled (s : Suspended α) (e : Engine) :
      Section ⟨.settle (.suspended s), []⟩ e ⟨.settle (.suspended s), []⟩ e

/-- Every section goes in one of the ways. -/
theorem section_step (t : Thread α) (e : Engine) : Section t e (t.step e).1 (t.step e).2 := by
  obtain ⟨control, hs⟩ := t
  cases control with
  | call f work rescue =>
    cases hopen : f.circuit.limits.forceOpen with
    | true => rw [step_call_of_open hopen]; exact .callOpen f work rescue hs e hopen
    | false =>
      cases ha : e.acquire? f.circuit .primary with
      | none => rw [step_call_of_full hopen ha]; exact .callFull f work rescue hs e hopen ha
      | some e' => rw [step_call_of_acquired hopen ha]; exact .callTaken f work rescue hs e e' hopen ha
  | start work x =>
    cases work with
    | done r => exact .done r x hs e
    | hang => exact .hang x hs e
    | raise signal rest => exact .raise signal rest x hs e
    | wait ms rest =>
      by_cases hms : ms = 0
      · rw [step_wait_of_zero hms]; exact .skip ms rest x hs e hms
      · rw [step_wait_of_ne_zero hms]; exact .wait ms rest x hs e hms
    | call c d work => exact .nest c d work x hs e
    | callOr c d work rescue => exact .nestOr c d work rescue x hs e
  | poll s x =>
    cases s with
    | waiting due rest =>
      rcases Nat.lt_or_ge e.now due with hdue | hdue
      · rw [step_waiting_of_lt hdue]; exact .early due rest x hs e hdue
      · rw [step_waiting_of_le hdue]; exact .due due rest x hs e hdue
    | hanging => exact .hanging x hs e
    | calling f stage inner => exact .wake f stage inner x hs e
  | settle p =>
    cases p with
    | finished r => exact .finished r hs e
    | suspended s =>
      cases hs with
      | nil => exact .settled s e
      | cons h hs =>
        obtain ⟨f, stage⟩ := h
        cases hd : stage.isOver e.now with
        | true => rw [step_settle_timedOut hd]; exact .timeOut s f stage hs e hd
        | false =>
          cases hi : e.interrupts f.context with
          | true => rw [step_settle_interrupted hd hi]; exact .interrupt s f stage hs e hd hi
          | false => rw [step_settle_suspended hd hi]; exact .rest s f stage hs e hd hi
  | abandon s x =>
    cases hshed : s.shed? with
    | none => rw [step_abandon_of_none hshed]; exact .gone s x hs e hshed
    | some found => rw [step_abandon_of_shed? hshed]; exact .shed s found.2 found.1 x hs e hshed
  | close x =>
    cases hs with
    | nil => exact .closed x e
    | cons h hs =>
      obtain ⟨f, ⟨due, rescue⟩ | cause⟩ := h
      · exact .closePrimary f due rescue x hs e
      · exact .closeFallback f cause x hs e
  | decided f result rescue =>
    by_cases hallowed : ∃ cause work, result = .error cause ∧ rescue = some work ∧ cause.allowsFallback = true
    · obtain ⟨cause, work, rfl, rfl, hallows⟩ := hallowed
      rw [step_decided_of_allowed hallows]
      exact .fallBack f cause work hs e hallows
    · have hnot : ∀ cause work, result = .error cause → rescue = some work → cause.allowsFallback = false :=
        fun cause work h h' => Bool.eq_false_iff.mpr fun hallows => hallowed ⟨cause, work, h, h', hallows⟩
      rw [step_decided_of_not_allowed hnot]
      exact .keep f result rescue hs e hnot
  | rescue f cause work =>
    cases ha : e.acquire? f.circuit .fallback with
    | none => rw [step_rescue_of_full ha]; exact .rescueFull f cause work hs e ha
    | some e' => rw [step_rescue_of_acquired ha]; exact .rescueTaken f cause work hs e e' ha
  | answer q =>
    cases hs with
    | cons h hs => exact .pass q h hs e
    | nil =>
      cases q with
      | suspended c => exact .again c e
      | finished k => exact .answered k e

/-! ## The stages of a call -/

variable (f : Frame) (s : Suspended α) (x : Ending α) (hs : List (Holder α)) (e : Engine) {rescue : Option (Work α)}

/-- By induction on the number of calls inside that hold a permit: the innermost goes first. -/
theorem turns_abandon : Turns (⟨.abandon s x, hs⟩, e) (⟨.close x, hs⟩, s.abandon e) := by
  induction hn : s.holders.length generalizing s e with
  | zero =>
    have hnil := List.length_eq_zero_iff.mp hn
    rw [Suspended.abandon_of_holders hnil]
    refine .single (step_abandon_of_none ?_)
    cases hshed : s.shed? with
    | none => rfl
    | some found => rw [Suspended.holders_of_shed? hshed] at hnil; simp at hnil
  | succ n ih =>
    cases hshed : s.shed? with
    | none => rw [Suspended.holders_of_shed?_none hshed] at hn; cases hn
    | some found =>
      obtain ⟨h, rest⟩ := found
      rw [Suspended.holders_of_shed? hshed, List.length_append] at hn
      rw [Suspended.abandon_of_shed? hshed]
      exact .step (step_abandon_of_shed? hshed) (ih rest _ (Nat.succ.inj hn))

theorem turns_settle_fallback (cause : CallError) (p : Progress (Suspended α) (WorkResult α)) :
    Turns (⟨.settle p, ⟨f, .fallback cause⟩ :: hs⟩, e)
      (⟨.answer (f.settleFallback cause p e).1, hs⟩, (f.settleFallback cause p e).2) := by
  cases p with
  | finished r => exact .step rfl (.single rfl)
  | suspended s =>
    cases hi : e.interrupts f.context with
    | true =>
      rw [Frame.settleFallback_interrupted hi]
      exact (Turns.step (step_settle_interrupted rfl hi) (turns_abandon s _ _ e)).trans (.single rfl)
    | false =>
      rw [Frame.settleFallback_suspended hi]
      exact .single (step_settle_suspended rfl hi)

theorem turns_decided (result : CallResult α) (hr : ∀ w ∈ rescue, w.InSections) :
    Turns (⟨.decided f result rescue, hs⟩, e)
      (⟨.answer (f.afterPrimary result (f.rescueOf rescue) e).1, hs⟩,
        (f.afterPrimary result (f.rescueOf rescue) e).2) := by
  rcases Frame.allowed_or_not result (f.rescueOf rescue) with ⟨cause, r, rfl, hrescue, hallows⟩ | hnot
  · obtain ⟨w, rfl, rfl⟩ := Option.map_eq_some_iff.mp hrescue
    rw [hrescue, Frame.afterPrimary_of_allowed hallows]
    refine .step (step_decided_of_allowed hallows) ?_
    cases ha : e.acquire? f.circuit .fallback with
    | none =>
      rw [Frame.startFallback_of_full ha]
      exact .single (step_rescue_of_full ha)
    | some e' =>
      rw [Frame.startFallback_of_acquired ha]
      exact (Turns.step (step_rescue_of_acquired ha) (hr w rfl _ _ _ _)).trans (turns_settle_fallback f hs _ cause _)
  · rw [Frame.afterPrimary_of_not_allowed hnot]
    exact .single (step_decided_of_not_allowed fun cause w hcause hw => hnot cause _ hcause (by rw [hw]; rfl))

theorem turns_close (due : Nat) (hr : ∀ w ∈ rescue, w.InSections) :
    Turns (⟨.close x, ⟨f, .primary due rescue⟩ :: hs⟩, e)
      (⟨.answer (f.afterPrimary (x.result f.circuit.limits) (f.rescueOf rescue) (f.closePrimary x.outcome e)).1, hs⟩,
        (f.afterPrimary (x.result f.circuit.limits) (f.rescueOf rescue) (f.closePrimary x.outcome e)).2) :=
  .step rfl (turns_decided f hs _ _ hr)

theorem turns_settle_primary (due : Nat) (p : Progress (Suspended α) (WorkResult α))
    (hr : ∀ w ∈ rescue, w.InSections) :
    Turns (⟨.settle p, ⟨f, .primary due rescue⟩ :: hs⟩, e)
      (⟨.answer (f.settlePrimary due (f.rescueOf rescue) p e).1, hs⟩,
        (f.settlePrimary due (f.rescueOf rescue) p e).2) := by
  cases p with
  | finished r => exact .step rfl (turns_close f (.own r) hs e due hr)
  | suspended s =>
    by_cases hd : due ≤ e.now
    · rw [Frame.settlePrimary_timedOut hd]
      refine .step (step_settle_timedOut (decide_eq_true hd)) ?_
      exact (turns_abandon s .timedOut _ e).trans (turns_close f .timedOut hs _ due hr)
    · have hlater : (Stage.primary due rescue).isOver e.now = false := decide_eq_false hd
      cases hi : e.interrupts f.context with
      | true =>
        rw [Frame.settlePrimary_interrupted (by omega) hi]
        refine .step (step_settle_interrupted hlater hi) ?_
        exact (turns_abandon s .interrupted _ e).trans (turns_close f .interrupted hs _ due hr)
      | false =>
        rw [Frame.settlePrimary_suspended (by omega) hi, Frame.map_work_rescueOf]
        exact .single (step_settle_suspended hlater hi)

theorem turns_settle (stage : Stage α) (p : Progress (Suspended α) (WorkResult α))
    (hr : ∀ due rescue, stage = .primary due rescue → ∀ w ∈ rescue, w.InSections) :
    Turns (⟨.settle p, ⟨f, stage⟩ :: hs⟩, e) (⟨.answer (f.settle stage p e).1, hs⟩, (f.settle stage p e).2) := by
  cases stage with
  | primary due rescue => exact turns_settle_primary f hs e due p (hr due rescue rfl)
  | fallback cause => exact turns_settle_fallback f hs e cause p

theorem turns_call {work : Work α} (hw : work.InSections) (hr : ∀ w ∈ rescue, w.InSections) :
    Turns (⟨.call f work rescue, hs⟩, e)
      (⟨.answer (f.startCall (work.start f.context) (f.rescueOf rescue) e).1, hs⟩,
        (f.startCall (work.start f.context) (f.rescueOf rescue) e).2) := by
  cases hopen : f.circuit.limits.forceOpen with
  | true =>
    rw [Frame.startCall_of_open hopen]
    exact .step (step_call_of_open hopen) (turns_decided f hs _ _ hr)
  | false =>
    cases ha : e.acquire? f.circuit .primary with
    | none =>
      rw [Frame.startCall_of_full hopen ha]
      exact .step (step_call_of_full hopen ha) (turns_decided f hs _ _ hr)
    | some e' =>
      rw [Frame.startCall_of_acquired hopen ha]
      exact (Turns.step (step_call_of_acquired hopen ha) (hw _ _ _ _)).trans (turns_settle_primary f hs _ _ _ hr)

end Thread

/-! ## Polls -/

/-- By induction on the work: a call inside it begins its own work, which is a smaller one. -/
theorem Work.inSections (w : Work α) : w.InSections := by
  induction w with
  | done | hang => exact fun x h hs e => .single rfl
  | raise signal rest ih => exact fun x h hs e => .step rfl (ih x h hs _)
  | wait ms rest ih =>
    intro x h hs e
    simp only [Work.start]
    split
    · next hms => exact .step (Thread.step_wait_of_zero hms) (ih x h hs e)
    · next hms => exact .single (Thread.step_wait_of_ne_zero hms)
  | call c d work ih =>
    intro x h hs e
    have hnone : ∀ w ∈ (none : Option (Work α)), w.InSections := fun w h => absurd h (Option.not_mem_none w)
    exact (Turns.step rfl (Thread.turns_call ⟨c, x.derive e.now d⟩ _ e ih hnone)).trans (.single rfl)
  | callOr c d work rescue ih ihr =>
    intro x h hs e
    refine (Turns.step rfl (Thread.turns_call ⟨c, x.derive e.now d⟩ _ e ih ?_)).trans (.single rfl)
    rintro w ⟨⟩
    exact ihr

theorem Suspended.turns_poll (s : Suspended α) (x : Context) (h : Holder α) (hs : List (Holder α)) (e : Engine) :
    Turns (⟨.poll s x, h :: hs⟩, e) (⟨.settle (s.poll x e).1, h :: hs⟩, (s.poll x e).2) := by
  induction s generalizing x h hs e with
  | waiting due rest =>
    simp only [Suspended.poll]
    split
    · next hdue => exact .step (Thread.step_waiting_of_le hdue) (rest.inSections x h hs e)
    · next hdue => exact .single (Thread.step_waiting_of_lt (Nat.lt_of_not_le hdue))
  | hanging => exact .single rfl
  | calling f stage inner ih =>
    refine .step rfl ((ih f.context ⟨f, stage⟩ (h :: hs) _).trans ?_)
    exact (Thread.turns_settle f _ _ stage _ fun _ _ _ w _ => w.inSections).trans (.single rfl)

/-- Left alone, a thread makes a call as `Call.start` begins it, up to where the call is suspended or has ended. -/
theorem Call.turns_start (c : Call α) (x : Context) (e : Engine) :
    Turns (.ofCall ⟨c.circuit, x⟩ c.work c.rescue, e) (.ofProgress (c.start x e).1, (c.start x e).2) :=
  Thread.turns_call ⟨c.circuit, x⟩ [] e c.work.inSections fun w _ => w.inSections

/-- Left alone, a thread whose call is suspended goes on with it as `InFlight.poll` does. -/
theorem InFlight.turns_poll (c : InFlight α) (e : Engine) :
    Turns (.ofProgress (.suspended c), e) (.ofProgress (c.poll e).1, (c.poll e).2) := by
  refine .step rfl ((c.inner.turns_poll c.frame.context ⟨c.frame, c.stage⟩ [] _).trans ?_)
  exact Thread.turns_settle c.frame [] _ c.stage _ fun _ _ _ w _ => w.inSections

end CallGuard
