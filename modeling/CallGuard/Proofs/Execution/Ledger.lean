import CallGuard.Execution.Group
import CallGuard.Proofs.Execution.Stages
import CallGuard.Proofs.Registry.Places

/-!
# The ledger of ended parts

An `Entry` says that the primary part or the fallback of some call ended, and how. What a call has entered is read off
what can be seen of it (`Progress.entries`): the stage in which it is suspended, or its completion. What was entered by
the calls inside its work, which nobody sees from outside, is collected along the polls that made it
(`Work.ledger`, `Suspended.ledger`).

* **Accounts**: from one engine to another, every counter of every circuit counts the entries of a ledger of its own
  circuit and category, all at the instant at which both engines stand, and nothing else.
* **Main statements** (`Work.accounts_start`, `Suspended.accounts_poll`, `InFlight.accounts_poll`,
  `Call.accounts_start`): the ledger of a poll accounts for it. So what a call reports is what is seen of it.
-/

namespace CallGuard

variable {α : Type}

/-! ## Entries -/

/-- A part of a call on the circuit of `handle` ended. -/
inductive Entry
  | call (handle : Handle) (outcome : CallOutcome)
  | fallback (handle : Handle) (outcome : FallbackOutcome)
deriving DecidableEq, Repr

namespace Entry

/-- The entry belongs to the counter `k` of the calls of circuit `i`. -/
def countsCall (i : Nat) (k : CallCategory) : Entry → Bool
  | call h o => h.index = i ∧ o.category = k
  | fallback .. => false

/-- The entry belongs to the counter `k` of the fallbacks of circuit `i`. -/
def countsFallback (i : Nat) (k : FallbackCategory) : Entry → Bool
  | call .. => false
  | fallback h o => h.index = i ∧ o.category = k

end Entry

/-- The outcome that the result of a primary part shows. -/
def shownOutcome : CallResult α → CallOutcome
  | .ok _ => .success
  | .error (.badRequest _) => .badRequest
  | .error (.timeout _) => .timeout
  | .error .interrupted => .interrupt
  | .error .shortCircuited => .shortCircuited
  | .error .concurrencyRejected => .concurrencyRejected
  | .error _ => .failure

/-- The outcome that an answer in place of a primary error shows, if it is not that error itself. -/
def shownFallback : CallResult α → Option FallbackOutcome
  | .ok _ => some .success
  | .error (.fallbackFailed _ (.badRequest _)) => some .badRequest
  | .error (.fallbackFailed _ (.failed _)) => some .failure
  | .error (.fallbackInterrupted _) => some .interrupt
  | .error (.fallbackRejected _) => some .concurrencyRejected
  | .error _ => none

section Ends

variable (limits : Limits) (returned : WorkResult α → Prop)

/-- The outcome of a primary part and its result belong together, on a circuit with the given limits. If the part ended
with its work, this is what the work `returned`. -/
inductive PrimaryEnd : CallOutcome → CallResult α → Prop
  | success {v : Value α} : returned (.ok v) → PrimaryEnd .success (.ok v)
  | badRequest {m : String} : returned (.error (.badRequest m)) → PrimaryEnd .badRequest (.error (.badRequest m))
  | failure {m : String} : returned (.error (.failed m)) → PrimaryEnd .failure (.error (.failed m))
  | timeout : PrimaryEnd .timeout (.error (.timeout (.ofMillis limits.timeout)))
  | interrupt : PrimaryEnd .interrupt (.error .interrupted)
  | shortCircuited : PrimaryEnd .shortCircuited (.error .shortCircuited)
  | concurrencyRejected : PrimaryEnd .concurrencyRejected (.error .concurrencyRejected)

/-- The outcome of a fallback, the error that it was given and its answer belong together, where `cause` is the primary
error. If the fallback ended with its work, this is what the work `returned`. -/
inductive FallbackEnd (cause : CallError) : FallbackOutcome → Option CallError → CallResult α → Prop
  | success {v : Value α} : returned (.ok v) → FallbackEnd cause .success (some cause) (.ok v)
  | failure {m : String} : returned (.error (.failed m)) →
      FallbackEnd cause .failure (some cause) (.error (.fallbackFailed cause (.failed m)))
  | badRequest {m : String} : returned (.error (.badRequest m)) →
      FallbackEnd cause .badRequest (some cause) (.error (.fallbackFailed cause (.badRequest m)))
  | interrupt : FallbackEnd cause .interrupt (some cause) (.error (.fallbackInterrupted cause))
  | concurrencyRejected : FallbackEnd cause .concurrencyRejected none (.error (.fallbackRejected cause))

variable {limits returned} {cause : CallError} {o : CallOutcome} {fo : FallbackOutcome} {saw : Option CallError}
  {r : CallResult α}

theorem PrimaryEnd.shownOutcome_eq (h : PrimaryEnd limits returned o r) : shownOutcome r = o := by cases h <;> rfl

theorem PrimaryEnd.of_ending {x : Ending α} (h : ∀ r, x = .own r → returned r) :
    PrimaryEnd limits returned x.outcome (x.result limits) := by
  rcases x with ((m | m) | v) | _ | _
  · exact .badRequest (h _ rfl)
  · exact .failure (h _ rfl)
  · exact .success (h _ rfl)
  · exact .timeout
  · exact .interrupt

theorem FallbackEnd.of_answer {w : Option (WorkResult α)} (h : ∀ r, w = some r → returned r) :
    FallbackEnd returned cause (fallbackOutcome w) (some cause) (fallbackAnswer cause w) := by
  rcases w with _ | (m | m) | v
  · exact .interrupt
  · exact .badRequest (h _ rfl)
  · exact .failure (h _ rfl)
  · exact .success (h _ rfl)

theorem FallbackEnd.shownFallback_eq (h : FallbackEnd returned cause fo saw r) : shownFallback r = some fo := by
  cases h <;> rfl

/-- The answer of a fallback that was begun shows its outcome. -/
theorem shownFallback_answer (cause : CallError) (w : Option (WorkResult α)) :
    shownFallback (fallbackAnswer cause w) = some (fallbackOutcome w) := by
  rcases w with _ | (m | m) | v <;> rfl

end Ends

/-- What a call on the circuit of `h` has entered when it is in a stage. -/
def Stage.entries (h : Handle) : Stage α → List Entry
  | .primary .. => []
  | .fallback cause => [.call h (shownOutcome (.error cause : CallResult α))]

/-- What a call on the circuit of `h` has entered for its fallback when it is completed. -/
def Completion.fallbackEntries (h : Handle) (c : Completion α) : List Entry :=
  match c.primary with
  | .ok _ => []
  | .error _ => ((shownFallback c.answer).map (Entry.fallback h)).toList

/-- What a call on the circuit of `h` has entered when it stands as it does. -/
def Progress.entries (h : Handle) : Progress (InFlight α) (Completion α) → List Entry
  | .suspended f => f.stage.entries h
  | .finished c => .call h (shownOutcome c.primary) :: c.fallbackEntries h

/-! ## Counters of an engine -/

/-- The counter `k` of the calls of circuit `i`. -/
def Engine.callCounter? (e : Engine) (i : Nat) (k : CallCategory) : Option Rolling.Counter :=
  e.registry.circuits[i]?.map (·.calls.counter k)

/-- The counter `k` of the fallbacks of circuit `i`, if it counts them. -/
def Engine.fallbackCounter? (e : Engine) (i : Nat) (k : FallbackCategory) : Option Rolling.Counter :=
  e.registry.circuits[i]?.bind fun c => c.fallbacks.map (·.counter k)

theorem incrementMany_add (c : Rolling.Counter) (t : Int) (m n : Nat) :
    c.incrementMany t (m + n) = (c.incrementMany t m).incrementMany t n := by
  induction m generalizing c with
  | zero => rw [Nat.zero_add, Rolling.Counter.incrementMany]
  | succ m ih => rw [Nat.succ_add, Rolling.Counter.incrementMany, Rolling.Counter.incrementMany, ih]

/-- **Accounts.** Both engines stand at one instant, at which each counter counts the entries that belong to it. -/
structure Accounts (e e' : Engine) (entries : List Entry) : Prop where
  now_eq : e'.now = e.now
  calls : ∀ i k, e'.callCounter? i k =
    (e.callCounter? i k).map (·.incrementMany e.instant (entries.countP (Entry.countsCall i k)))
  fallbacks : ∀ i k, e'.fallbackCounter? i k =
    (e.fallbackCounter? i k).map (·.incrementMany e.instant (entries.countP (Entry.countsFallback i k)))

namespace Accounts

variable {e e₁ e₂ : Engine} {l l₁ l₂ : List Entry}

theorem instant_eq (h : Accounts e e₁ l) : e₁.instant = e.instant := by
  rw [Engine.instant, Engine.instant, h.now_eq]

/-- Acts that leave the clock and the counters alone enter nothing. -/
theorem of_quiet (hn : e₁.now = e.now) (hc : e₁.registry.circuits = e.registry.circuits) : Accounts e e₁ [] := by
  refine ⟨hn, ?_, ?_⟩
  · intro i k
    rw [Engine.callCounter?, Engine.callCounter?, hc, List.countP_nil]
    exact (Option.map_id' ..).symm
  · intro i k
    rw [Engine.fallbackCounter?, Engine.fallbackCounter?, hc, List.countP_nil]
    exact (Option.map_id' ..).symm

theorem trans (h₁ : Accounts e e₁ l₁) (h₂ : Accounts e₁ e₂ l₂) : Accounts e e₂ (l₁ ++ l₂) := by
  refine ⟨h₂.now_eq.trans h₁.now_eq, ?_, ?_⟩
  · intro i k
    rw [h₂.calls, h₁.calls, Option.map_map, List.countP_append, h₁.instant_eq]
    congr 1
    funext c
    exact (incrementMany_add ..).symm
  · intro i k
    rw [h₂.fallbacks, h₁.fallbacks, Option.map_map, List.countP_append, h₁.instant_eq]
    congr 1
    funext c
    exact (incrementMany_add ..).symm

theorem then_quiet (h : Accounts e e₁ l) (hn : e₂.now = e₁.now)
    (hc : e₂.registry.circuits = e₁.registry.circuits) : Accounts e e₂ l := by
  have := h.trans (of_quiet hn hc)
  rwa [List.append_nil] at this

theorem after_quiet (hn : e₁.now = e.now) (hc : e₁.registry.circuits = e.registry.circuits)
    (h : Accounts e₁ e₂ l) : Accounts e e₂ l :=
  (of_quiet hn hc).trans h

/-- The entries of one instant have no order. -/
theorem perm (h : Accounts e e₁ l₁) (hl : l₁.Perm l₂) : Accounts e e₁ l₂ := by
  refine ⟨h.now_eq, ?_, ?_⟩
  · intro i k
    rw [h.calls, hl.countP_eq]
  · intro i k
    rw [h.fallbacks, hl.countP_eq]

end Accounts

/-! ## Reports -/

theorem accounts_report (e : Engine) (c : Circuit) (o : CallOutcome) :
    Accounts e (e.report c o) [.call c.handle o] := by
  have hget : ∀ i, (e.report c o).registry.circuits[i]? = if c.handle.index = i then
      e.registry.circuits[i]?.map (fun x => { x with calls := x.calls.record o.category e.instant })
      else e.registry.circuits[i]? := fun i => Array.getElem?_modify
  refine ⟨rfl, ?_, ?_⟩
  · intro i k
    rw [Engine.callCounter?, Engine.callCounter?, hget, List.countP_singleton]
    by_cases hi : c.handle.index = i
    · rw [if_pos hi, Option.map_map, Option.map_map]
      congr 1
      funext x
      simp only [Function.comp, Stats.counter_record, Entry.countsCall, hi, true_and, decide_eq_true_eq]
      split <;> rfl
    · rw [if_neg hi, Entry.countsCall, if_neg (by simp [hi])]
      exact (Option.map_id' ..).symm
  · intro i k
    rw [Engine.fallbackCounter?, Engine.fallbackCounter?, hget]
    by_cases hi : c.handle.index = i
    · rw [if_pos hi, Option.bind_map]
      exact (Option.map_id' ..).symm
    · rw [if_neg hi]
      exact (Option.map_id' ..).symm

/-- A report of a fallback changes the circuit of the handle, which is no change if it does not count fallbacks. -/
theorem getElem?_reportFallback (e : Engine) (c : Circuit) (o : FallbackOutcome) (i : Nat) :
    (e.reportFallback c o).registry.circuits[i]? = if c.handle.index = i then
      e.registry.circuits[i]?.map (fun x => { x with fallbacks := x.fallbacks.map (·.record o.category e.instant) })
      else e.registry.circuits[i]? := by
  rw [Engine.reportFallback, Registry.circuits_reportFallback]
  exact Array.getElem?_modify

theorem accounts_reportFallback (e : Engine) (c : Circuit) (o : FallbackOutcome) :
    Accounts e (e.reportFallback c o) [.fallback c.handle o] := by
  have hget := getElem?_reportFallback e c o
  refine ⟨rfl, ?_, ?_⟩
  · intro i k
    rw [Engine.callCounter?, Engine.callCounter?, hget]
    by_cases hi : c.handle.index = i
    · rw [if_pos hi, Option.map_map]
      exact (Option.map_id' ..).symm
    · rw [if_neg hi]
      exact (Option.map_id' ..).symm
  · intro i k
    rw [Engine.fallbackCounter?, Engine.fallbackCounter?, hget, List.countP_singleton]
    by_cases hi : c.handle.index = i
    · rw [if_pos hi, Option.bind_map, Option.map_bind]
      congr 1
      funext x
      simp only [Function.comp, Option.map_map, Entry.countsFallback, hi, true_and, decide_eq_true_eq]
      congr 1
      funext s
      simp only [Function.comp, Stats.counter_record]
      split <;> rfl
    · rw [if_neg hi, Entry.countsFallback, if_neg (by simp [hi])]
      exact (Option.map_id' ..).symm

/-! ## What is entered inside a call -/

namespace Frame

/-- What is entered while the fallback of a call is begun, if it is, from what its work enters. -/
def rescueLedger (f : Frame) (result : CallResult α) (rescue : Option (Rescue α)) (tally : Engine → List Entry)
    (e : Engine) : List Entry :=
  match result, rescue with
  | .error cause, some _ =>
    if cause.allowsFallback then ((e.acquire? f.circuit .fallback).map tally).getD [] else []
  | _, _ => []

/-- What is entered inside a call after the work of its primary part was polled. -/
def primaryLedger (f : Frame) (due : Nat) (rescue : Option (Rescue α)) (tally : Engine → List Entry)
    (p : Progress (Suspended α) (WorkResult α)) (e : Engine) : List Entry :=
  match p with
  | .finished r =>
    f.rescueLedger ((Ending.own r).result f.circuit.limits) rescue tally (f.closePrimary (Ending.own r).outcome e)
  | .suspended s =>
    if due ≤ e.now then
      f.rescueLedger (Ending.timedOut.result f.circuit.limits : CallResult α) rescue tally
        (f.closePrimary .timeout (s.abandon e))
    else []

/-- What is entered inside a call when it is begun. -/
def startLedger (f : Frame) (begin : Poll (Suspended α) (WorkResult α)) (beginTally : Engine → List Entry)
    (rescue : Option (Rescue α)) (tally : Engine → List Entry) (e : Engine) : List Entry :=
  if f.circuit.limits.forceOpen then
    f.rescueLedger (.error .shortCircuited : CallResult α) rescue tally (e.report f.circuit .shortCircuited)
  else
    match e.acquire? f.circuit .primary with
    | none =>
      f.rescueLedger (.error .concurrencyRejected : CallResult α) rescue tally
        (e.report f.circuit .concurrencyRejected)
    | some e =>
      beginTally e ++ f.primaryLedger (e.now + f.circuit.limits.timeout) rescue tally (begin e).1 (begin e).2

end Frame

/-- What is entered while work is begun inside a context. -/
def Work.ledger : Work α → Context → Engine → List Entry
  | .done _, _ => fun _ => []
  | .hang, _ => fun _ => []
  | .raise signal rest, ctx => fun e => rest.ledger ctx (e.cancel signal)
  | .wait ms rest, ctx => fun e => if ms = 0 then rest.ledger ctx e else []
  | .call circuit d work, ctx => fun e =>
    let f : Frame := ⟨circuit, ctx.derive e.now d⟩
    f.startLedger (work.start f.context) (work.ledger f.context) none (fun _ => []) e ++
      (f.startCall (work.start f.context) none e).1.entries circuit.handle
  | .callOr circuit d work rescue, ctx => fun e =>
    let f : Frame := ⟨circuit, ctx.derive e.now d⟩
    let r : Option (Rescue α) := some ⟨rescue, rescue.start f.context⟩
    f.startLedger (work.start f.context) (work.ledger f.context) r (rescue.ledger f.context) e ++
      (f.startCall (work.start f.context) r e).1.entries circuit.handle

namespace Frame

/-- What is entered inside a call after its suspended work was polled. -/
def settleLedger (f : Frame) (stage : Stage α) (p : Progress (Suspended α) (WorkResult α)) (e : Engine) :
    List Entry :=
  match stage with
  | .primary due rescue =>
    f.primaryLedger due (rescue.map fun w => ⟨w, w.start f.context⟩)
      (rescue.elim (fun _ => []) fun w => w.ledger f.context) p e
  | .fallback _ => []

/-- What a call enters itself after its suspended work was polled. -/
def settleEntries (f : Frame) (stage : Stage α) (p : Progress (Suspended α) (WorkResult α)) (e : Engine) :
    List Entry :=
  ((f.settle stage p e).1.entries f.circuit.handle).drop (stage.entries f.circuit.handle).length

end Frame

/-- What is entered while suspended work is polled inside a context. -/
def Suspended.ledger : Suspended α → Context → Engine → List Entry
  | .waiting due rest, ctx => fun e => if due ≤ e.now then rest.ledger ctx e else []
  | .hanging, _ => fun _ => []
  | .calling f stage inner, _ => fun e =>
    let (p, e') := inner.poll f.context (e.leave f.context)
    inner.ledger f.context (e.leave f.context) ++ f.settleLedger stage p e' ++ f.settleEntries stage p e'

/-! ## Every poll is accounted for -/

namespace Frame

variable {f : Frame} {result : CallResult α} {rescue : Option (Rescue α)} {tally : Engine → List Entry}

theorem accounts_closePrimary (f : Frame) (o : CallOutcome) (e : Engine) :
    Accounts e (f.closePrimary o e) [.call f.circuit.handle o] := by
  refine (accounts_report e f.circuit o).then_quiet ?_ ?_ <;>
    · unfold closePrimary
      dsimp only
      split <;> simp

theorem accounts_closeFallback (f : Frame) (o : FallbackOutcome) (e : Engine) :
    Accounts e (f.closeFallback o e) [.fallback f.circuit.handle o] := by
  refine (accounts_reportFallback e f.circuit o).then_quiet ?_ ?_ <;>
    · unfold closeFallback
      dsimp only
      split <;> simp

/-- A fallback that is settled enters its end, if it has ended, and nothing else. -/
theorem accounts_settleFallback (f : Frame) (cause : CallError) (p : Progress (Suspended α) (WorkResult α))
    (e : Engine) : ∃ l, (f.settleFallback cause p e).1.entries f.circuit.handle =
        .call f.circuit.handle (shownOutcome (.error cause : CallResult α)) :: l ∧
      Accounts e (f.settleFallback cause p e).2 l := by
  cases p with
  | finished r =>
    rw [settleFallback_finished]
    refine ⟨_, rfl, ?_⟩
    rw [Completion.fallbackEntries, shownFallback_answer]
    exact accounts_closeFallback ..
  | suspended s =>
    cases hi : e.interrupts f.context with
    | true =>
      rw [settleFallback_interrupted hi]
      refine ⟨_, rfl, ?_⟩
      rw [Completion.fallbackEntries, shownFallback_answer]
      exact (accounts_closeFallback ..).after_quiet (s.now_abandon e) (s.circuits_abandon e)
    | false =>
      rw [settleFallback_suspended hi]
      exact ⟨[], rfl, .of_quiet (e.now_enter _) (e.circuits_enter _)⟩

/-- A fallback that is started enters its end, if it has ended, beside what its work enters. -/
theorem accounts_startFallback {cause : CallError} {begin : Poll (Suspended α) (WorkResult α)}
    (hr : ∀ e, Accounts e (begin e).2 (tally e)) (e : Engine) :
    ∃ l, (f.startFallback cause begin e).1.entries f.circuit.handle =
        .call f.circuit.handle (shownOutcome (.error cause : CallResult α)) :: l ∧
      Accounts e (f.startFallback cause begin e).2 (((e.acquire? f.circuit .fallback).map tally).getD [] ++ l) := by
  cases ha : e.acquire? f.circuit .fallback with
  | none =>
    rw [startFallback_of_full ha]
    exact ⟨_, rfl, accounts_reportFallback ..⟩
  | some e' =>
    rw [startFallback_of_acquired ha]
    obtain ⟨l, hl, hacc⟩ := accounts_settleFallback f cause (begin e').1 (begin e').2
    refine ⟨l, hl, ?_⟩
    exact ((hr e').trans hacc).after_quiet (Engine.now_acquire? ha) (Engine.circuits_acquire? ha)

/-- What is entered after a primary part has ended: the end of the fallback, and what its work enters. -/
theorem accounts_afterPrimary (hr : ∀ r, rescue = some r → ∀ e, Accounts e (r.begin e).2 (tally e))
    {limits : Limits} {returned : WorkResult α → Prop} {o : CallOutcome} (ho : PrimaryEnd limits returned o result)
    (e : Engine) :
    ∃ l, (f.afterPrimary result rescue e).1.entries f.circuit.handle = .call f.circuit.handle o :: l ∧
      Accounts e (f.afterPrimary result rescue e).2 (f.rescueLedger result rescue tally e ++ l) := by
  rcases allowed_or_not result rescue with ⟨cause, r, rfl, rfl, hallows⟩ | hnot
  · rw [afterPrimary_of_allowed hallows, rescueLedger, if_pos hallows, ← ho.shownOutcome_eq]
    exact accounts_startFallback (hr r rfl) e
  · have hledger : f.rescueLedger result rescue tally e = [] := by
      unfold rescueLedger
      split
      · rw [if_neg (by simp [hnot _ _ rfl rfl])]
      · rfl
    rw [afterPrimary_of_not_allowed hnot, hledger]
    refine ⟨[], ?_, .of_quiet rfl rfl⟩
    -- an error of a primary part is no answer of a fallback
    cases ho <;> rfl

/-- The end of the primary part is entered before what follows it. -/
theorem accounts_ended (hr : ∀ r, rescue = some r → ∀ e, Accounts e (r.begin e).2 (tally e)) {limits : Limits}
    {returned : WorkResult α → Prop} {o : CallOutcome} (ho : PrimaryEnd limits returned o result) {e e₁ : Engine}
    (h : Accounts e e₁ [.call f.circuit.handle o]) :
    Accounts e (f.afterPrimary result rescue e₁).2 (f.rescueLedger result rescue tally e₁ ++
      (f.afterPrimary result rescue e₁).1.entries f.circuit.handle) := by
  obtain ⟨l, hl, hacc⟩ := accounts_afterPrimary hr ho e₁
  rw [hl]
  refine (h.trans hacc).perm ?_
  rw [List.singleton_append]
  exact List.perm_middle.symm

theorem accounts_settlePrimary (due : Nat) (p : Progress (Suspended α) (WorkResult α))
    (hr : ∀ r, rescue = some r → ∀ e, Accounts e (r.begin e).2 (tally e)) (e : Engine) :
    Accounts e (f.settlePrimary due rescue p e).2 (f.primaryLedger due rescue tally p e ++
      (f.settlePrimary due rescue p e).1.entries f.circuit.handle) := by
  have hend : ∀ x : Ending α, PrimaryEnd f.circuit.limits (fun _ => True) x.outcome (x.result f.circuit.limits) :=
    fun _ => .of_ending fun _ _ => trivial
  cases p with
  | finished r =>
    rw [settlePrimary_finished]
    exact accounts_ended hr (hend (.own r)) (accounts_closePrimary ..)
  | suspended s =>
    have hgone : ∀ o, Accounts e (f.closePrimary o (s.abandon e)) [.call f.circuit.handle o] := fun o =>
      (accounts_closePrimary ..).after_quiet (s.now_abandon e) (s.circuits_abandon e)
    by_cases hd : due ≤ e.now
    · rw [settlePrimary_timedOut hd, primaryLedger, if_pos hd]
      exact accounts_ended hr (hend .timedOut) (hgone _)
    · rw [primaryLedger, if_neg hd]
      cases hi : e.interrupts f.context with
      | true =>
        rw [settlePrimary_interrupted (by omega) hi]
        -- an interruption allows no fallback
        have hnone : f.rescueLedger (Ending.interrupted.result f.circuit.limits : CallResult α) rescue tally
            (f.closePrimary (Ending.interrupted : Ending α).outcome (s.abandon e)) = [] := by
          cases rescue <;> rfl
        have := accounts_ended hr (hend .interrupted) (hgone _)
        rwa [hnone] at this
      | false =>
        rw [settlePrimary_suspended (by omega) hi]
        exact .of_quiet (e.now_enter _) (e.circuits_enter _)

/-- A call that is begun enters what is seen of it, beside what is entered inside it. -/
theorem accounts_startCall {begin : Poll (Suspended α) (WorkResult α)} {beginTally : Engine → List Entry}
    (hb : ∀ e, Accounts e (begin e).2 (beginTally e))
    (hr : ∀ r, rescue = some r → ∀ e, Accounts e (r.begin e).2 (tally e)) (e : Engine) :
    Accounts e (f.startCall begin rescue e).2 (f.startLedger begin beginTally rescue tally e ++
      (f.startCall begin rescue e).1.entries f.circuit.handle) := by
  unfold startLedger
  cases hopen : f.circuit.limits.forceOpen with
  | true =>
    rw [startCall_of_open hopen, if_pos rfl]
    exact accounts_ended hr (PrimaryEnd.shortCircuited : PrimaryEnd f.circuit.limits (fun _ => True) _ _) (accounts_report ..)
  | false =>
    rw [if_neg Bool.false_ne_true]
    cases ha : e.acquire? f.circuit .primary with
    | none =>
      rw [startCall_of_full hopen ha]
      exact accounts_ended hr (PrimaryEnd.concurrencyRejected : PrimaryEnd f.circuit.limits (fun _ => True) _ _) (accounts_report ..)
    | some e' =>
      rw [startCall_of_acquired hopen ha]
      dsimp only
      rw [List.append_assoc]
      refine ((hb e').trans ?_).after_quiet (Engine.now_acquire? ha) (Engine.circuits_acquire? ha)
      exact accounts_settlePrimary _ _ hr _

end Frame

/-- **Begun work is accounted for.** -/
theorem Work.accounts_start (w : Work α) (ctx : Context) (e : Engine) : Accounts e (w.start ctx e).2 (w.ledger ctx e) := by
  induction w generalizing ctx e with
  | done | hang => exact .of_quiet rfl rfl
  | raise signal rest ih => exact .after_quiet (e.now_cancel signal) (e.circuits_cancel signal) (ih ctx _)
  | wait ms rest ih =>
    simp only [Work.start, Work.ledger]
    split
    · exact ih ctx e
    · exact .of_quiet rfl rfl
  | call circuit d work ih =>
    exact Frame.accounts_startCall (f := ⟨circuit, _⟩) (ih _) (fun _ h => by cases h) e
  | callOr circuit d work rescue ih ihr =>
    exact Frame.accounts_startCall (f := ⟨circuit, _⟩) (ih _) (fun _ h => by cases h; exact ihr _) e

namespace Frame

variable {f : Frame} {stage : Stage α} {p : Progress (Suspended α) (WorkResult α)} {e : Engine}

/-- A call whose fallback is suspended has entered the end of its primary part before. -/
theorem accounts_settle (f : Frame) (stage : Stage α) (p : Progress (Suspended α) (WorkResult α)) (e : Engine) :
    Accounts e (f.settle stage p e).2 (f.settleLedger stage p e ++ f.settleEntries stage p e) := by
  cases stage with
  | primary due rescue =>
    refine accounts_settlePrimary due p ?_ e
    intro r hr e
    cases rescue with
    | none => cases hr
    | some w => cases hr; exact w.accounts_start f.context e
  | fallback cause =>
    obtain ⟨l, hl, hacc⟩ := accounts_settleFallback f cause p e
    rw [settleEntries, settle, hl]
    exact hacc

/-- Settling a call adds to what the poll of its work has entered. -/
theorem accounts_settle_after {e₀ : Engine} {l : List Entry} (h : Accounts e₀ e l) (f : Frame) (stage : Stage α)
    (p : Progress (Suspended α) (WorkResult α)) : Accounts e₀ (f.settle stage p e).2
      (l ++ f.settleLedger stage p e ++ f.settleEntries stage p e) := by
  rw [List.append_assoc]
  exact h.trans (f.accounts_settle stage p e)

end Frame

/-- **Polled work is accounted for.** -/
theorem Suspended.accounts_poll (s : Suspended α) (ctx : Context) (e : Engine) :
    Accounts e (s.poll ctx e).2 (s.ledger ctx e) := by
  induction s generalizing ctx e with
  | waiting due rest =>
    simp only [poll, ledger]
    split
    · exact rest.accounts_start ctx e
    · exact .of_quiet rfl rfl
  | hanging => exact .of_quiet rfl rfl
  | calling f stage inner ih =>
    exact .after_quiet (e.now_leave _) (e.circuits_leave _)
      (Frame.accounts_settle_after (ih f.context (e.leave f.context)) f stage _)

/-! ## Polls of a call -/

/-- What is entered inside a call when it is begun. -/
def Call.innerLedger (c : Call α) (context : Context) (e : Engine) : List Entry :=
  Frame.startLedger ⟨c.circuit, context⟩ (c.work.start context) (c.work.ledger context)
    (c.rescue.map fun w => ⟨w, w.start context⟩) (c.rescue.elim (fun _ => []) fun w => w.ledger context) e

/-- What is entered inside a suspended call when it is polled. -/
def InFlight.innerLedger (c : InFlight α) (e : Engine) : List Entry :=
  let (p, e') := c.inner.poll c.frame.context (e.leave c.frame.context)
  c.inner.ledger c.frame.context (e.leave c.frame.context) ++ c.frame.settleLedger c.stage p e'

/-- What a suspended call enters itself when it is polled: what is seen of it then, less what was seen before. -/
def InFlight.ownEntries (c : InFlight α) (e : Engine) : List Entry :=
  ((c.poll e).1.entries c.frame.circuit.handle).drop (c.stage.entries c.frame.circuit.handle).length

/-- **A call that is begun is accounted for.** -/
theorem Call.accounts_start (c : Call α) (context : Context) (e : Engine) : Accounts e (c.start context e).2
    (c.innerLedger context e ++ (c.start context e).1.entries c.circuit.handle) := by
  refine Frame.accounts_startCall (f := ⟨c.circuit, context⟩) (c.work.accounts_start context) ?_ e
  intro r hr e
  cases hw : c.rescue with
  | none => rw [hw] at hr; cases hr
  | some w => rw [hw] at hr; cases hr; exact w.accounts_start context e

/-- **A call that is polled is accounted for.** -/
theorem InFlight.accounts_poll (c : InFlight α) (e : Engine) :
    Accounts e (c.poll e).2 (c.innerLedger e ++ c.ownEntries e) := by
  have hinner := c.inner.accounts_poll c.frame.context (e.leave c.frame.context)
  exact .after_quiet (e.now_leave _) (e.circuits_leave _) (Frame.accounts_settle_after hinner c.frame c.stage _)

end CallGuard
