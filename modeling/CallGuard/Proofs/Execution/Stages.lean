import CallGuard.Proofs.Execution.Acts

/-!
# How a call moves through its stages

One equation for each way on: how a call begins (`startCall_of_open`, `startCall_of_full`, `startCall_of_acquired`), what
becomes of its primary part after a poll of the work (`settlePrimary_finished` to `settlePrimary_suspended`), when the
fallback follows (`afterPrimary_of_not_allowed`, `afterPrimary_of_allowed`), and the same for the fallback. Later
modules use these equations and not the definitions.
-/

namespace CallGuard

variable {α : Type}

namespace Frame

variable {f : Frame} {e e' : Engine} {due : Nat} {cause : CallError} {s : Suspended α} {r : WorkResult α}
  {result : CallResult α} {rescue : Option (Rescue α)} {begin : Poll (Suspended α) (WorkResult α)}

/-! ## The fallback -/

theorem settleFallback_finished : f.settleFallback cause (.finished r) e =
    (.finished ⟨.error cause, some cause, fallbackAnswer cause (some r)⟩,
      f.closeFallback (fallbackOutcome (some r)) e) := rfl

theorem settleFallback_interrupted (h : e.interrupts f.context = true) : f.settleFallback cause (.suspended s) e =
    (.finished ⟨.error cause, some cause, fallbackAnswer cause none⟩,
      f.closeFallback (fallbackOutcome (none : Option (WorkResult α))) (s.abandon e)) := if_pos h

theorem settleFallback_suspended (h : e.interrupts f.context = false) : f.settleFallback cause (.suspended s) e =
    (.suspended ⟨f, .fallback cause, s⟩, e.enter f.context) := if_neg (by simp [h])

theorem startFallback_of_full (h : e.acquire? f.circuit .fallback = none) : f.startFallback cause begin e =
    (.finished ⟨.error cause, none, .error (.fallbackRejected cause)⟩,
      e.reportFallback f.circuit .concurrencyRejected) := by
  simp only [startFallback, h]

theorem startFallback_of_acquired (h : e.acquire? f.circuit .fallback = some e') : f.startFallback cause begin e =
    f.settleFallback cause (begin e').1 (begin e').2 := by
  simp only [startFallback, h]

/-! ## Between the parts -/

/-- The fallback that a call may still have to make, with the poll that begins it. -/
def rescueOf (f : Frame) (rescue : Option (Work α)) : Option (Rescue α) :=
  rescue.map fun w => ⟨w, w.start f.context⟩

theorem map_work_rescueOf (f : Frame) (rescue : Option (Work α)) : (f.rescueOf rescue).map (·.work) = rescue := by
  simp only [rescueOf, Option.map_map, Function.comp_def, Option.map_id']

theorem afterPrimary_of_allowed {r : Rescue α} (h : cause.allowsFallback = true) :
    f.afterPrimary (.error cause) (some r) e = f.startFallback cause r.begin e := if_pos h

/-- Without a fallback, or after a value or an error that allows none, the primary result is the answer. -/
theorem afterPrimary_of_not_allowed
    (h : ∀ cause r, result = .error cause → rescue = some r → cause.allowsFallback = false) :
    f.afterPrimary result rescue e = (.finished ⟨result, none, result⟩, e) := by
  unfold afterPrimary
  split
  · rw [if_neg (by simp [h _ _ rfl rfl])]
  · rfl

/-- The fallback follows, or nothing does. -/
theorem allowed_or_not (result : CallResult α) (rescue : Option (Rescue α)) :
    (∃ cause r, result = .error cause ∧ rescue = some r ∧ cause.allowsFallback = true) ∨
      ∀ cause r, result = .error cause → rescue = some r → cause.allowsFallback = false := by
  rcases result with cause | v
  · rcases rescue with _ | r
    · exact .inr fun _ _ _ h => by cases h
    · cases h : cause.allowsFallback with
      | true => exact .inl ⟨cause, r, rfl, rfl, h⟩
      | false => exact .inr fun _ _ h₁ _ => by cases h₁; exact h
  · exact .inr fun _ _ h _ => by cases h

/-! ## The primary part -/

theorem settlePrimary_finished : f.settlePrimary due rescue (.finished r) e =
    f.afterPrimary ((Ending.own r).result f.circuit.limits) rescue (f.closePrimary (Ending.own r).outcome e) := rfl

theorem settlePrimary_timedOut (h : due ≤ e.now) : f.settlePrimary due rescue (.suspended s) e =
    f.afterPrimary (Ending.timedOut.result f.circuit.limits) rescue
      (f.closePrimary (Ending.timedOut : Ending α).outcome (s.abandon e)) := if_pos h

theorem settlePrimary_interrupted (hd : e.now < due) (h : e.interrupts f.context = true) :
    f.settlePrimary due rescue (.suspended s) e =
      f.afterPrimary (Ending.interrupted.result f.circuit.limits) rescue
        (f.closePrimary (Ending.interrupted : Ending α).outcome (s.abandon e)) := by
  simp only [settlePrimary]
  rw [if_neg (by omega), if_pos h]

theorem settlePrimary_suspended (hd : e.now < due) (h : e.interrupts f.context = false) :
    f.settlePrimary due rescue (.suspended s) e =
      (.suspended ⟨f, .primary due (rescue.map (·.work)), s⟩, e.enter f.context) := by
  simp only [settlePrimary]
  rw [if_neg (by omega), if_neg (by simp [h])]

theorem startCall_of_open (h : f.circuit.limits.forceOpen = true) : f.startCall begin rescue e =
    f.afterPrimary (.error .shortCircuited) rescue (e.report f.circuit .shortCircuited) := if_pos h

theorem startCall_of_full (ho : f.circuit.limits.forceOpen = false) (h : e.acquire? f.circuit .primary = none) :
    f.startCall begin rescue e =
      f.afterPrimary (.error .concurrencyRejected) rescue (e.report f.circuit .concurrencyRejected) := by
  simp only [startCall, ho, h, Bool.false_eq_true, if_false]

theorem startCall_of_acquired (ho : f.circuit.limits.forceOpen = false)
    (h : e.acquire? f.circuit .primary = some e') : f.startCall begin rescue e =
      f.settlePrimary (e'.now + f.circuit.limits.timeout) rescue (begin e').1 (begin e').2 := by
  simp only [startCall, ho, h, Bool.false_eq_true, if_false]

end Frame

/-! ## Suspended calls -/

theorem InFlight.poll_eq (c : InFlight α) (e : Engine) : c.poll e =
    c.frame.settle c.stage (c.inner.poll c.frame.context (e.leave c.frame.context)).1
      (c.inner.poll c.frame.context (e.leave c.frame.context)).2 := rfl

end CallGuard
