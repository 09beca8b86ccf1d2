import CallGuard.Proofs.Execution.Signals

/-!
# The fuel of a run is enough

The runner of a group takes its fuel from a bound on the steps that its tasks still take. Each poll lowers that bound,
except one that leaves the task waiting, raises no signal and was not due (`Suspended.left_poll`, `Task.size_poll`). So
polling at one instant goes on until no signal is raised any more, and a run until no task waits for a later instant: it
never stops for want of fuel.
-/

namespace CallGuard

variable {α : Type}

/-! ## What is left after a poll -/

/-- A bound on the steps that are left, from one on those of a suspended state. -/
def Progress.left {σ ρ : Type} (size : σ → Nat) : Progress σ ρ → Nat
  | .suspended s => size s
  | .finished _ => 0

/-- A bound on the steps that a suspended call still takes. -/
def InFlight.size (c : InFlight α) : Nat := (Suspended.calling c.frame c.stage c.inner).size

/-- The bound for a fallback that may still follow. -/
def Rescue.bound (rescue : Option (Rescue α)) : Nat := rescue.elim 0 (·.work.size + 2)

theorem Progress.left_ofCall (p : Progress (InFlight α) (Completion α)) :
    p.ofCall.left Suspended.size = p.left InFlight.size := by cases p <;> rfl

theorem InFlight.size_primary (f : Frame) (due : Nat) (rescue : Option (Rescue α)) (s : Suspended α) :
    InFlight.size ⟨f, .primary due (rescue.map (·.work)), s⟩ = s.size + 2 + Rescue.bound rescue := by
  cases rescue <;> rfl

namespace Frame

variable (f : Frame) (e : Engine) {rescue : Option (Rescue α)} {begin : Poll (Suspended α) (WorkResult α)}

/-- A fallback goes on waiting, or it is over. -/
theorem settleFallback_cases (cause : CallError) (p : Progress (Suspended α) (WorkResult α)) :
    (∃ s, p = .suspended s ∧ e.interrupts f.context = false ∧
      f.settleFallback cause p e = (.suspended ⟨f, .fallback cause, s⟩, e.enter f.context)) ∨
    (f.settleFallback cause p e).1.left InFlight.size = 0 := by
  cases p with
  | finished r => exact .inr rfl
  | suspended s =>
    cases hi : e.interrupts f.context with
    | true =>
      rw [settleFallback_interrupted hi]
      exact .inr rfl
    | false => exact .inl ⟨s, rfl, rfl, settleFallback_suspended hi⟩

theorem left_startFallback {n : Nat} (cause : CallError) (hb : ∀ e, (begin e).1.left Suspended.size ≤ n) :
    (f.startFallback cause begin e).1.left InFlight.size ≤ n + 2 := by
  cases ha : e.acquire? f.circuit .fallback with
  | none =>
    rw [startFallback_of_full ha]
    exact Nat.zero_le _
  | some e' =>
    rw [startFallback_of_acquired ha]
    have hle := hb e'
    rcases f.settleFallback_cases (begin e').2 cause (begin e').1 with ⟨s, hs, -, heq⟩ | hzero
    · rw [hs] at hle
      rw [heq]
      exact Nat.add_le_add_right hle 2
    · omega

variable (hr : ∀ r, rescue = some r → ∀ e, (r.begin e).1.left Suspended.size ≤ r.work.size)
include hr

theorem left_afterPrimary (result : CallResult α) :
    (f.afterPrimary result rescue e).1.left InFlight.size ≤ Rescue.bound rescue := by
  rcases allowed_or_not result rescue with ⟨cause, r, rfl, rfl, hallows⟩ | hnot
  · rw [afterPrimary_of_allowed hallows]
    exact f.left_startFallback e cause (hr r rfl)
  · rw [afterPrimary_of_not_allowed hnot]
    exact Nat.zero_le _

/-- A primary part goes on waiting, or at most the fallback is left. -/
theorem settlePrimary_cases (due : Nat) (p : Progress (Suspended α) (WorkResult α)) :
    (∃ s, p = .suspended s ∧ e.now < due ∧ e.interrupts f.context = false ∧
      f.settlePrimary due rescue p e = (.suspended ⟨f, .primary due (rescue.map (·.work)), s⟩, e.enter f.context)) ∨
    (f.settlePrimary due rescue p e).1.left InFlight.size ≤ Rescue.bound rescue := by
  cases p with
  | finished r => exact .inr (f.left_afterPrimary _ hr _)
  | suspended s =>
    by_cases hd : due ≤ e.now
    · rw [settlePrimary_timedOut hd]
      exact .inr (f.left_afterPrimary _ hr _)
    · cases hi : e.interrupts f.context with
      | true =>
        rw [settlePrimary_interrupted (by omega) hi]
        exact .inr (f.left_afterPrimary _ hr _)
      | false => exact .inl ⟨s, rfl, by omega, rfl, settlePrimary_suspended (by omega) hi⟩

/-- A call that is begun takes what its work takes and a little more. -/
theorem left_startCall {n : Nat} (hb : ∀ e, (begin e).1.left Suspended.size < n ∨
      (begin e).1.left Suspended.size = n ∧ (begin e).2.signals.raisedCount = e.signals.raisedCount) :
    (f.startCall begin rescue e).1.left InFlight.size < n + 2 + Rescue.bound rescue ∨
      (f.startCall begin rescue e).1.left InFlight.size = n + 2 + Rescue.bound rescue ∧
        (f.startCall begin rescue e).2.signals.raisedCount = e.signals.raisedCount := by
  cases hopen : f.circuit.limits.forceOpen with
  | true =>
    have := f.left_afterPrimary (e.report f.circuit .shortCircuited) hr (.error .shortCircuited)
    rw [startCall_of_open hopen]
    omega
  | false =>
    cases ha : e.acquire? f.circuit .primary with
    | none =>
      have := f.left_afterPrimary (e.report f.circuit .concurrencyRejected) hr (.error .concurrencyRejected)
      rw [startCall_of_full hopen ha]
      omega
    | some e' =>
      rw [startCall_of_acquired hopen ha]
      rcases f.settlePrimary_cases (begin e').2 hr (e'.now + f.circuit.limits.timeout) (begin e').1 with
        ⟨s, hs, -, -, heq⟩ | hle
      · have hbegin := hb e'
        rw [hs, Engine.signals_acquire? ha] at hbegin
        rw [heq, Progress.left, InFlight.size_primary, Engine.raisedCount_enter]
        simp only [Progress.left] at hbegin
        omega
      · omega

end Frame

/-! ## Work -/

/-- Begun work has fewer steps left, unless it waits and has raised no signal. -/
theorem Work.left_start (w : Work α) (ctx : Context) (e : Engine) :
    (w.start ctx e).1.left Suspended.size < w.size ∨ (w.start ctx e).1.left Suspended.size = w.size ∧
      (w.start ctx e).2.signals.raisedCount = e.signals.raisedCount := by
  induction w generalizing ctx e with
  | done => exact .inl Nat.one_pos
  | hang => exact .inr ⟨rfl, rfl⟩
  | raise signal rest ih =>
    have := ih ctx (e.cancel signal)
    simp only [Work.start, Work.size]
    omega
  | wait ms rest ih =>
    simp only [Work.start]
    split
    · have := ih ctx e
      simp only [Work.size]
      omega
    · exact .inr ⟨rfl, rfl⟩
  | call circuit d work ih =>
    simp only [Work.start, Progress.left_ofCall]
    exact Frame.left_startCall ⟨circuit, _⟩ e (fun _ h => by cases h) (ih _)
  | callOr circuit d work rescue ih ihr =>
    simp only [Work.start, Progress.left_ofCall]
    have hsize : (Work.callOr circuit d work rescue).size = work.size + 2 + (rescue.size + 2) := by
      simp only [Work.size]
      omega
    rw [hsize]
    refine Frame.left_startCall ⟨circuit, _⟩ e ?_ (ih _)
    intro r h e'
    cases h
    rcases ihr (ctx.derive e.now d) e' with hlt | ⟨heq, -⟩
    · exact Nat.le_of_lt hlt
    · exact Nat.le_of_eq heq

theorem Work.left_start_le (w : Work α) (ctx : Context) (e : Engine) :
    (w.start ctx e).1.left Suspended.size ≤ w.size := by
  have := w.left_start ctx e
  omega

/-! ## Suspended work and calls -/

/-- The fallback that a suspended primary part may start is bounded by its work. -/
theorem Rescue.left_begin_le {rescue : Option (Work α)} {x : Context} {r : Rescue α}
    (h : rescue.map (fun w => ⟨w, w.start x⟩) = some r) (e : Engine) :
    (r.begin e).1.left Suspended.size ≤ r.work.size := by
  obtain ⟨w, -, rfl⟩ := Option.map_eq_some_iff.mp h
  exact w.left_start_le x e

/-- What a settled call has left, from what its polled work has left: less than before, unless the work goes on waiting,
neither the time of the circuit nor the deadline has come, and no signal was raised. -/
theorem Frame.left_settle {f : Frame} {stage : Stage α} {p : Progress (Suspended α) (WorkResult α)} {e₀ e : Engine}
    {inner : Suspended α} (hnow : e.now = e₀.now)
    (hp : p.left Suspended.size < inner.size ∨ p.left Suspended.size = inner.size ∧
      e.signals.raisedCount = e₀.signals.raisedCount ∧ e₀.now ∉ inner.wakes) :
    (f.settle stage p e).1.left InFlight.size < InFlight.size ⟨f, stage, inner⟩ ∨
      (f.settle stage p e).1.left InFlight.size = InFlight.size ⟨f, stage, inner⟩ ∧
        (f.settle stage p e).2.signals.raisedCount = e₀.signals.raisedCount ∧
          e₀.now ∉ InFlight.wakes ⟨f, stage, inner⟩ := by
  -- a call that goes on waiting is not due, and no deadline has come
  have hdeadline : e.interrupts f.context = false → e₀.now ∉ f.context.deadline.toList := by
    intro hi hmem
    rw [← Bool.not_eq_true, Engine.interrupts_eq_true_iff] at hi
    exact hi (.inl ⟨e₀.now, Option.mem_toList.mp hmem, Nat.le_of_eq hnow.symm⟩)
  cases stage with
  | primary due rescue =>
    have hsize : InFlight.size ⟨f, .primary due rescue, inner⟩ = inner.size + 2 +
        Rescue.bound (rescue.map fun w => ⟨w, w.start f.context⟩) := by cases rescue <;> rfl
    rcases f.settlePrimary_cases e (fun r h e => Rescue.left_begin_le h e) due p with ⟨s, rfl, hdue, hi, heq⟩ | hle
    · simp only [Progress.left] at hp
      rw [Frame.settle, heq, Progress.left, InFlight.size_primary, hsize, Engine.raisedCount_enter]
      rcases hp with hlt | ⟨hsame, hc, hw⟩
      · exact .inl (by omega)
      · refine .inr ⟨by omega, hc, ?_⟩
        have := hdeadline hi
        simp only [InFlight.wakes, Suspended.wakes, Stage.wakes, List.mem_append, List.mem_singleton]
        rintro ((h | h) | h)
        · omega
        · exact this h
        · exact hw h
    · rw [Frame.settle, hsize]
      omega
  | fallback cause =>
    rcases f.settleFallback_cases e cause p with ⟨s, rfl, hi, heq⟩ | hzero
    · simp only [Progress.left] at hp
      rw [Frame.settle, heq, Engine.raisedCount_enter]
      change s.size + 2 < inner.size + 2 ∨ s.size + 2 = inner.size + 2 ∧ _
      rcases hp with hlt | ⟨hsame, hc, hw⟩
      · exact .inl (by omega)
      · refine .inr ⟨by omega, hc, ?_⟩
        have := hdeadline hi
        simp only [InFlight.wakes, Suspended.wakes, Stage.wakes, List.nil_append, List.mem_append]
        rintro (h | h)
        · exact this h
        · exact hw h
    · rw [Frame.settle, hzero]
      exact .inl (Nat.succ_pos _)

/-- **A poll of suspended work lowers the bound**, unless it goes on waiting, was not due and has raised no signal. -/
theorem Suspended.left_poll (s : Suspended α) (ctx : Context) (e : Engine) :
    (s.poll ctx e).1.left Suspended.size < s.size ∨ (s.poll ctx e).1.left Suspended.size = s.size ∧
      (s.poll ctx e).2.signals.raisedCount = e.signals.raisedCount ∧ e.now ∉ s.wakes := by
  induction s generalizing ctx e with
  | waiting due rest =>
    simp only [Suspended.poll]
    split
    · have := rest.left_start_le ctx e
      simp only [Suspended.size]
      omega
    · refine .inr ⟨rfl, rfl, ?_⟩
      intro h
      rw [Suspended.wakes, List.mem_singleton] at h
      omega
  | hanging => exact .inr ⟨rfl, rfl, List.not_mem_nil⟩
  | calling f stage inner ih =>
    have hinner := ih f.context (e.leave f.context)
    rw [Engine.raisedCount_leave, Engine.now_leave] at hinner
    simp only [Suspended.poll, Progress.left_ofCall]
    refine Frame.left_settle ?_ hinner
    rw [(inner.acts_poll f.context _).now_eq, Engine.now_leave]

/-- **A poll of a call lowers the bound**, under the same proviso. -/
theorem InFlight.left_poll (c : InFlight α) (e : Engine) :
    (c.poll e).1.left InFlight.size < c.size ∨ (c.poll e).1.left InFlight.size = c.size ∧
      (c.poll e).2.signals.raisedCount = e.signals.raisedCount ∧ e.now ∉ c.wakes := by
  have := Suspended.left_poll (.calling c.frame c.stage c.inner) {} e
  rwa [show (Suspended.calling c.frame c.stage c.inner).poll {} e = ((c.poll e).1.ofCall, (c.poll e).2) from rfl,
    Progress.left_ofCall] at this

/-! ## Tasks -/

theorem Call.left_start (c : Call α) (x : Context) (e : Engine) :
    (c.start x e).1.left InFlight.size < c.work.size + (c.rescue.map Work.size).getD 0 + 5 := by
  have hbound : Rescue.bound (c.rescue.map fun w => ⟨w, w.start x⟩) ≤ (c.rescue.map Work.size).getD 0 + 2 := by
    cases c.rescue with
    | none => exact Nat.zero_le _
    | some w => exact Nat.le_refl _
  have hr : ∀ r, (c.rescue.map fun w => (⟨w, w.start x⟩ : Rescue α)) = some r →
      ∀ e, (r.begin e).1.left Suspended.size ≤ r.work.size := fun _ h e => Rescue.left_begin_le h e
  have hstart := Frame.left_startCall ⟨c.circuit, x⟩ e hr (c.work.left_start x)
  rw [Call.start]
  omega

namespace Task

theorem size_ofProgress (x : Context) (p : Progress (InFlight α) (Completion α) × Engine) :
    (ofProgress x p).1.size = p.1.left InFlight.size := by
  obtain ⟨f | c, e⟩ := p <;> rfl

theorem size_poll (t : Task α) (e : Engine) : (t.poll e).1.size < t.size ∨
    (t.poll e).1.size = t.size ∧ (t.poll e).2.signals.raisedCount = e.signals.raisedCount ∧ e.now ∉ t.wakes := by
  cases t with
  | planned start a =>
    rw [poll]
    split
    · left
      cases a with
      | call c =>
        rw [Action.start, size_ofProgress]
        exact c.left_start _ e
      | cancel | observe | probe => exact Nat.two_pos
    · refine .inr ⟨rfl, rfl, ?_⟩
      intro h
      rw [wakes, List.mem_singleton] at h
      omega
  | running f =>
    rw [poll, size_ofProgress, ofProgress_snd]
    exact f.left_poll e
  | ended r => exact .inr ⟨rfl, rfl, List.not_mem_nil⟩

/-- **A round of polls lowers the bound**, unless no task was due and no signal was raised. -/
theorem sizeAll_pollAll (ts : List (Task α)) (e : Engine) : sizeAll (pollAll ts e).1 < sizeAll ts ∨
    sizeAll (pollAll ts e).1 = sizeAll ts ∧ (pollAll ts e).2.signals.raisedCount = e.signals.raisedCount ∧
      ∀ t ∈ ts, e.now ∉ t.wakes := by
  induction ts generalizing e with
  | nil => exact .inr ⟨rfl, rfl, fun _ h => absurd h List.not_mem_nil⟩
  | cons t ts ih =>
    have hhead := t.size_poll e
    have htail := ih (t.poll e).2
    rw [(t.acts_poll e).now_eq] at htail
    simp only [pollAll, sizeAll] at htail ⊢
    rcases hhead with hlt | ⟨hsame, hc, hw⟩
    · exact .inl (by omega)
    · rcases htail with hlt' | ⟨hsame', hc', hw'⟩
      · exact .inl (by omega)
      · refine .inr ⟨by omega, hc'.trans hc, ?_⟩
        intro u hu
        rcases List.mem_cons.mp hu with rfl | hu
        · exact hw
        · exact hw' u hu

end Task
end CallGuard
