import Mathlib.Logic.Relation
import CallGuard.Execution.Group
import CallGuard.Proofs.Execution.Stages

/-!
# Every poll is a row of elementary acts

`Engine.Act` lists the elementary acts of guarded calls, and `Engine.Acts` is any number of them in a row. Whatever work
is begun, whatever call or group of tasks is polled: what it does to the engine is such a row
(`Work.acts_start`, `Suspended.acts_poll`, `InFlight.acts_poll`, `Task.acts_pollAll`). So what each act keeps, every poll
keeps.
-/

namespace CallGuard

variable {α : Type}

namespace Engine

/-- One elementary act of a guarded call. -/
inductive Act : Engine → Engine → Prop
  | acquire {e e' : Engine} {c : Circuit} {p : Part} : e.acquire? c p = some e' → Act e e'
  | release (e : Engine) (c : Circuit) (p : Part) : Act e (e.release c p)
  | cancel (e : Engine) (signal : String) : Act e (e.cancel signal)
  | enter (e : Engine) (x : Context) : Act e (e.enter x)
  | leave (e : Engine) (x : Context) : Act e (e.leave x)
  | note (e : Engine) (event : Event) : Act e (e.note event)
  | report (e : Engine) (c : Circuit) (o : CallOutcome) : Act e (e.report c o)
  | reportFallback (e : Engine) (c : Circuit) (o : FallbackOutcome) : Act e (e.reportFallback c o)

/-- Elementary acts in a row. -/
def Acts : Engine → Engine → Prop := Relation.ReflTransGen Act

namespace Acts

variable {e e₁ e₂ : Engine}

theorem refl (e : Engine) : Acts e e := Relation.ReflTransGen.refl

theorem trans (h₁ : Acts e e₁) (h₂ : Acts e₁ e₂) : Acts e e₂ := Relation.ReflTransGen.trans h₁ h₂

theorem add (h₁ : Acts e e₁) (h₂ : Act e₁ e₂) : Acts e e₂ := Relation.ReflTransGen.tail h₁ h₂

theorem single (h : Act e e₁) : Acts e e₁ := Relation.ReflTransGen.single h

/-- No act moves the clock. -/
theorem now_eq (h : Acts e e₁) : e₁.now = e.now := by
  induction h with
  | refl => rfl
  | tail _ hact ih =>
    rw [← ih]
    cases hact with
    | acquire ha => exact now_acquire? ha
    | enter => exact now_enter ..
    | leave => exact now_leave ..
    | _ => rfl

end Acts
end Engine

open Engine (Act Acts)

/-! ## The stages of a call -/

theorem Suspended.acts_abandon (s : Suspended α) (e : Engine) : Acts e (s.abandon e) := by
  induction s generalizing e with
  | waiting | hanging => exact .refl e
  | calling f stage inner ih => exact ((ih e).add (.leave _ _)).add (.release _ _ _)

namespace Frame

variable (f : Frame) (e : Engine)

theorem acts_closePrimary (o : CallOutcome) : Acts e (f.closePrimary o e) := by
  unfold closePrimary
  dsimp only
  split
  · exact (Acts.single (.report e _ o)).add (.release _ _ _)
  · exact ((Acts.single (.report e _ o)).add (.note _ _)).add (.release _ _ _)

theorem acts_closeFallback (o : FallbackOutcome) : Acts e (f.closeFallback o e) := by
  unfold closeFallback
  dsimp only
  split
  · exact (Acts.single (.reportFallback e _ o)).add (.release _ _ _)
  · exact ((Acts.single (.reportFallback e _ o)).add (.note _ _)).add (.release _ _ _)

theorem acts_settleFallback (cause : CallError) (p : Progress (Suspended α) (WorkResult α)) :
    Acts e (f.settleFallback cause p e).2 := by
  cases p with
  | finished r => exact f.acts_closeFallback e _
  | suspended s =>
    cases hi : e.interrupts f.context with
    | true =>
      rw [settleFallback_interrupted hi]
      exact (s.acts_abandon e).trans (f.acts_closeFallback _ _)
    | false =>
      rw [settleFallback_suspended hi]
      exact .single (.enter e _)

variable {rescue : Option (Rescue α)} {begin : Poll (Suspended α) (WorkResult α)}

theorem acts_startFallback (cause : CallError) (hb : ∀ e, Acts e (begin e).2) :
    Acts e (f.startFallback cause begin e).2 := by
  cases ha : e.acquire? f.circuit .fallback with
  | none =>
    rw [startFallback_of_full ha]
    exact .single (.reportFallback e _ _)
  | some e' =>
    rw [startFallback_of_acquired ha]
    exact ((Acts.single (.acquire ha)).trans (hb e')).trans (f.acts_settleFallback _ _ _)

theorem acts_afterPrimary (result : CallResult α) (hr : ∀ r, rescue = some r → ∀ e, Acts e (r.begin e).2) :
    Acts e (f.afterPrimary result rescue e).2 := by
  rcases allowed_or_not result rescue with ⟨cause, r, rfl, rfl, hallows⟩ | hnot
  · rw [afterPrimary_of_allowed hallows]
    exact f.acts_startFallback e cause (hr r rfl)
  · rw [afterPrimary_of_not_allowed hnot]
    exact .refl e

theorem acts_settlePrimary (due : Nat) (p : Progress (Suspended α) (WorkResult α))
    (hr : ∀ r, rescue = some r → ∀ e, Acts e (r.begin e).2) : Acts e (f.settlePrimary due rescue p e).2 := by
  have hclose : ∀ (x : Ending α) e, Acts e
      (f.afterPrimary (x.result f.circuit.limits) rescue (f.closePrimary x.outcome e)).2 := fun x e =>
    (f.acts_closePrimary e _).trans (f.acts_afterPrimary _ _ hr)
  cases p with
  | finished r => exact hclose (.own r) e
  | suspended s =>
    by_cases hd : due ≤ e.now
    · rw [settlePrimary_timedOut hd]
      exact (s.acts_abandon e).trans (hclose .timedOut _)
    · cases hi : e.interrupts f.context with
      | true =>
        rw [settlePrimary_interrupted (by omega) hi]
        exact (s.acts_abandon e).trans (hclose .interrupted _)
      | false =>
        rw [settlePrimary_suspended (by omega) hi]
        exact .single (.enter e _)

theorem acts_startCall (hb : ∀ e, Acts e (begin e).2) (hr : ∀ r, rescue = some r → ∀ e, Acts e (r.begin e).2) :
    Acts e (f.startCall begin rescue e).2 := by
  cases hopen : f.circuit.limits.forceOpen with
  | true =>
    rw [startCall_of_open hopen]
    exact (Acts.single (.report e _ _)).trans (f.acts_afterPrimary _ _ hr)
  | false =>
    cases ha : e.acquire? f.circuit .primary with
    | none =>
      rw [startCall_of_full hopen ha]
      exact (Acts.single (.report e _ _)).trans (f.acts_afterPrimary _ _ hr)
    | some e' =>
      rw [startCall_of_acquired hopen ha]
      exact ((Acts.single (.acquire ha)).trans (hb e')).trans (f.acts_settlePrimary _ _ _ hr)

end Frame

/-! ## Polls -/

theorem Work.acts_start (w : Work α) (ctx : Context) (e : Engine) : Acts e (w.start ctx e).2 := by
  induction w generalizing ctx e with
  | done | hang => exact .refl e
  | raise signal rest ih => exact (Acts.single (.cancel e signal)).trans (ih ctx _)
  | wait ms rest ih =>
    simp only [Work.start]
    split
    · exact ih ctx e
    · exact .refl e
  | call circuit d work ih => exact Frame.acts_startCall ⟨circuit, _⟩ e (ih _) (fun _ h => by cases h)
  | callOr circuit d work rescue ih ihr =>
    exact Frame.acts_startCall ⟨circuit, _⟩ e (ih _) (fun _ h => by cases h; exact ihr _)

theorem Frame.acts_settle (f : Frame) (stage : Stage α) (p : Progress (Suspended α) (WorkResult α)) (e : Engine) :
    Acts e (f.settle stage p e).2 := by
  cases stage with
  | primary due rescue =>
    refine f.acts_settlePrimary e due p ?_
    intro r hr e
    obtain ⟨w, -, rfl⟩ := Option.map_eq_some_iff.mp hr
    exact w.acts_start f.context e
  | fallback cause => exact f.acts_settleFallback e cause p

theorem Suspended.acts_poll (s : Suspended α) (ctx : Context) (e : Engine) : Acts e (s.poll ctx e).2 := by
  induction s generalizing ctx e with
  | waiting due rest =>
    simp only [Suspended.poll]
    split
    · exact rest.acts_start ctx e
    · exact .refl e
  | hanging => exact .refl e
  | calling f stage inner ih =>
    exact ((Acts.single (.leave e f.context)).trans (ih _ _)).trans (f.acts_settle stage _ _)

theorem InFlight.acts_poll (c : InFlight α) (e : Engine) : Acts e (c.poll e).2 :=
  ((Acts.single (.leave e _)).trans (c.inner.acts_poll _ _)).trans (c.frame.acts_settle c.stage _ _)

theorem Call.acts_start (c : Call α) (context : Context) (e : Engine) : Acts e (c.start context e).2 := by
  refine Frame.acts_startCall _ e (c.work.acts_start context) ?_
  intro r hr e
  obtain ⟨w, -, rfl⟩ := Option.map_eq_some_iff.mp hr
  exact w.acts_start context e

namespace Task

theorem ofProgress_snd (context : Context) (p : Progress (InFlight α) (Completion α) × Engine) :
    (ofProgress context p).2 = p.2 := by
  obtain ⟨f | c, e⟩ := p <;> rfl

theorem acts_poll (t : Task α) (e : Engine) : Acts e (t.poll e).2 := by
  cases t with
  | planned start a =>
    simp only [poll]
    split
    · cases a with
      | call c =>
        rw [Action.start, ofProgress_snd]
        exact c.acts_start _ e
      | cancel s => exact .single (.cancel e s)
      | observe | probe => exact .refl e
    · exact .refl e
  | running f =>
    rw [poll, ofProgress_snd]
    exact f.acts_poll e
  | ended => exact .refl e

theorem acts_pollAll (ts : List (Task α)) (e : Engine) : Acts e (pollAll ts e).2 := by
  induction ts generalizing e with
  | nil => exact .refl e
  | cons t ts ih => exact (t.acts_poll e).trans (ih _)

end Task
end CallGuard
