import CallGuard.Proofs.Execution.Threads

/-!
# Refusals for want of a permit

A call asks for a permit twice at most: for its primary part, unless the circuit is open, and for its fallback
(`Control.asks?`). Either may be refused (`Control.refusal?`).

**Main statement.** A section refuses a part of a call exactly if it asks for a permit for that part and there is none
(`Thread.refuses_iff`): no other way leads to the result of a refused call or to the answer of a refused fallback.
-/

namespace CallGuard

variable {α : Type}

/-- The permit that a call asks for next: none for its primary part if the circuit is open. -/
def Control.asks? : Control α → Option (Frame × Part)
  | .call f .. => if f.circuit.limits.forceOpen then none else some (f, .primary)
  | .rescue f .. => some (f, .fallback)
  | _ => none

/-- The part of a call that was refused just now for want of a permit. -/
def Control.refusal? : Control α → Option Part
  | .decided _ (.error .concurrencyRejected) _ => some .primary
  | .answer (.finished ⟨_, _, .error (.fallbackRejected _)⟩) => some .fallback
  | _ => none

/-- The next section of the thread refuses a part of a call for want of a permit. -/
def Thread.Refuses (t : Thread α) (e : Engine) (part : Part) : Prop :=
  t.control.refusal? = none ∧ (t.step e).1.control.refusal? = some part

/-! ## Results that are no refusals -/

theorem Ending.result_ne_fallbackRejected (x : Ending α) (limits : Limits) (cause : CallError) :
    x.result limits ≠ .error (.fallbackRejected cause) := by
  cases x with
  | own r => rcases r with ⟨m | m⟩ | v <;> exact fun h => by cases h
  | timedOut | interrupted => exact fun h => by cases h

theorem Ending.result_ne_concurrencyRejected (x : Ending α) (limits : Limits) :
    x.result limits ≠ .error .concurrencyRejected := by
  cases x with
  | own r => rcases r with ⟨m | m⟩ | v <;> exact fun h => by cases h
  | timedOut | interrupted => exact fun h => by cases h

theorem fallbackAnswer_ne_fallbackRejected {cause : CallError} (r : Option (WorkResult α)) (cause' : CallError) :
    fallbackAnswer cause r ≠ .error (.fallbackRejected cause') := by
  rcases r with _ | err | v <;> exact fun h => by cases h

/-- The result of a primary part, before any fallback, is not that of a fallback that was refused. -/
def Control.Primary : Control α → Prop
  | .decided _ result _ => ∀ cause, result ≠ .error (.fallbackRejected cause)
  | _ => True

namespace Control

theorem refusal?_decided {f : Frame} {result : CallResult α} {rescue : Option (Work α)}
    (h : result ≠ .error .concurrencyRejected) : (Control.decided f result rescue).refusal? = none := by
  rcases result with cause | v
  · cases cause <;> first | rfl | exact absurd rfl h
  · rfl

theorem refusal?_answer {k : Completion α} (h : ∀ cause, k.answer ≠ .error (.fallbackRejected cause)) :
    (Control.answer (.finished k)).refusal? = none := by
  obtain ⟨primary, saw, answer⟩ := k
  rcases answer with cause | v
  · cases cause <;> first | rfl | exact absurd rfl (h _)
  · rfl

end Control

/-! ## The sections -/

namespace Thread

/-- A section that decides on a result of a primary part decides on one of its own. -/
theorem Section.primary {t t' : Thread α} {e e' : Engine} (h : Section t e t' e') (hp : t.control.Primary) :
    t'.control.Primary := by
  cases h with
  | callOpen | callFull => exact fun cause h => by cases h
  | closePrimary f _ _ x => exact x.result_ne_fallbackRejected f.circuit.limits
  | _ => trivial

/-- A section that asks for no permit refuses none. -/
theorem Section.refusal?_of_asks?_none {t t' : Thread α} {e e' : Engine} (h : Section t e t' e')
    (hp : t.control.Primary) (ha : t.control.asks? = none) (hbefore : t.control.refusal? = none) :
    t'.control.refusal? = none := by
  cases h with
  | callFull f _ _ _ _ hopen => simp [Control.asks?, hopen] at ha
  | rescueFull => cases ha
  | closePrimary f _ _ x => exact Control.refusal?_decided (x.result_ne_concurrencyRejected f.circuit.limits)
  | closeFallback _ cause x =>
    exact Control.refusal?_answer (k := ⟨.error cause, some cause, fallbackAnswer cause x.own?⟩)
      (fallbackAnswer_ne_fallbackRejected x.own?)
  | keep _ result => exact Control.refusal?_answer (k := ⟨result, none, result⟩) hp
  | answered => exact hbefore
  | _ => rfl

/-- A section refuses a part of a call exactly if it asks for a permit for it and there is none. -/
theorem refuses_iff {t : Thread α} {e : Engine} {part : Part} (hp : t.control.Primary) :
    t.Refuses e part ↔ ∃ f, t.control.asks? = some (f, part) ∧ e.acquire? f.circuit part = none := by
  unfold Refuses
  have hsection := t.section_step e
  generalize (t.step e).1 = t', (t.step e).2 = e' at hsection ⊢
  cases hasks : t.control.asks? with
  | none =>
    refine ⟨fun ⟨hbefore, hafter⟩ => ?_, fun ⟨_, h, _⟩ => nomatch h⟩
    cases (hsection.refusal?_of_asks?_none hp hasks hbefore).symm.trans hafter
  | some asked =>
    cases hsection with
    | callOpen f _ _ _ _ hopen => simp [Control.asks?, hopen] at hasks
    | callFull f _ _ _ _ hopen hfull =>
      obtain rfl : (f, Part.primary) = asked := by simpa [Control.asks?, hopen] using hasks
      constructor
      · rintro ⟨-, ⟨⟩⟩
        exact ⟨f, rfl, hfull⟩
      · rintro ⟨_, ⟨⟩, -⟩
        exact ⟨rfl, rfl⟩
    | callTaken f _ _ _ _ _ hopen htaken =>
      obtain rfl : (f, Part.primary) = asked := by simpa [Control.asks?, hopen] using hasks
      constructor
      · rintro ⟨-, ⟨⟩⟩
      · rintro ⟨_, ⟨⟩, hfull⟩
        cases htaken.symm.trans hfull
    | rescueFull f _ _ _ _ hfull =>
      obtain rfl : (f, Part.fallback) = asked := by simpa [Control.asks?] using hasks
      constructor
      · rintro ⟨-, ⟨⟩⟩
        exact ⟨f, rfl, hfull⟩
      · rintro ⟨_, ⟨⟩, -⟩
        exact ⟨rfl, rfl⟩
    | rescueTaken f _ _ _ _ _ htaken =>
      obtain rfl : (f, Part.fallback) = asked := by simpa [Control.asks?] using hasks
      constructor
      · rintro ⟨-, ⟨⟩⟩
      · rintro ⟨_, ⟨⟩, hfull⟩
        cases htaken.symm.trans hfull
    | _ => cases hasks

end Thread
end CallGuard
