import CallGuard.Proofs.Execution.Instant
import CallGuard.Proofs.Execution.Signals

/-!
# Which event ends a call, and when

A `Race` is a call whose work ends by itself after a delay, or never. Three instants race for the end of its primary
part: that of the work, that at which the circuit's time runs out, and that at which the context interrupts, the earlier
of its deadline and of the first raising of its signal, but not before the part has begun. The earliest wins, the former
of two at one instant (`Race.primary`). A fallback begins at that instant and races with the context only
(`Race.fallback`). An event that never comes has the instant `never`.

`Race.Course` says how such a call can stand at an instant: planned, in one of its parts, or ended as the race is decided
(`Race.verdict`). **Main statement** (`Race.Course.poll`): a poll leads from one such standing to another, misses no
event, and goes past every event of its instant once the signal of the context is raised for it.
-/

namespace CallGuard

variable {α : Type}

/-! ## Delayed work -/

/-- Work that ends by itself after a delay, or never. -/
structure Delayed (α : Type) where
  delay : Option Nat
  result : WorkResult α

namespace Delayed

/-- The work itself. -/
def work (w : Delayed α) : Work α :=
  match w.delay with
  | some d => .wait d (.done w.result)
  | none => .hang

/-- The instant of its end, if it is begun at `t`. -/
def doneAt (w : Delayed α) (t : Instant) : Instant := t.after w.delay

/-- How it is suspended, if it is begun at `t`. -/
def suspended (w : Delayed α) (t : Nat) : Suspended α :=
  match w.delay with
  | some d => .waiting (t + d) (.done w.result)
  | none => .hanging

/-- Where it stands at `now`, if it is begun at `t`. -/
def stand (w : Delayed α) (t now : Nat) : Progress (Suspended α) (WorkResult α) :=
  if w.doneAt t ≤ now then .finished w.result else .suspended (w.suspended t)

variable (w : Delayed α) (x : Context) (e : Engine) (t : Nat)

theorem doneAt_le_iff (now : Nat) : w.doneAt t ≤ now ↔ ∃ d, w.delay = some d ∧ t + d ≤ now := by
  unfold doneAt
  cases w.delay with
  | none => exact ⟨False.elim, nofun⟩
  | some d => exact ⟨fun h => ⟨d, rfl, h⟩, fun ⟨_, hd, h⟩ => by cases hd; exact h⟩

theorem stand_of_some {d : Nat} (hd : w.delay = some d) (now : Nat) : w.stand t now =
    if t + d ≤ now then .finished w.result else .suspended (.waiting (t + d) (.done w.result)) := by
  unfold stand suspended
  rw [hd]
  refine if_congr ((w.doneAt_le_iff t now).trans ⟨?_, fun h => ⟨d, hd, h⟩⟩) rfl rfl
  rintro ⟨d', hd', h⟩
  cases hd.symm.trans hd'
  exact h

theorem stand_of_none (hd : w.delay = none) (now : Nat) : w.stand t now = .suspended .hanging := by
  unfold stand suspended
  rw [hd, if_neg fun h => ?_]
  obtain ⟨d, hd', -⟩ := (w.doneAt_le_iff t now).mp h
  cases hd.symm.trans hd'

theorem start_work : w.work.start x e = (w.stand e.now e.now, e) := by
  unfold work
  cases hd : w.delay with
  | none =>
    rw [stand_of_none w _ hd]
    rfl
  | some d =>
    rw [stand_of_some w _ hd]
    simp only [Work.start]
    by_cases hzero : d = 0
    · rw [if_pos hzero, if_pos (by omega)]
    · rw [if_neg hzero, if_neg (by omega)]

theorem poll_suspended : (w.suspended t).poll x e = (w.stand t e.now, e) := by
  unfold suspended
  cases hd : w.delay with
  | none =>
    rw [stand_of_none w _ hd]
    rfl
  | some d =>
    rw [stand_of_some w _ hd]
    simp only [Suspended.poll, Work.start]
    split <;> rfl

theorem abandon_suspended : (w.suspended t).abandon e = e := by
  unfold suspended
  cases w.delay <;> rfl

/-- Suspended work asks to be polled at its end. -/
theorem mem_wakes_suspended {n : Nat} (h : w.doneAt t = n) : n ∈ (w.suspended t).wakes := by
  unfold doneAt at h
  unfold suspended
  cases hd : w.delay with
  | none =>
    rw [hd] at h
    cases h
  | some d =>
    rw [hd] at h
    cases h
    exact List.mem_singleton_self _

end Delayed

/-! ## How a race is decided -/

/-- A call of delayed work in a context whose signal is first raised at `cancel`, and the instant of its beginning. -/
structure Race (α : Type) where
  frame : Frame
  cancel : Instant
  begun : Nat
  work : Delayed α
  rescue : Option (Delayed α)

namespace Race

/-- The instant at which the circuit's time runs out. -/
def limit (r : Race α) : Nat := r.begun + r.frame.circuit.limits.timeout

/-- The instant at which the context interrupts a part that is begun at `t`. -/
def interruption (r : Race α) (t : Instant) : Instant :=
  max t (min (.ofOption r.frame.context.deadline) r.cancel)

/-- How the primary part ends, and when. -/
def primary (r : Race α) : Ending α × Instant :=
  let f := r.work.doneAt r.begun
  let o : Instant := r.limit
  let i := r.interruption r.begun
  if f ≤ o ∧ f ≤ i then (.own r.work.result, f)
  else if o ≤ i then (.timedOut, o)
  else (.interrupted, i)

/-- How a fallback ends that is begun at `t`, by its own work or without it, and when. -/
def fallback (r : Race α) (w : Delayed α) (t : Instant) : Option (WorkResult α) × Instant :=
  if w.doneAt t ≤ r.interruption t then (some w.result, w.doneAt t) else (none, r.interruption t)

/-- The result of the primary part. -/
def result (r : Race α) : CallResult α := r.primary.1.result r.frame.circuit.limits

/-- The primary error, if it calls for a fallback and there is one, with that fallback. -/
def rescued? (r : Race α) : Option (CallError × Delayed α) :=
  match r.result, r.rescue with
  | .error cause, some w => if cause.allowsFallback then some (cause, w) else none
  | _, _ => none

/-- How the call is completed, and when. -/
def verdict (r : Race α) : Completion α × Instant :=
  match r.rescued? with
  | some (cause, w) =>
    (⟨r.result, some cause, fallbackAnswer cause (r.fallback w r.primary.2).1⟩, (r.fallback w r.primary.2).2)
  | none => (⟨r.result, none, r.result⟩, r.primary.2)

variable (r : Race α)

theorem primary_snd : r.primary.2 = min (r.work.doneAt r.begun) (min (r.limit : Instant) (r.interruption r.begun)) := by
  unfold primary
  dsimp only
  split
  · rename_i h
    exact (min_eq_left (le_min h.1 h.2)).symm
  · rename_i h
    have hlt : min (r.limit : Instant) (r.interruption r.begun) < r.work.doneAt r.begun := by
      rw [← not_le, le_min_iff]
      exact h
    rw [min_eq_right hlt.le]
    split
    · rename_i h'
      exact (min_eq_left h').symm
    · rename_i h'
      exact (min_eq_right (not_le.mp h').le).symm

theorem fallback_snd (w : Delayed α) (t : Instant) : (r.fallback w t).2 = min (w.doneAt t) (r.interruption t) := by
  unfold fallback
  split
  · rename_i h
    exact (min_eq_left h).symm
  · rename_i h
    exact (min_eq_right (not_le.mp h).le).symm

variable {r} {n : Instant}

theorem primary_of_done (hn : n ≤ r.primary.2) (hf : r.work.doneAt r.begun ≤ n) :
    r.primary = (.own r.work.result, n) := by
  rw [primary_snd, le_min_iff, le_min_iff] at hn
  unfold primary
  rw [if_pos ⟨hf.trans hn.2.1, hf.trans hn.2.2⟩, hf.antisymm hn.1]

theorem primary_of_timeout (hn : n ≤ r.primary.2) (hf : n < r.work.doneAt r.begun) (ho : r.limit ≤ n) :
    r.primary = (.timedOut, n) := by
  rw [primary_snd, le_min_iff, le_min_iff] at hn
  have heq := ho.antisymm hn.2.1
  unfold primary
  rw [heq, if_neg fun h => absurd hf h.1.not_gt, if_pos hn.2.2]

theorem primary_of_interruption (hn : n ≤ r.primary.2) (hf : n < r.work.doneAt r.begun) (ho : n < r.limit)
    (hi : r.interruption r.begun ≤ n) : r.primary = (.interrupted, n) := by
  rw [primary_snd, le_min_iff, le_min_iff] at hn
  have heq := hi.antisymm hn.2.2
  unfold primary
  rw [heq, if_neg fun h => absurd hf h.2.not_gt, if_neg ho.not_ge]

theorem fallback_of_done {w : Delayed α} {t : Instant} (hn : n ≤ (r.fallback w t).2) (hf : w.doneAt t ≤ n) :
    r.fallback w t = (some w.result, n) := by
  rw [fallback_snd, le_min_iff] at hn
  unfold fallback
  rw [if_pos (hf.trans hn.2), hf.antisymm hn.1]

theorem fallback_of_interruption {w : Delayed α} {t : Instant} (hn : n ≤ (r.fallback w t).2) (hf : n < w.doneAt t)
    (hi : r.interruption t ≤ n) : r.fallback w t = (none, n) := by
  rw [fallback_snd, le_min_iff] at hn
  have heq := hi.antisymm hn.2
  unfold fallback
  rw [heq, if_neg hf.not_ge]

/-! ## The context -/

section Context

variable (r : Race α) {e : Engine} {t : Nat}

/-- A context that interrupts a part has come to its instant, if its signal was not raised before its own. -/
theorem interruption_le (ht : t ≤ e.now) (hc : e.raised r.frame.context = true → r.cancel ≤ e.now)
    (h : e.interrupts r.frame.context = true) : r.interruption t ≤ e.now := by
  refine max_le (Instant.ms_le_ms.mpr ht) ?_
  rcases Engine.interrupts_eq_true_iff.mp h with ⟨d, hd, hle⟩ | hr
  · refine (min_le_left _ _).trans ?_
    rw [hd]
    exact Instant.ms_le_ms.mpr hle
  · exact (min_le_right _ _).trans (hc hr)

/-- A context that does not interrupt a part has not come to its instant, if its signal is raised by then. -/
theorem lt_interruption (hc : r.cancel ≤ e.now → e.raised r.frame.context = true)
    (h : e.interrupts r.frame.context = false) : (e.now : Instant) < r.interruption t := by
  rw [← Bool.not_eq_true, Engine.interrupts_eq_true_iff, not_or] at h
  obtain ⟨hdeadline, hraised⟩ := h
  refine lt_max_of_lt_right (lt_min ?_ (not_le.mp fun hle => hraised (hc hle)))
  cases hd : r.frame.context.deadline with
  | none => exact Instant.ms_lt_never e.now
  | some d =>
    have hlt : e.now < d := not_le.mp fun hle => hdeadline ⟨d, hd, hle⟩
    exact Instant.ms_lt_ms.mpr hlt

end Context

/-! ## How a call can stand -/

/-- How the call of a race can stand at an instant. -/
inductive Course (r : Race α) (now : Nat) : Task α → Prop
  | planned {d : Context.Derivation} : Context.background.derive r.begun d = r.frame.context →
      Course r now (.planned r.begun (.call ⟨r.frame.circuit, d, r.work.work, r.rescue.map Delayed.work⟩))
  | primary : r.begun ≤ now →
      Course r now (.running ⟨r.frame, .primary r.limit (r.rescue.map Delayed.work), r.work.suspended r.begun⟩)
  | fallback {cause : CallError} {w : Delayed α} {t : Nat} : r.rescued? = some (cause, w) → r.primary.2 = t →
      t ≤ now → Course r now (.running ⟨r.frame, .fallback cause, w.suspended t⟩)
  | ended {c : Completion α} {cancelled : Option Bool} {t : Nat} : r.verdict = (c, (t : Instant)) →
      Course r now (.ended (.call ⟨c, r.frame.context, cancelled, t⟩))

/-- The instant of the next event for a task that stands as the call of the race does. -/
def due (r : Race α) : Task α → Instant
  | .planned start _ => start
  | .running c =>
    match c.stage with
    | .primary .. => r.primary.2
    | .fallback _ => r.verdict.2
  | .ended _ => Instant.never

/-- The call has not begun. -/
def unbegun : Task α → Prop
  | .planned .. => True
  | _ => False

/-- The primary part has not ended. -/
def undecided : Task α → Prop
  | .planned .. => True
  | .running c => c.stage.part = .primary
  | .ended _ => False

/-- How the call of a race stands after a poll at `now`, in which its context's signal was seen raised or not. -/
structure Reached (r : Race α) (now : Nat) (seen : Bool) (t : Task α) : Prop where
  course : r.Course now t
  due : now ≤ r.due t
  past : (r.cancel ≤ now → seen = true) → now < r.due t
  unbegun : unbegun t → now < r.begun
  undecided : undecided t → r.rescued?.isSome = true → now < r.primary.2

variable {r : Race α} {now t : Nat} {seen : Bool} {cause : CallError} {w : Delayed α} {e : Engine}

theorem rescued?_eq_some_iff : r.rescued? = some (cause, w) ↔
    r.result = .error cause ∧ r.rescue = some w ∧ cause.allowsFallback = true := by
  unfold rescued?
  constructor
  · intro h
    split at h
    · rename_i hresult hrescue
      split at h
      · rename_i hallows
        cases h
        exact ⟨hresult, hrescue, hallows⟩
      · cases h
    · cases h
  · rintro ⟨hresult, hrescue, hallows⟩
    rw [hresult, hrescue]
    exact if_pos hallows

theorem rescued?_of_interrupted {n : Instant} (h : r.primary = (.interrupted, n)) : r.rescued? = none := by
  unfold rescued? result
  rw [h]
  cases r.rescue <;> rfl

theorem verdict_of_rescued (h : r.rescued? = some (cause, w)) : r.verdict =
    (⟨.error cause, some cause, fallbackAnswer cause (r.fallback w r.primary.2).1⟩, (r.fallback w r.primary.2).2) := by
  rw [verdict, h, (rescued?_eq_some_iff.mp h).1]

/-- A call that is finished as the race is decided has no further event. -/
theorem reached_finished {c : Completion α} (h : r.verdict = (c, (now : Instant))) (hn : e.now = now) :
    r.Reached now seen (Task.ofProgress r.frame.context (.finished c, e)).1 := by
  subst hn
  exact ⟨.ended h, Instant.le_never _, fun _ => Instant.ms_lt_never _, fun h => False.elim h,
    fun h => False.elim h⟩

/-- A fallback that was polled goes on as the race is decided. -/
theorem reached_settleFallback (hr : r.rescued? = some (cause, w)) (ht : r.primary.2 = t) (hle : t ≤ e.now)
    (hdue : e.now ≤ (r.fallback w t).2) (hc : e.raised r.frame.context = true → r.cancel ≤ e.now) :
    r.Reached e.now (e.raised r.frame.context)
      (Task.ofProgress r.frame.context (r.frame.settleFallback cause (w.stand t e.now) e)).1 := by
  have hverdict := verdict_of_rescued hr
  rw [ht] at hverdict
  unfold Delayed.stand
  by_cases hf : w.doneAt t ≤ e.now
  · rw [fallback_of_done hdue hf] at hverdict
    rw [if_pos hf, Frame.settleFallback_finished]
    exact reached_finished hverdict (r.frame.acts_closeFallback e _).now_eq
  · rw [if_neg hf]
    cases hi : e.interrupts r.frame.context with
    | true =>
      rw [fallback_of_interruption hdue (not_le.mp hf) (r.interruption_le hle hc hi)] at hverdict
      rw [Frame.settleFallback_interrupted hi, Delayed.abandon_suspended]
      exact reached_finished hverdict (r.frame.acts_closeFallback e _).now_eq
    | false =>
      rw [Frame.settleFallback_suspended hi]
      have hlast : r.due (.running ⟨r.frame, .fallback cause, w.suspended t⟩) = (r.fallback w t).2 := by
        rw [due, hverdict]
      refine ⟨.fallback hr ht hle, ?_, ?_, nofun, nofun⟩
      · exact hdue.trans_eq hlast.symm
      · intro hseen
        have hlt := r.lt_interruption (t := t) hseen hi
        refine lt_of_lt_of_eq ?_ hlast.symm
        rw [fallback_snd]
        exact lt_min (not_le.mp hf) hlt

/-- The fallback of the call of a race, as work to be begun in its context. -/
def waiting (r : Race α) : Option (Rescue α) :=
  (r.rescue.map Delayed.work).map fun w => ⟨w, w.start r.frame.context⟩

/-- A call whose primary part has ended now goes on as the race is decided. -/
theorem reached_afterPrimary {x : Ending α} (hx : r.primary = (x, (e.now : Instant)))
    (hc : e.raised r.frame.context = true → r.cancel ≤ e.now)
    (hfree : r.rescued?.isSome = true → ¬ (e.limiter r.frame.circuit .fallback).Full) :
    r.Reached e.now (e.raised r.frame.context) (Task.ofProgress r.frame.context
      (r.frame.afterPrimary (x.result r.frame.circuit.limits) r.waiting e)).1 := by
  have hresult : x.result r.frame.circuit.limits = r.result := by rw [result, hx]
  have hnow : r.primary.2 = e.now := by rw [hx]
  rw [hresult]
  cases hr : r.rescued? with
  | none =>
    have hverdict : r.verdict = (⟨r.result, none, r.result⟩, (e.now : Instant)) := by rw [verdict, hr, hnow]
    rw [Frame.afterPrimary_of_not_allowed fun cause b hcause hb => ?_]
    · exact reached_finished hverdict rfl
    · -- no fallback is called for
      obtain ⟨_, hw, -⟩ := Option.map_eq_some_iff.mp hb
      obtain ⟨w, hw, -⟩ := Option.map_eq_some_iff.mp hw
      rw [← Bool.not_eq_true]
      intro hallows
      rw [rescued?_eq_some_iff.mpr ⟨hcause, hw, hallows⟩] at hr
      cases hr
  | some p =>
    obtain ⟨cause, w⟩ := p
    obtain ⟨hcause, hw, hallows⟩ := rescued?_eq_some_iff.mp hr
    have hwaiting : r.waiting = some ⟨w.work, w.work.start r.frame.context⟩ := by rw [waiting, hw]; rfl
    obtain ⟨e', ha⟩ := Engine.exists_acquire? (hfree (by rw [hr]; rfl))
    have hn := Engine.now_acquire? ha
    have hs : e'.raised r.frame.context = e.raised r.frame.context := by
      unfold Engine.raised Engine.cancelled?
      rw [Engine.signals_acquire? ha]
    rw [hcause, hwaiting, Frame.afterPrimary_of_allowed hallows, Frame.startFallback_of_acquired ha]
    dsimp only
    rw [w.start_work]
    rw [← hn] at hnow hc ⊢
    rw [← hs] at hc ⊢
    refine reached_settleFallback hr hnow (Nat.le_refl _) ?_ hc
    rw [fallback_snd]
    exact le_min (Instant.le_after _ _) (le_max_left _ _)

/-- The end of a primary part touches no signal and no permit of the fallback. -/
theorem closePrimary_frame (f : Frame) (o : CallOutcome) (e : Engine) :
    (f.closePrimary o e).signals = e.signals ∧
      (f.closePrimary o e).limiter f.circuit .fallback = e.limiter f.circuit .fallback := by
  unfold Frame.closePrimary
  dsimp only
  split
  · exact ⟨rfl, Engine.limiter_putLimiter_of_ne _ (by decide)⟩
  · exact ⟨rfl, Engine.limiter_putLimiter_of_ne _ (by decide)⟩

theorem reached_closePrimary {x : Ending α} (hx : r.primary = (x, (e.now : Instant)))
    (hc : e.raised r.frame.context = true → r.cancel ≤ e.now)
    (hfree : r.rescued?.isSome = true → ¬ (e.limiter r.frame.circuit .fallback).Full) :
    r.Reached e.now (e.raised r.frame.context) (Task.ofProgress r.frame.context (r.frame.afterPrimary
      (x.result r.frame.circuit.limits) r.waiting (r.frame.closePrimary x.outcome e))).1 := by
  obtain ⟨hsignals, hlimiter⟩ := closePrimary_frame r.frame x.outcome e
  have hn := (r.frame.acts_closePrimary e x.outcome).now_eq
  have hs : (r.frame.closePrimary x.outcome e).raised r.frame.context = e.raised r.frame.context :=
    Engine.raised_congr (fun _ => by rw [hsignals]) _
  rw [← hn] at hx hc ⊢
  rw [← hs] at hc ⊢
  rw [← hlimiter] at hfree
  exact reached_afterPrimary hx hc hfree

/-- A primary part that was polled goes on as the race is decided. -/
theorem reached_settlePrimary (hle : r.begun ≤ e.now) (hdue : e.now ≤ r.primary.2)
    (hc : e.raised r.frame.context = true → r.cancel ≤ e.now)
    (hfree : r.rescued?.isSome = true → r.primary.2 = e.now → ¬ (e.limiter r.frame.circuit .fallback).Full) :
    r.Reached e.now (e.raised r.frame.context) (Task.ofProgress r.frame.context
      (r.frame.settlePrimary r.limit r.waiting (r.work.stand r.begun e.now) e)).1 := by
  have hclose : ∀ x, r.primary = (x, (e.now : Instant)) → r.Reached e.now (e.raised r.frame.context)
      (Task.ofProgress r.frame.context (r.frame.afterPrimary (x.result r.frame.circuit.limits) r.waiting
        (r.frame.closePrimary x.outcome e))).1 := by
    intro x hx
    exact reached_closePrimary hx hc fun hr => hfree hr (by rw [hx])
  unfold Delayed.stand
  by_cases hf : r.work.doneAt r.begun ≤ e.now
  · rw [if_pos hf, Frame.settlePrimary_finished]
    exact hclose _ (primary_of_done hdue hf)
  · rw [if_neg hf]
    have hf := not_le.mp hf
    by_cases ho : r.limit ≤ e.now
    · rw [Frame.settlePrimary_timedOut ho, Delayed.abandon_suspended]
      exact hclose _ (primary_of_timeout hdue hf (Instant.ms_le_ms.mpr ho))
    · have ho := not_le.mp ho
      cases hi : e.interrupts r.frame.context with
      | true =>
        rw [Frame.settlePrimary_interrupted ho hi, Delayed.abandon_suspended]
        exact hclose _ (primary_of_interruption hdue hf (Instant.ms_lt_ms.mpr ho) (r.interruption_le hle hc hi))
      | false =>
        rw [Frame.settlePrimary_suspended ho hi, waiting, Option.map_map, Option.map_map]
        have hlt : e.now < r.interruption r.begun → e.now < r.primary.2 := by
          intro hlt
          rw [primary_snd]
          exact lt_min hf (lt_min (Instant.ms_lt_ms.mpr ho) hlt)
        refine ⟨.primary hle, hdue, fun hseen => hlt (r.lt_interruption hseen hi), nofun, ?_⟩
        intro _ hr
        -- what ends by an interruption now is not rescued
        refine hlt (not_le.mp fun hle => ?_)
        rw [rescued?_of_interrupted (primary_of_interruption hdue hf (Instant.ms_lt_ms.mpr ho) hle)] at hr
        cases hr

/-! ## Polls -/

/-- The permits that the call of a race asks for when it is polled are free. -/
structure Admitted (r : Race α) (t : Task α) (e : Engine) : Prop where
  primary : unbegun t → r.begun ≤ e.now → ¬ (e.limiter r.frame.circuit .primary).Full
  fallback : r.rescued?.isSome = true → undecided t → r.primary.2 = e.now →
    ¬ (e.limiter r.frame.circuit .fallback).Full

theorem begun_le_primary (r : Race α) : r.begun ≤ r.primary.2 := by
  rw [primary_snd]
  refine le_min (Instant.le_after _ _) (le_min ?_ (le_max_left _ _))
  exact Instant.ms_le_ms.mpr (Nat.le_add_right _ _)

/-- A call that is begun in its time, with a permit free, goes on as the race is decided. -/
theorem reached_start {d : Context.Derivation} (hd : Context.background.derive r.begun d = r.frame.context)
    (hn : e.now = r.begun) (hopen : r.frame.circuit.limits.forceOpen = false)
    (hc : e.raised r.frame.context = true → r.cancel ≤ e.now)
    (hfree : ¬ (e.limiter r.frame.circuit .primary).Full)
    (hfree' : r.rescued?.isSome = true → r.primary.2 = e.now → ¬ (e.limiter r.frame.circuit .fallback).Full) :
    r.Reached e.now (e.raised r.frame.context) (Action.start
      (.call ⟨r.frame.circuit, d, r.work.work, r.rescue.map Delayed.work⟩) e).1 := by
  obtain ⟨e', ha⟩ := Engine.exists_acquire? hfree
  have hn' := Engine.now_acquire? ha
  have hs : e'.raised r.frame.context = e.raised r.frame.context :=
    Engine.raised_congr (fun _ => by rw [Engine.signals_acquire? ha]) _
  have hlimiter : e'.limiter r.frame.circuit .fallback = e.limiter r.frame.circuit .fallback := by
    rw [(Engine.acquire?_eq_some_iff.mp ha).2]
    exact Engine.limiter_putLimiter_of_ne _ (by decide)
  have hlimit : e'.now + r.frame.circuit.limits.timeout = r.limit := by rw [hn', hn, limit]
  have hstart : r.frame.startCall (r.work.work.start r.frame.context) r.waiting e =
      r.frame.settlePrimary r.limit r.waiting (r.work.stand r.begun e'.now) e' := by
    rw [Frame.startCall_of_acquired hopen ha, hlimit, r.work.start_work, hn', hn]
  have hdue := r.begun_le_primary
  have hcontext : Context.background.derive e.now d = r.frame.context := by rw [hn, hd]
  rw [Action.start, hcontext]
  change r.Reached _ _ (Task.ofProgress r.frame.context
    (r.frame.startCall (r.work.work.start r.frame.context) r.waiting e)).1
  rw [hstart, ← hn', ← hs]
  rw [← hn'] at hc hfree' hn
  rw [← hs] at hc
  rw [← hlimiter] at hfree'
  rw [← hn] at hdue
  exact reached_settlePrimary (Nat.le_of_eq hn.symm) hdue hc hfree'

/-- **A poll goes on as the race is decided.** It misses no event, and goes past every event of its instant if the
signal of the context is raised by then. -/
theorem Course.poll {t : Task α} (ht : r.Course e.now t) (hdue : e.now ≤ r.due t)
    (hopen : r.frame.circuit.limits.forceOpen = false) (hc : e.raised r.frame.context = true → r.cancel ≤ e.now)
    (hfree : r.Admitted t e) : r.Reached e.now (e.raised r.frame.context) (t.poll e).1 := by
  have hn := e.now_leave r.frame.context
  have hs : (e.leave r.frame.context).raised r.frame.context = e.raised r.frame.context :=
    Engine.raised_congr (fun _ => Engine.raised_signals_leave _) _
  cases ht with
  | planned hd =>
    have hle : e.now ≤ r.begun := Instant.ms_le_ms.mp hdue
    rw [Task.poll]
    split
    · rename_i hstart
      exact reached_start hd (by omega) hopen hc (hfree.primary trivial hstart) fun hr => hfree.fallback hr trivial
    · rename_i hstart
      have hlt := not_le.mp hstart
      have hlt' : (e.now : Instant) < r.begun := Instant.ms_lt_ms.mpr hlt
      exact ⟨.planned hd, hdue, fun _ => hlt', fun _ => hlt, fun _ _ => hlt'.trans_le r.begun_le_primary⟩
  | primary hle =>
    have hfree' := fun hr => hfree.fallback hr rfl
    rw [Task.poll, InFlight.poll_eq, r.work.poll_suspended]
    rw [← hn] at hdue hc hle hfree' ⊢
    rw [← hs] at hc ⊢
    rw [← Engine.limiter_leave] at hfree'
    exact reached_settlePrimary hle hdue hc hfree'
  | @fallback cause w t hr ht hle =>
    have hlast : r.verdict.2 = (r.fallback w t).2 := by rw [verdict_of_rescued hr, ht]
    rw [Task.poll, InFlight.poll_eq, w.poll_suspended]
    change (e.now : Instant) ≤ r.verdict.2 at hdue
    rw [hlast] at hdue
    rw [← hn] at hdue hc hle ⊢
    rw [← hs] at hc ⊢
    exact reached_settleFallback hr ht hle hdue hc
  | ended hverdict => exact ⟨.ended hverdict, Instant.le_never _, fun _ => Instant.ms_lt_never _, fun h => False.elim h,
    fun h => False.elim h⟩

/-! ## Between the polls -/

theorem le_interruption {n : Instant} (hle : t ≤ now) (hlt : now < r.interruption t)
    (hdeadline : ∀ d, r.frame.context.deadline = some d → now < d → n ≤ d)
    (hcancel : now < r.cancel → n ≤ r.cancel) : n ≤ r.interruption t := by
  have hlater : (now : Instant) < min (Instant.ofOption r.frame.context.deadline) r.cancel := by
    rcases lt_max_iff.mp hlt with h | h
    · exact absurd (Instant.ms_lt_ms.mp h) hle.not_gt
    · exact h
  obtain ⟨hd, hr⟩ := lt_min_iff.mp hlater
  refine (le_min ?_ (hcancel hr)).trans (le_max_right _ _)
  cases h : r.frame.context.deadline with
  | none => exact Instant.le_never _
  | some d =>
    rw [h] at hd
    exact hdeadline d h (Instant.ms_lt_ms.mp hd)

theorem le_doneAt {n : Instant} {x : Suspended α} (hx : x = w.suspended t) (hlt : now < w.doneAt t)
    (hwakes : ∀ m ∈ x.wakes, now < m → n ≤ m) : n ≤ w.doneAt t := by
  cases h : w.doneAt t with
  | never => exact Instant.le_never n
  | ms m =>
    rw [h] at hlt
    exact hwakes m (hx ▸ w.mem_wakes_suspended t h) (Instant.ms_lt_ms.mp hlt)

/-- **A task asks to be polled at its next event**, unless that is the raising of the signal of its context. -/
theorem Course.le_due {t : Task α} {n : Instant} (ht : r.Course now t) (hlt : now < r.due t)
    (hwakes : ∀ m ∈ t.wakes, now < m → n ≤ m) (hcancel : now < r.cancel → n ≤ r.cancel) : n ≤ r.due t := by
  cases ht with
  | planned => exact hwakes _ (List.mem_singleton_self _) (Instant.ms_lt_ms.mp hlt)
  | primary hle =>
    change now < r.primary.2 at hlt
    change n ≤ r.primary.2
    rw [primary_snd] at hlt ⊢
    obtain ⟨hf, hlt⟩ := lt_min_iff.mp hlt
    obtain ⟨ho, hi⟩ := lt_min_iff.mp hlt
    simp only [Task.wakes, InFlight.wakes, Suspended.wakes, Stage.wakes, List.mem_append, List.mem_singleton,
      Option.mem_toList] at hwakes
    refine le_min (le_doneAt rfl hf fun m hm => hwakes m (.inr hm)) (le_min ?_ ?_)
    · exact hwakes _ (.inl (.inl rfl)) (Instant.ms_lt_ms.mp ho)
    · exact le_interruption hle hi (fun d hd => hwakes d (.inl (.inr hd))) hcancel
  | @fallback cause w t hr ht hle =>
    have hlast : r.verdict.2 = (r.fallback w t).2 := by rw [verdict_of_rescued hr, ht]
    change now < r.verdict.2 at hlt
    change n ≤ r.verdict.2
    rw [hlast, fallback_snd] at hlt ⊢
    obtain ⟨hf, hi⟩ := lt_min_iff.mp hlt
    simp only [Task.wakes, InFlight.wakes, Suspended.wakes, Stage.wakes, List.nil_append, List.mem_append,
      Option.mem_toList] at hwakes
    refine le_min (le_doneAt rfl hf fun m hm => hwakes m (.inr hm)) ?_
    exact le_interruption hle hi (fun d hd => hwakes d (.inl hd)) hcancel
  | ended => exact Instant.le_never _

/-! ## Answers -/

/-- A task answers as the race is decided: with the verdict at its instant, or never. -/
def Answered (r : Race α) (answer : Option (Reply α)) : Prop :=
  match r.verdict.2 with
  | .ms t => ∃ cancelled, answer = some (.call ⟨r.verdict.1, r.frame.context, cancelled, t⟩)
  | .never => answer = none

/-- A call for which nothing comes any more has answered, or never will. -/
theorem Course.answered {t : Task α} (ht : r.Course now t) (hdue : r.due t = .never) : r.Answered t.reply? := by
  unfold Answered
  cases ht with
  | planned => cases hdue
  | primary =>
    change r.primary.2 = .never at hdue
    have hlimit : r.primary.2 ≤ r.limit := by
      rw [primary_snd]
      exact (min_le_right _ _).trans (min_le_left _ _)
    rw [hdue] at hlimit
    exact hlimit.elim
  | fallback =>
    change r.verdict.2 = .never at hdue
    rw [hdue]
    rfl
  | ended hverdict =>
    rw [hverdict]
    exact ⟨_, rfl⟩

end Race
end CallGuard
