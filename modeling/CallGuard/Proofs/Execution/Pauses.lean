import CallGuard.Proofs.Execution.Rounds
import CallGuard.Proofs.Execution.Threads

/-!
# What is still pending when a group pauses

The runner of a group polls its tasks until no signal is raised any more; then the group pauses, and the clock moves.
`Engine.pauses` are the states in which it pauses. A call is `Quiet` if nothing interrupts it or a call inside it.

**Main statements.** Whatever a poll leaves suspended is quiet (`Work.quiet_start`, `Suspended.quiet_poll`); so at every
pause of a group all that is pending is quiet (`Engine.quiet_of_mem_pauses`): no signal is lost on a call, however deep.
-/

namespace CallGuard

variable {α : Type}

/-! ## Quiet work -/

/-- Neither the deadline nor the signal of any call inside interrupts it now. -/
def Suspended.Quiet (s : Suspended α) (e : Engine) : Prop :=
  ∀ h ∈ s.holders, e.interrupts h.frame.context = false

/-- Work that is finished, or is quiet. -/
def Progress.Quiet (p : Progress (Suspended α) (WorkResult α)) (e : Engine) : Prop :=
  match p with
  | .suspended s => s.Quiet e
  | .finished _ => True

theorem Engine.interrupts_congr {e e' : Engine} (hnow : e'.now = e.now)
    (hr : ∀ n, (e'.signals.get n).raised = (e.signals.get n).raised) (x : Context) :
    e'.interrupts x = e.interrupts x := by
  have hraised : e'.raised x = e.raised x := raised_congr hr x
  unfold Engine.raised at hraised
  rw [interrupts, interrupts, hnow, hraised]

theorem Engine.interrupts_enter (e : Engine) (x y : Context) : (e.enter y).interrupts x = e.interrupts x :=
  interrupts_congr (now_enter e y) (fun n => raised_signals_enter n) x

/-- Acts that raise no signal interrupt nothing. -/
theorem Engine.Acts.interrupts_eq {e e' : Engine} (h : Engine.Acts e e')
    (hc : e'.signals.raisedCount = e.signals.raisedCount) (x : Context) : e'.interrupts x = e.interrupts x :=
  interrupts_congr h.now_eq (h.signals_grow.same hc) x

/-- A call that is suspended now, around quiet work, is quiet. -/
theorem Suspended.quiet_calling {f : Frame} {stage : Stage α} {s : Suspended α} {e : Engine} (hs : s.Quiet e)
    (hi : e.interrupts f.context = false) : (Suspended.calling f stage s).Quiet (e.enter f.context) := by
  intro h hmem
  rw [Engine.interrupts_enter]
  rcases List.mem_cons.mp hmem with rfl | hmem
  · exact hi
  · exact hs h hmem

/-! ## The stages of a call -/

namespace Frame

variable (f : Frame) (e : Engine) {rescue : Option (Rescue α)} {begin : Poll (Suspended α) (WorkResult α)}

theorem quiet_settleFallback (cause : CallError) {p : Progress (Suspended α) (WorkResult α)} (hp : p.Quiet e) :
    (f.settleFallback cause p e).1.ofCall.Quiet (f.settleFallback cause p e).2 := by
  cases p with
  | finished r => trivial
  | suspended s =>
    cases hi : e.interrupts f.context with
    | true =>
      rw [settleFallback_interrupted hi]
      trivial
    | false =>
      rw [settleFallback_suspended hi]
      exact Suspended.quiet_calling hp hi

theorem quiet_afterPrimary (result : CallResult α)
    (hr : ∀ r, rescue = some r → ∀ e, (r.begin e).1.Quiet (r.begin e).2) :
    (f.afterPrimary result rescue e).1.ofCall.Quiet (f.afterPrimary result rescue e).2 := by
  rcases allowed_or_not result rescue with ⟨cause, r, rfl, rfl, hallows⟩ | hnot
  · rw [afterPrimary_of_allowed hallows]
    cases ha : e.acquire? f.circuit .fallback with
    | none =>
      rw [startFallback_of_full ha]
      trivial
    | some e' =>
      rw [startFallback_of_acquired ha]
      exact f.quiet_settleFallback _ cause (hr r rfl e')
  · rw [afterPrimary_of_not_allowed hnot]
    trivial

theorem quiet_settlePrimary (due : Nat) {p : Progress (Suspended α) (WorkResult α)} (hp : p.Quiet e)
    (hr : ∀ r, rescue = some r → ∀ e, (r.begin e).1.Quiet (r.begin e).2) :
    (f.settlePrimary due rescue p e).1.ofCall.Quiet (f.settlePrimary due rescue p e).2 := by
  cases p with
  | finished r => exact f.quiet_afterPrimary _ _ hr
  | suspended s =>
    by_cases hd : due ≤ e.now
    · rw [settlePrimary_timedOut hd]
      exact f.quiet_afterPrimary _ _ hr
    · cases hi : e.interrupts f.context with
      | true =>
        rw [settlePrimary_interrupted (by omega) hi]
        exact f.quiet_afterPrimary _ _ hr
      | false =>
        rw [settlePrimary_suspended (by omega) hi]
        exact Suspended.quiet_calling hp hi

theorem quiet_startCall (hb : ∀ e, (begin e).1.Quiet (begin e).2)
    (hr : ∀ r, rescue = some r → ∀ e, (r.begin e).1.Quiet (r.begin e).2) :
    (f.startCall begin rescue e).1.ofCall.Quiet (f.startCall begin rescue e).2 := by
  cases hopen : f.circuit.limits.forceOpen with
  | true =>
    rw [startCall_of_open hopen]
    exact f.quiet_afterPrimary _ _ hr
  | false =>
    cases ha : e.acquire? f.circuit .primary with
    | none =>
      rw [startCall_of_full hopen ha]
      exact f.quiet_afterPrimary _ _ hr
    | some e' =>
      rw [startCall_of_acquired hopen ha]
      exact f.quiet_settlePrimary _ _ (hb e') hr

end Frame

/-! ## Polls -/

theorem Work.quiet_start (w : Work α) (x : Context) (e : Engine) : (w.start x e).1.Quiet (w.start x e).2 := by
  induction w generalizing x e with
  | done => trivial
  | hang => exact fun _ h => absurd h List.not_mem_nil
  | raise signal rest ih => exact ih x _
  | wait ms rest ih =>
    simp only [Work.start]
    split
    · exact ih x e
    · exact fun _ h => absurd h List.not_mem_nil
  | call circuit d work ih =>
    exact Frame.quiet_startCall ⟨circuit, _⟩ e (ih _) (fun r h => absurd h (Option.some_ne_none r).symm)
  | callOr circuit d work rescue ih ihr =>
    exact Frame.quiet_startCall ⟨circuit, _⟩ e (ih _) (fun _ h => by cases h; exact ihr _)

theorem Rescue.quiet_begin {rescue : Option (Work α)} {x : Context} (r : Rescue α)
    (h : rescue.map (fun w => ⟨w, w.start x⟩) = some r) (e : Engine) : (r.begin e).1.Quiet (r.begin e).2 := by
  obtain ⟨w, -, rfl⟩ := Option.map_eq_some_iff.mp h
  exact w.quiet_start x e

theorem Frame.quiet_settle (f : Frame) (stage : Stage α) {p : Progress (Suspended α) (WorkResult α)} {e : Engine}
    (hp : p.Quiet e) : (f.settle stage p e).1.ofCall.Quiet (f.settle stage p e).2 := by
  cases stage with
  | primary due rescue => exact f.quiet_settlePrimary e due hp Rescue.quiet_begin
  | fallback cause => exact f.quiet_settleFallback e cause hp

theorem Suspended.quiet_poll (s : Suspended α) (x : Context) (e : Engine) : (s.poll x e).1.Quiet (s.poll x e).2 := by
  induction s generalizing x e with
  | waiting due rest =>
    simp only [Suspended.poll]
    split
    · exact rest.quiet_start x e
    · exact fun _ h => absurd h List.not_mem_nil
  | hanging => exact fun _ h => absurd h List.not_mem_nil
  | calling f stage inner ih => exact f.quiet_settle stage (ih f.context _)

/-! ## Tasks -/

namespace Task

/-- The calls of a task that hold a permit: its own and those inside it. -/
def pending : Task α → List (Holder α)
  | .running f => ⟨f.frame, f.stage⟩ :: f.inner.holders
  | _ => []

/-- Nothing interrupts what is pending. -/
def Quiet (t : Task α) (e : Engine) : Prop := ∀ h ∈ t.pending, e.interrupts h.frame.context = false

theorem quiet_ofProgress {x : Context} {p : Progress (InFlight α) (Completion α) × Engine}
    (h : p.1.ofCall.Quiet p.2) : (ofProgress x p).1.Quiet p.2 := by
  obtain ⟨f | c, e⟩ := p
  · exact h
  · exact fun _ h => absurd h List.not_mem_nil

theorem quiet_poll (t : Task α) (e : Engine) : (t.poll e).1.Quiet (t.poll e).2 := by
  cases t with
  | planned start a =>
    simp only [poll]
    split
    · cases a with
      | call c =>
        rw [Action.start, ofProgress_snd]
        exact quiet_ofProgress (Frame.quiet_startCall _ e (c.work.quiet_start _) Rescue.quiet_begin)
      | cancel | observe | probe => exact fun _ h => absurd h List.not_mem_nil
    · exact fun _ h => absurd h List.not_mem_nil
  | running f =>
    rw [poll, ofProgress_snd]
    exact quiet_ofProgress ((Suspended.calling f.frame f.stage f.inner).quiet_poll {} e)
  | ended => exact fun _ h => absurd h List.not_mem_nil

/-- After a round that raised no signal all that is pending is quiet. -/
theorem quiet_pollAll {ts : List (Task α)} {e : Engine}
    (hsame : (pollAll ts e).2.signals.raisedCount = e.signals.raisedCount) :
    ∀ t ∈ (pollAll ts e).1, t.Quiet (pollAll ts e).2 := by
  induction ts generalizing e with
  | nil => exact fun _ h => absurd h List.not_mem_nil
  | cons t ts ih =>
    -- the poll of the first task raises no signal, nor do those of the others
    have hfirst := (t.acts_poll e).signals_grow.count_le
    have hothers := (acts_pollAll ts (t.poll e).2).signals_grow.count_le
    have htotal : (pollAll ts (t.poll e).2).2.signals.raisedCount = e.signals.raisedCount := hsame
    have hrest : (pollAll ts (t.poll e).2).2.signals.raisedCount = (t.poll e).2.signals.raisedCount := by omega
    intro u hu
    rcases List.mem_cons.mp hu with rfl | hu
    · intro h hmem
      exact ((acts_pollAll ts _).interrupts_eq hrest _).trans (t.quiet_poll e h hmem)
    · exact ih hrest u hu

/-- With enough fuel the last round of an instant raises no signal. -/
theorem quiet_settleAll {fuel : Nat} {ts : List (Task α)} {e : Engine} (hfuel : sizeAll ts < fuel) :
    ∀ t ∈ (settleAll fuel ts e).1, t.Quiet (settleAll fuel ts e).2 := by
  induction fuel generalizing ts e with
  | zero => exact absurd hfuel (Nat.not_lt_zero _)
  | succ fuel ih =>
    by_cases h : (pollAll ts e).2.signals.raisedCount = e.signals.raisedCount
    · rw [settleAll_of_same h]
      exact quiet_pollAll h
    · rw [settleAll_of_raised h]
      have hround := sizeAll_pollAll ts e
      exact ih (by omega)

/-! ## Pauses -/

/-- The states at the ends of the instants of a run, as many as `runAll` makes. -/
def pauses : Nat → List (Task α) → Engine → List (Round α)
  | 0, _, _ => []
  | fuel + 1, ts, e =>
    let (ts', e') := settleAll (sizeAll ts + 1) ts e
    ⟨ts', e'⟩ :: match nextWake ts' e'.now with
      | some t => pauses fuel ts' { e' with now := t }
      | none => []

/-- A run ends with the tasks of its last pause. -/
theorem runAll_tasks (fuel : Nat) (ts : List (Task α)) (e : Engine) :
    (runAll fuel ts e).1 = ((pauses fuel ts e).getLast?.map (·.tasks)).getD ts := by
  induction fuel generalizing ts e with
  | zero => rfl
  | succ fuel ih =>
    simp only [pauses, runAll]
    cases nextWake (settleAll (sizeAll ts + 1) ts e).1 (settleAll (sizeAll ts + 1) ts e).2.now with
    | none => rfl
    | some n =>
      dsimp only
      rw [ih, List.getLast?_cons]
      cases (pauses fuel _ _).getLast? <;> rfl

theorem quiet_of_mem_pauses {fuel : Nat} {ts : List (Task α)} {e : Engine} {s : Round α}
    (hs : s ∈ pauses fuel ts e) : ∀ t ∈ s.tasks, t.Quiet s.engine := by
  induction fuel generalizing ts e with
  | zero => exact absurd hs List.not_mem_nil
  | succ fuel ih =>
    rw [pauses, List.mem_cons] at hs
    rcases hs with rfl | hs
    · exact quiet_settleAll (Nat.lt_succ_self _)
    · split at hs
      · exact ih hs
      · exact absurd hs List.not_mem_nil

/-- The first pause comes at the instant at which the run begins. -/
theorem exists_pauses {fuel : Nat} (ts : List (Task α)) (e : Engine) (hfuel : 0 < fuel) :
    ∃ s later, pauses fuel ts e = s :: later ∧ s.engine.now = e.now := by
  cases fuel with
  | zero => exact absurd hfuel (Nat.lt_irrefl _)
  | succ fuel =>
    exact ⟨⟨(settleAll (sizeAll ts + 1) ts e).1, (settleAll (sizeAll ts + 1) ts e).2⟩, _, rfl, now_settleAll⟩

/-- **No pause lasts too long**: while a task asks to be polled later, another pause follows, at that instant at the
latest. -/
theorem exists_next_pause {fuel : Nat} {ts : List (Task α)} {e : Engine} {before after : List (Round α)} {s : Round α}
    (hpauses : pauses fuel ts e = before ++ s :: after)
    (hfuel : sizeAll (settleAll (sizeAll ts + 1) ts e).1 < fuel) {t : Task α} {n : Nat} (ht : t ∈ s.tasks)
    (hn : n ∈ t.wakes) (hlt : s.engine.now < n) :
    ∃ s' later, after = s' :: later ∧ s.engine.now < s'.engine.now ∧ s'.engine.now ≤ n := by
  induction fuel generalizing ts e before with
  | zero => exact absurd hfuel (Nat.not_lt_zero _)
  | succ fuel ih =>
    rw [pauses] at hpauses
    dsimp only at hpauses
    cases hwake : nextWake (settleAll (sizeAll ts + 1) ts e).1 (settleAll (sizeAll ts + 1) ts e).2.now with
    | none =>
      rw [hwake] at hpauses
      cases before with
      | nil =>
        obtain ⟨rfl, -⟩ := List.cons_eq_cons.mp hpauses
        exact absurd hlt (Nat.not_lt.mpr (nextWake_eq_none hwake ht hn))
      | cons b before =>
        obtain ⟨-, hnil⟩ := List.cons_eq_cons.mp hpauses
        exact absurd hnil.symm (List.append_ne_nil_of_right_ne_nil _ (List.cons_ne_nil _ _))
    | some m =>
      rw [hwake] at hpauses
      obtain ⟨hlater, ⟨u, hu, hwu⟩, hmin⟩ := nextWake_eq_some hwake
      have hfuel' : sizeAll (settleAll (sizeAll (settleAll (sizeAll ts + 1) ts e).1 + 1)
          (settleAll (sizeAll ts + 1) ts e).1 { (settleAll (sizeAll ts + 1) ts e).2 with now := m }).1 < fuel :=
        Nat.lt_of_lt_of_le (sizeAll_settleAll hu hwu) (Nat.le_of_lt_succ hfuel)
      cases before with
      | nil =>
        obtain ⟨rfl, hafter⟩ := List.cons_eq_cons.mp hpauses
        obtain ⟨s', later, hrest, hnow⟩ := exists_pauses (settleAll (sizeAll ts + 1) ts e).1
          { (settleAll (sizeAll ts + 1) ts e).2 with now := m } (Nat.lt_of_le_of_lt (Nat.zero_le _) hfuel')
        exact ⟨s', later, hafter.symm.trans hrest, hnow ▸ hlater, hnow ▸ hmin t ht n hn hlt⟩
      | cons b before => exact ih (List.cons_eq_cons.mp hpauses).2 hfuel'

end Task

/-- The states in which the run of a group pauses: at the end of every instant, when no task can go on. -/
def Engine.pauses (e : Engine) (items : List (Item α)) : List (Round α) :=
  let tasks := items.map fun i => Task.planned (e.now + i.start) i.action
  Task.pauses (Task.sizeAll tasks + 1) tasks e

/-- **At every pause nothing interrupts what is pending**, however deep in the calls of a task. -/
theorem Engine.quiet_of_mem_pauses {e : Engine} {items : List (Item α)} {s : Round α} (hs : s ∈ e.pauses items) :
    ∀ t ∈ s.tasks, t.Quiet s.engine :=
  Task.quiet_of_mem_pauses hs

/-- **No pause of a group lasts too long.** -/
theorem Engine.exists_next_pause {e : Engine} {items : List (Item α)} {before after : List (Round α)} {s : Round α}
    (hpauses : e.pauses items = before ++ s :: after) {t : Task α} {n : Nat} (ht : t ∈ s.tasks) (hn : n ∈ t.wakes)
    (hlt : s.engine.now < n) :
    ∃ s' later, after = s' :: later ∧ s.engine.now < s'.engine.now ∧ s'.engine.now ≤ n :=
  Task.exists_next_pause hpauses (Nat.lt_succ_of_le Task.sizeAll_settleAll_le) ht hn hlt

end CallGuard
