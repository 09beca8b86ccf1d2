import CallGuard.Proofs.Execution.Pauses
import CallGuard.Proofs.Execution.Pool

/-!
# Groups as pools

The runner of a group polls its tasks one after the other, again while signals are raised, and then moves the clock. Each
poll is a row of sections of one thread, so a group keeps what every move of a pool keeps. The tasks stand in the pool
behind the threads that were there before (`Pool.hosting`).

**Main statement** (`Pool.run_group`): at every pause of a group the limiters count the calls that are pending in its
tasks, and a signal has as many who wait for it as there are pending calls under it (`Task.Counted`); and a group whose
tasks all end gives everything back.
-/

namespace CallGuard

variable {α : Type}

/-! ## Tasks as threads -/

/-- The circuits on which calls are made. -/
def Action.circuits : Action α → List Circuit
  | .call c => (Thread.ofCall ⟨c.circuit, .background⟩ c.work c.rescue).circuits
  | .cancel _ | .observe _ | .probe _ => []

namespace Task

/-- The thread of a task: that of its call while the call is suspended, else one that is over. -/
def thread : Task α → Thread α
  | .running c => .ofProgress (.suspended c)
  | .planned .. | .ended _ => ⟨.close .interrupted, []⟩

/-- The circuits that a task uses when it begins. -/
def circuits : Task α → List Circuit
  | .planned _ a => a.circuits
  | .running _ | .ended _ => []

theorem holders_thread (t : Task α) : t.thread.holders = t.pending := by
  cases t with
  | running c => exact List.append_nil _
  | planned | ended => rfl

theorem circuits_ofProgress (x : Context) (q : Progress (InFlight α) (Completion α) × Engine) :
    (ofProgress x q).1.circuits = [] := by
  obtain ⟨c | k, e⟩ := q <;> rfl

theorem circuits_poll (t : Task α) (e : Engine) : (t.poll e).1.circuits ⊆ t.circuits := by
  cases t with
  | planned start a =>
    simp only [poll]
    split
    · cases a with
      | call c => exact (circuits_ofProgress _ _).symm ▸ List.nil_subset _
      | cancel | observe | probe => exact List.nil_subset _
    · exact List.Subset.refl _
  | running c => exact (circuits_ofProgress _ _).symm ▸ List.nil_subset _
  | ended => exact List.nil_subset _

end Task

namespace Pool

/-- The pool with the tasks of a group behind its threads. -/
def hosting (p : Pool α) (ts : List (Task α)) (e : Engine) : Pool α :=
  { p with engine := e, threads := p.threads ++ ts.map Task.thread }

namespace Sound

variable {p : Pool α} {i : Nat}

/-- Sections of one thread in a row keep the invariant. -/
theorem turns (hp : p.Sound) {t t' : Thread α} {e' : Engine} (hi : p.threads[i]? = some t)
    (h : Thread.Turns (t, p.engine) (t', e')) : (p.put i t' e').Sound := by
  obtain ⟨n, hn⟩ := run_turns hi h
  rw [← hn]
  exact hp.run _

/-- A thread that holds nothing any more is over. -/
theorem ofProgress {t : Thread α} (hi : p.threads[i]? = some t) {x : Context}
    {q : Progress (InFlight α) (Completion α) × Engine} (h : (p.put i (.ofProgress q.1) q.2).Sound) :
    (p.put i (Task.ofProgress x q).1.thread (Task.ofProgress x q).2).Sound := by
  obtain ⟨c | k, e⟩ := q
  · exact h
  · have hover : ((p.put i (.ofProgress (.finished k)) e).put i ⟨.close .interrupted, []⟩ e).Sound :=
      h.put (getElem?_put hi) (.goesOn rfl rfl rfl (fun _ => rfl) rfl) (List.nil_subset _) trivial
    rwa [put_put] at hover

/-- A poll of a task keeps the invariant. -/
theorem poll (hp : p.Sound) {t : Task α} (hi : p.threads[i]? = some t.thread) (hknown : t.circuits ⊆ p.circuits) :
    (p.put i (t.poll p.engine).1.thread (t.poll p.engine).2).Sound := by
  have hsame : (p.put i t.thread p.engine).Sound := by rwa [put_self hi]
  cases t with
  | planned start a =>
    simp only [Task.poll]
    split
    · cases a with
      | call c =>
        have hbegin : (p.put i (.ofCall ⟨c.circuit, Context.background.derive p.engine.now c.context⟩ c.work c.rescue)
            p.engine).Sound := hp.put hi (.goesOn rfl rfl rfl (fun _ => rfl) rfl) hknown trivial
        have hcall := hbegin.turns (getElem?_put hi) (c.turns_start _ p.engine)
        rw [put_put] at hcall
        exact ofProgress hi hcall
      | cancel signal =>
        exact hp.put hi (.goesOn rfl rfl rfl (Engine.waiting_cancel signal) rfl) (List.nil_subset _) trivial
      | observe | probe => exact hsame
    · exact hsame
  | running c => exact ofProgress hi (hp.turns hi (c.turns_poll p.engine))
  | ended => exact hsame

end Sound

/-! ## The runner -/

/-- A pool with a group of tasks that keeps the invariant, all on circuits that were created. -/
structure Hosts (p : Pool α) (ts : List (Task α)) (e : Engine) : Prop where
  sound : (p.hosting ts e).Sound
  known : ∀ t ∈ ts, t.circuits ⊆ p.circuits

namespace Hosts

variable {p : Pool α} {ts : List (Task α)} {e : Engine}

/-- By induction on the tasks: those that were polled join the threads before the others. -/
theorem pollAll (h : p.Hosts ts e) : p.Hosts (Task.pollAll ts e).1 (Task.pollAll ts e).2 := by
  induction ts generalizing p e with
  | nil => exact h
  | cons t ts ih =>
    have hknown := h.known t List.mem_cons_self
    have hi : (p.hosting (t :: ts) e).threads[p.threads.length]? = some t.thread := by simp [hosting]
    have hpolled := h.sound.poll hi hknown
    have hset : (p.hosting (t :: ts) e).put p.threads.length (t.poll e).1.thread (t.poll e).2 =
        ({ p with threads := p.threads ++ [(t.poll e).1.thread] } : Pool α).hosting ts (t.poll e).2 := by
      simp [hosting, put, List.set_append_right]
    have hrest := ih (p := { p with threads := p.threads ++ [(t.poll e).1.thread] }) (e := (t.poll e).2)
      ⟨hset ▸ hpolled, fun u hu => h.known u (List.mem_cons_of_mem _ hu)⟩
    refine ⟨?_, ?_⟩
    · have hsound := hrest.sound
      simp only [hosting, List.append_assoc] at hsound
      exact hsound
    · intro u hu
      rcases List.mem_cons.mp hu with rfl | hu
      · exact List.Subset.trans (t.circuits_poll e) hknown
      · exact hrest.known u hu

theorem settleAll (h : p.Hosts ts e) (fuel : Nat) :
    p.Hosts (Task.settleAll fuel ts e).1 (Task.settleAll fuel ts e).2 := by
  induction fuel generalizing ts e with
  | zero => exact h
  | succ fuel ih =>
    simp only [Task.settleAll]
    split
    · exact h.pollAll
    · exact ih h.pollAll

/-- Permits and signals do not depend on the time. -/
theorem wait (h : p.Hosts ts e) (n : Nat) : p.Hosts ts { e with now := n } :=
  ⟨{ h.sound with }, h.known⟩

theorem of_mem_pauses (h : p.Hosts ts e) {fuel : Nat} {s : Round α} (hs : s ∈ Task.pauses fuel ts e) :
    p.Hosts s.tasks s.engine := by
  induction fuel generalizing ts e with
  | zero => exact absurd hs List.not_mem_nil
  | succ fuel ih =>
    rw [Task.pauses, List.mem_cons] at hs
    rcases hs with rfl | hs
    · exact h.settleAll _
    · split at hs
      · exact ih ((h.settleAll _).wait _) hs
      · exact absurd hs List.not_mem_nil

theorem runAll (h : p.Hosts ts e) (fuel : Nat) : p.Hosts (Task.runAll fuel ts e).1 (Task.runAll fuel ts e).2 := by
  induction fuel generalizing ts e with
  | zero => exact h
  | succ fuel ih =>
    simp only [Task.runAll]
    split
    · exact ih ((h.settleAll _).wait _)
    · exact h.settleAll _

end Hosts

/-- A group that is still to begin holds nothing. -/
theorem Sound.hosts_planned {p : Pool α} (hp : p.Sound) {items : List (Item α)}
    (hknown : ∀ i ∈ items, i.action.circuits ⊆ p.circuits) :
    p.Hosts (items.map fun i => .planned (p.engine.now + i.start) i.action) p.engine := by
  have hover : ∀ t ∈ (items.map fun i => Task.planned (p.engine.now + i.start) i.action).map Task.thread,
      t = ⟨.close .interrupted, []⟩ := by
    intro t ht
    obtain ⟨_, hu, rfl⟩ := List.mem_map.mp ht
    obtain ⟨i, -, rfl⟩ := List.mem_map.mp hu
    rfl
  refine ⟨?_, fun t ht => ?_⟩
  · refine { hp with known := ?known, permits := ?permits, waiting := ?waiting, primary := ?primary }
    case known =>
      intro t ht
      rcases List.mem_append.mp ht with ht | ht
      · exact hp.known t ht
      · rw [hover t ht]
        exact List.nil_subset _
    case permits =>
      intro k
      refine (hp.permits k).trans ?_
      simp [holders, hosting, List.flatMap_map, Task.holders_thread, Task.pending]
    case waiting =>
      intro n
      refine (hp.waiting n).trans ?_
      simp [waiters, hosting, List.flatMap_map, Task.thread, Control.resting]
    case primary =>
      intro t ht
      rcases List.mem_append.mp ht with ht | ht
      · exact hp.primary t ht
      · rw [hover t ht]
        trivial
  · obtain ⟨i, hi, rfl⟩ := List.mem_map.mp ht
    exact hknown i hi

end Pool

/-! ## What is pending in a group -/

/-- The limiters of circuits and the signals agree with what is pending in tasks. -/
structure Task.Counted (circuits : List Circuit) (ts : List (Task α)) (e : Engine) : Prop where
  active_eq : ∀ c ∈ circuits, ∀ part, (e.limiter c part).active =
    (ts.flatMap Task.pending).countP fun h => h.frame.circuit = c ∧ h.stage.part = part
  bounded : ∀ c ∈ circuits, ∀ part m, c.maxOf part = some m → (e.limiter c part).active ≤ m
  waiting_eq : ∀ n, (e.signals.get n).waiting =
    (ts.flatMap Task.pending).countP (·.frame.context.signal = some n)

/-- A task that has answered has nothing pending. -/
theorem Task.Counted.idle {circuits : List Circuit} {ts : List (Task α)} {e : Engine} (h : Counted circuits ts e)
    (hreplies : ∀ t ∈ ts, t.reply? ≠ none) :
    (∀ c ∈ circuits, ∀ part, (e.limiter c part).active = 0) ∧ ∀ n, (e.signals.get n).waiting = 0 := by
  have hnone : ts.flatMap Task.pending = [] := by
    refine List.flatMap_eq_nil_iff.mpr fun t ht => ?_
    cases t with
    | ended => rfl
    | planned | running => exact absurd rfl (hreplies _ ht)
  refine ⟨fun c hc part => ?_, fun n => ?_⟩
  · rw [h.active_eq c hc part, hnone]
    rfl
  · rw [h.waiting_eq n, hnone]
    rfl

namespace Pool

variable {p : Pool α}

/-- Where the threads of the pool are over, what is in flight is what is pending in the tasks. -/
theorem Hosts.counted {ts : List (Task α)} {e : Engine} (h : p.Hosts ts e) (hended : ∀ t ∈ p.threads, t.Ended) :
    Task.Counted p.circuits ts e := by
  have hnone : p.threads.flatMap Thread.holders = [] := (Sound.holders_of_ended hended).1
  have hholders : (p.hosting ts e).holders = ts.flatMap Task.pending := by
    simp only [holders, hosting, List.flatMap_append, List.flatMap_map, hnone, Task.holders_thread, List.nil_append]
  have hrest : ∀ t ∈ (p.hosting ts e).threads, t.AtRest := by
    intro t ht
    rcases List.mem_append.mp ht with ht | ht
    · exact Thread.atRest_of_ended (hended t ht)
    · obtain ⟨u, -, rfl⟩ := List.mem_map.mp ht
      cases u <;> rfl
  have hd := h.sound.disciplined
  refine ⟨?_, fun c hc part m hm => ?_, ?_⟩
  · rw [← hholders]
    exact hd.active_eq
  · exact hd.active_eq c hc part ▸ hd.bounded c hc part m hm
  · rw [← hholders]
    exact hd.waiting_eq hrest

/-- **A group keeps the discipline.** Whatever happened before, if all earlier calls have ended and the group uses only
circuits that were created, then at every pause of the group the limiters and the signals agree with what is pending in
its tasks. And if every task ends, all permits are back after the group and nobody waits. -/
theorem run_group (r : Registry) (moves : List (Move α)) (items : List (Item α))
    (hended : ∀ t ∈ ((start r).run moves).threads, t.Ended)
    (hknown : ∀ i ∈ items, i.action.circuits ⊆ ((start r).run moves).circuits) :
    let q := (start r).run moves
    (∀ s ∈ q.engine.pauses items, Task.Counted q.circuits s.tasks s.engine) ∧
    ((∀ reply ∈ (q.engine.run items).1, reply ≠ none) →
      (∀ c ∈ q.circuits, ∀ part, ((q.engine.run items).2.limiter c part).active = 0) ∧
      ∀ n, ((q.engine.run items).2.signals.get n).waiting = 0) := by
  intro q
  have hplanned : q.Hosts _ q.engine := ((sound_start r).run moves).hosts_planned hknown
  refine ⟨fun s hs => (hplanned.of_mem_pauses hs).counted hended, fun hreplies => ?_⟩
  let tasks := items.map fun i => Task.planned (q.engine.now + i.start) i.action
  have hrun : q.Hosts (Task.runAll (Task.sizeAll tasks + 1) tasks q.engine).1 (q.engine.run items).2 :=
    hplanned.runAll _
  exact (hrun.counted hended).idle fun t ht => hreplies _ (List.mem_map_of_mem ht)

end Pool
end CallGuard
