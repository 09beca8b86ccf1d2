import CallGuard.Proofs.Execution.Descendants

/-!
# Deadlines down a chain of contexts

A chain of contexts begins with a fresh one and goes on by children and by signals that are attached
(`Context.Chain`). Each child measures its time from the instant at which it is made, and keeps what its parent has
left; so the last context has the earliest of all the instants that were set (`Context.Chain.deadline_eq`), and a context
below another never has the later deadline (`Context.Below.deadline_le`).

A deadline is one of the instants at which a suspended call asks to be polled (`Task.deadline_mem_wakes`), and a call that
is polled then does not wait any more. So calls keep their deadlines in a run: none is pending at a pause at or after its
deadline, however deep inside others (`Engine.lt_deadline_of_pending`), and each is answered by then or at the instant at
which it begins (`Engine.run_by_deadline`).

**Main statement** (`Context.Chain.tightens`): both for the deadline of any context on the way.
-/

namespace CallGuard

variable {α : Type}

/-! ## Chains -/

namespace Context

/-- The contexts that are made from a fresh one, with the instants that were set on the way, the latest first. -/
inductive Chain : List Nat → Context → Prop
  | background : Chain [] background
  | deadline (d : Nat) : Chain [d] (withDeadline d)
  | timeout (now ms : Nat) : Chain [now + ms] (withTimeout now ms)
  | child {instants : List Nat} {x : Context} (now ms : Nat) : Chain instants x →
      Chain ((now + ms) :: instants) (x.child now ms)
  | attach {instants : List Nat} {x : Context} (name : String) : Chain instants x →
      Chain instants (x.withSignal name)

theorem deadline_child (x : Context) (now ms : Nat) :
    (x.child now ms).deadline = some (x.deadline.elim (now + ms) (min (now + ms))) := by
  unfold Context.child
  cases x.deadline with
  | none => rfl
  | some d => exact congrArg some (Nat.min_comm d (now + ms))

variable {instants : List Nat} {p x : Context} {names : List String} {d : Nat}

/-- **The earliest instant counts.** -/
theorem Chain.deadline_eq (h : Chain instants x) : x.deadline = instants.min? := by
  induction h with
  | background | deadline | timeout => rfl
  | child now ms _ ih => rw [deadline_child, List.min?_cons, ih]
  | attach name _ ih => exact ih

/-- A context below another has no later deadline. -/
theorem Below.deadline_le (h : p.Below names x) (hd : p.deadline = some d) : ∃ d' ≤ d, x.deadline = some d' := by
  induction h with
  | refl => exact ⟨d, Nat.le_refl d, hd⟩
  | child now ms _ ih =>
    obtain ⟨d', hle, hx⟩ := ih
    refine ⟨min (now + ms) d', by omega, ?_⟩
    rw [deadline_child, hx]
    rfl
  | attach name _ ih => exact ih

end Context

/-! ## Calls at their deadlines -/

theorem Engine.interrupts_of_deadline {e : Engine} {x : Context} {d : Nat} (hd : x.deadline = some d)
    (hle : d ≤ e.now) : e.interrupts x = true :=
  interrupts_eq_true_iff.mpr (.inl ⟨d, hd, hle⟩)

/-- A call that is made in `e` ends at once: it is refused, or its primary part is begun after acts there and does not
wait; nor does a fallback that follows. -/
def Call.CutShort (c : Call α) (x : Context) (e : Engine) : Prop :=
  ∃ k, (c.start x e).1 = .finished k ∧ k.Unwaited e (Frame.rescueOf ⟨c.circuit, x⟩ c.rescue) ∧
    ((∃ refusal : CallError, refusal.isRefusal = true ∧ k.primary = .error refusal) ∨
      ∃ e', Engine.Acts e e' ∧ k.primary =
        ((c.work.start x e').1.ending (decide (c.circuit.limits.timeout = 0))).result c.circuit.limits)

/-- In a context that interrupts no call begins to wait. -/
theorem Call.cutShort_of_interrupts {c : Call α} {x : Context} {e : Engine} (h : e.interrupts x = true) :
    c.CutShort x e := by
  let f : Frame := ⟨c.circuit, x⟩
  have hi : e.interrupts f.context = true := h
  -- a refused call has its fallback to go through
  have hrefused : ∀ refusal : CallError, refusal.isRefusal = true → ∀ e', Engine.Acts e e' →
      ∃ k, (f.afterPrimary (.error refusal) (f.rescueOf c.rescue) e').1 = .finished k ∧
        k.Unwaited e (f.rescueOf c.rescue) ∧ k.primary = .error refusal := by
    intro refusal hr e' hacts
    obtain ⟨k, hk, hprimary, hrescue⟩ :=
      Frame.finished_afterPrimary (.error refusal) Frame.acts_begin_rescueOf (hacts.interrupts hi)
    exact ⟨k, hk, hrescue.of_acts hacts, hprimary⟩
  have hstart : c.start x e = f.startCall (c.work.start x) (f.rescueOf c.rescue) e := rfl
  rw [CutShort, hstart]
  cases hopen : c.circuit.limits.forceOpen with
  | true =>
    rw [Frame.startCall_of_open hopen]
    obtain ⟨k, hk, hrescue, hprimary⟩ :=
      hrefused .shortCircuited rfl _ (Engine.Acts.single (.report e f.circuit .shortCircuited))
    exact ⟨k, hk, hrescue, .inl ⟨_, rfl, hprimary⟩⟩
  | false =>
    cases ha : e.acquire? f.circuit .primary with
    | none =>
      rw [Frame.startCall_of_full hopen ha]
      obtain ⟨k, hk, hrescue, hprimary⟩ :=
        hrefused .concurrencyRejected rfl _ (Engine.Acts.single (.report e f.circuit .concurrencyRejected))
      exact ⟨k, hk, hrescue, .inl ⟨_, rfl, hprimary⟩⟩
    | some e' =>
      rw [Frame.startCall_of_acquired hopen ha]
      have hacquire : Engine.Acts e e' := Engine.Acts.single (.acquire ha)
      obtain ⟨k, hk, hprimary, hrescue⟩ :=
        Frame.finished_settlePrimary (e'.now + c.circuit.limits.timeout) c.rescue (c.work.start x e').1 hi
          (hacquire.trans (c.work.acts_start x e'))
      refine ⟨k, hk, hrescue, .inr ⟨e', hacquire, ?_⟩⟩
      have hover : e'.now + c.circuit.limits.timeout ≤ e.now ↔ c.circuit.limits.timeout = 0 := by
        rw [hacquire.now_eq]
        omega
      simpa only [hover] using hprimary

/-! ## The deadlines of what is pending -/

theorem Suspended.deadline_mem_wakes {s : Suspended α} {h : Holder α} (hmem : h ∈ s.holders) {d : Nat}
    (hd : h.frame.context.deadline = some d) : d ∈ s.wakes := by
  induction s with
  | waiting | hanging => exact absurd hmem List.not_mem_nil
  | calling f stage inner ih =>
    rw [wakes, List.mem_append, List.mem_append]
    rcases List.mem_cons.mp hmem with rfl | hmem
    · exact .inl (.inr (Option.mem_toList.mpr hd))
    · exact .inr (ih hmem)

/-- A task asks to be polled at the deadline of each of its calls. -/
theorem Task.deadline_mem_wakes {t : Task α} {h : Holder α} (hmem : h ∈ t.pending) {d : Nat}
    (hd : h.frame.context.deadline = some d) : d ∈ t.wakes := by
  cases t with
  | running f => exact Suspended.deadline_mem_wakes (s := .calling f.frame f.stage f.inner) hmem hd
  | planned | ended => exact absurd hmem List.not_mem_nil

/-- **No call is pending at a pause at or after its deadline**, and while one is pending another pause comes, at its
deadline at the latest. -/
theorem Engine.lt_deadline_of_pending {e : Engine} {items : List (Item α)} {before after : List (Round α)}
    {s : Round α} (hpauses : e.pauses items = before ++ s :: after) {t : Task α} (ht : t ∈ s.tasks) {h : Holder α}
    (hmem : h ∈ t.pending) {d : Nat} (hd : h.frame.context.deadline = some d) :
    s.engine.now < d ∧
      ∃ s' later, after = s' :: later ∧ s.engine.now < s'.engine.now ∧ s'.engine.now ≤ d := by
  have hs : s ∈ e.pauses items := hpauses ▸ List.mem_append_right _ List.mem_cons_self
  have hlt : s.engine.now < d := by
    refine Nat.lt_of_not_le fun hle => ?_
    have hquiet := Engine.quiet_of_mem_pauses hs t ht h hmem
    rw [Engine.interrupts_of_deadline hd hle] at hquiet
    cases hquiet
  exact ⟨hlt, Engine.exists_next_pause hpauses ht (Task.deadline_mem_wakes hmem hd) hlt⟩

/-! ## The deadlines of what is answered -/

namespace Frame

variable {f : Frame} {e : Engine} {g : InFlight α} {rescue : Option (Rescue α)}
  {begin : Poll (Suspended α) (WorkResult α)}

theorem frame_settleFallback {cause : CallError} {p : Progress (Suspended α) (WorkResult α)}
    (h : (f.settleFallback cause p e).1 = .suspended g) : g.frame = f := by
  cases p with
  | finished r => cases h
  | suspended s =>
    cases hi : e.interrupts f.context with
    | true =>
      rw [settleFallback_interrupted hi] at h
      cases h
    | false =>
      rw [settleFallback_suspended hi] at h
      cases h
      rfl

theorem frame_afterPrimary {result : CallResult α} (h : (f.afterPrimary result rescue e).1 = .suspended g) :
    g.frame = f := by
  rcases allowed_or_not result rescue with ⟨cause, r, rfl, rfl, hallows⟩ | hnot
  · rw [afterPrimary_of_allowed hallows] at h
    cases ha : e.acquire? f.circuit .fallback with
    | none =>
      rw [startFallback_of_full ha] at h
      cases h
    | some e' =>
      rw [startFallback_of_acquired ha] at h
      exact frame_settleFallback h
  · rw [afterPrimary_of_not_allowed hnot] at h
    cases h

theorem frame_settlePrimary {due : Nat} {p : Progress (Suspended α) (WorkResult α)}
    (h : (f.settlePrimary due rescue p e).1 = .suspended g) : g.frame = f := by
  cases p with
  | finished r => exact frame_afterPrimary h
  | suspended s =>
    by_cases hd : due ≤ e.now
    · rw [settlePrimary_timedOut hd] at h
      exact frame_afterPrimary h
    · cases hi : e.interrupts f.context with
      | true =>
        rw [settlePrimary_interrupted (by omega) hi] at h
        exact frame_afterPrimary h
      | false =>
        rw [settlePrimary_suspended (by omega) hi] at h
        cases h
        rfl

theorem frame_startCall (h : (f.startCall begin rescue e).1 = .suspended g) : g.frame = f := by
  cases hopen : f.circuit.limits.forceOpen with
  | true =>
    rw [startCall_of_open hopen] at h
    exact frame_afterPrimary h
  | false =>
    cases ha : e.acquire? f.circuit .primary with
    | none =>
      rw [startCall_of_full hopen ha] at h
      exact frame_afterPrimary h
    | some e' =>
      rw [startCall_of_acquired hopen ha] at h
      exact frame_settlePrimary h

end Frame

/-- A call that waits stays on its circuit and in its context. -/
theorem InFlight.frame_poll {c g : InFlight α} {e : Engine} (h : (c.poll e).1 = .suspended g) : g.frame = c.frame := by
  rw [InFlight.poll_eq] at h
  cases hstage : c.stage with
  | primary due rescue =>
    rw [hstage] at h
    exact Frame.frame_settlePrimary h
  | fallback cause =>
    rw [hstage] at h
    exact Frame.frame_settleFallback h

/-- How a task stands at an instant that makes a call at `start` in a context with deadline `d`: it is planned and not
late, or waits and is not late, or was answered in time. -/
inductive Task.InTime (x : Context) (start d now : Nat) : Task α → Prop
  | planned {c : Call α} : Context.background.derive start c.context = x → now ≤ start →
      InTime x start d now (.planned start (.call c))
  | running {c : InFlight α} : c.frame.context = x → now ≤ d → InTime x start d now (.running c)
  | ended {r : CallReport α} : r.context = x → r.ended ≤ max start d → InTime x start d now (.ended (.call r))

namespace Task.InTime

variable {x : Context} {start d now : Nat} {t : Task α} {ts : List (Task α)} {e : Engine} {k : Nat}

theorem earlier (h : InTime x start d (now + 1) t) : InTime x start d now t := by
  cases h with
  | planned hx hle => exact .planned hx (Nat.le_of_succ_le hle)
  | running hx hle => exact .running hx (Nat.le_of_succ_le hle)
  | ended hx hle => exact .ended hx hle

/-- The clock moves to an instant that no task asked to come before. -/
theorem later {n : Nat} (hd : x.deadline = some d) (h : InTime x start d (now + 1) t)
    (hmin : ∀ m ∈ t.wakes, now < m → n ≤ m) : InTime x start d n t := by
  cases h with
  | planned hx hle => exact .planned hx (hmin _ List.mem_cons_self hle)
  | @running c hx hle =>
    have hwake : d ∈ (Task.running c).wakes :=
      deadline_mem_wakes (t := .running c) List.mem_cons_self (hx.symm ▸ hd)
    exact .running hx (hmin d hwake hle)
  | ended hx hle => exact .ended hx hle

/-- Where a poll leaves a call: before its deadline if it waits. -/
theorem ofProgress {p : Progress (InFlight α) (Completion α) × Engine} (hnow : p.2.now = now)
    (hlate : now ≤ max start d) (hcut : d ≤ now → ∃ k, p.1 = .finished k)
    (hframe : ∀ g, p.1 = .suspended g → g.frame.context = x) :
    InTime x start d (now + 1) (Task.ofProgress x p).1 := by
  obtain ⟨g | k, e'⟩ := p
  · refine .running (hframe g rfl) (Nat.lt_of_not_le fun hle => ?_)
    obtain ⟨k, hk⟩ := hcut hle
    cases hk
  · exact .ended rfl (hnow ▸ hlate)

/-- **A poll** leaves a task that is in time before its beginning or its deadline, if it still waits for one. -/
theorem poll (hd : x.deadline = some d) (h : InTime x start d e.now t) :
    InTime x start d (e.now + 1) (t.poll e).1 := by
  have hi : d ≤ e.now → e.interrupts x = true := Engine.interrupts_of_deadline hd
  cases h with
  | ended hx hle => exact .ended hx hle
  | @planned c hx hle =>
    by_cases hbegin : start ≤ e.now
    · obtain rfl : start = e.now := Nat.le_antisymm hbegin hle
      rw [Task.poll, if_pos hbegin, Action.start, hx]
      refine ofProgress (c.acts_start x e).now_eq (Nat.le_max_left _ _) (fun hle => ?_) fun g hg => ?_
      · obtain ⟨k, hk, -⟩ := c.cutShort_of_interrupts (hi hle)
        exact ⟨k, hk⟩
      · rw [Frame.frame_startCall hg]
    · rw [Task.poll, if_neg hbegin]
      exact .planned hx (Nat.lt_of_not_le hbegin)
  | @running c hx hle =>
    subst hx
    rw [Task.poll]
    refine ofProgress (c.acts_poll e).now_eq (Nat.le_trans hle (Nat.le_max_right _ _)) (fun hle => ?_) fun g hg => ?_
    · obtain ⟨k, hk, -⟩ := InFlight.cutShort_of_interrupts (hi hle)
      exact ⟨k, hk⟩
    · rw [InFlight.frame_poll hg]

/-- **A round** does so as well. -/
theorem round (hd : x.deadline = some d) (ht : ts[k]? = some t) (h : InTime x start d e.now t) :
    ∃ t', (pollAll ts e).1[k]? = some t' ∧ InTime x start d (e.now + 1) t' := by
  have hnow : (Round.polled ⟨ts, e⟩ k).now = e.now := Round.now_polled ⟨ts, e⟩ k
  rw [← hnow] at h ⊢
  refine ⟨_, ?_, h.poll hd⟩
  rw [getElem?_pollAll, ht]
  rfl

/-- **The rounds of an instant** do so as well. -/
theorem settle (hd : x.deadline = some d) {fuel : Nat} (ht : ts[k]? = some t) (h : InTime x start d e.now t)
    (hfuel : sizeAll ts < fuel) :
    ∃ t', (settleAll fuel ts e).1[k]? = some t' ∧ InTime x start d (e.now + 1) t' := by
  induction fuel generalizing ts e t with
  | zero => exact absurd hfuel (Nat.not_lt_zero _)
  | succ fuel ih =>
    obtain ⟨t', hget, hround⟩ := h.round hd ht
    by_cases hsame : (pollAll ts e).2.signals.raisedCount = e.signals.raisedCount
    · rw [settleAll_of_same hsame]
      exact ⟨t', hget, hround⟩
    · rw [settleAll_of_raised hsame]
      have hsize : sizeAll (pollAll ts e).1 < fuel := by
        rcases sizeAll_pollAll ts e with hlt | ⟨-, hsame', -⟩
        · omega
        · exact absurd hsame' hsame
      have hnow : (pollAll ts e).2.now = e.now := Round.now_after ⟨ts, e⟩
      rw [← hnow] at hround ⊢
      exact ih hget hround.earlier hsize

/-- **A run** answers a task that is in time. -/
theorem run (hd : x.deadline = some d) {fuel : Nat} (ht : ts[k]? = some t) (h : InTime x start d e.now t)
    (hfuel : sizeAll (settleAll (sizeAll ts + 1) ts e).1 < fuel) :
    ∃ r, (runAll fuel ts e).1[k]? = some (.ended (.call r)) ∧ r.context = x ∧ r.ended ≤ max start d := by
  induction fuel generalizing ts e t with
  | zero => exact absurd hfuel (Nat.not_lt_zero _)
  | succ fuel ih =>
    obtain ⟨t', hget, hinstant⟩ := h.settle hd ht (Nat.lt_succ_self _)
    have hnow : (settleAll (sizeAll ts + 1) ts e).2.now = e.now := now_settleAll
    have hmem := List.mem_of_getElem? hget
    rw [← hnow] at hinstant
    rw [runAll]
    dsimp only
    cases hwake : nextWake (settleAll (sizeAll ts + 1) ts e).1 (settleAll (sizeAll ts + 1) ts e).2.now with
    | none =>
      -- a task that waits asks to be polled later
      cases hinstant with
      | planned hx hle => exact absurd (nextWake_eq_none hwake hmem List.mem_cons_self) (by omega)
      | @running c hx hle =>
        have hlate := nextWake_eq_none hwake hmem (deadline_mem_wakes List.mem_cons_self (hx.symm ▸ hd))
        exact absurd hlate (by omega)
      | @ended r hx hle => exact ⟨r, hget, hx, hle⟩
    | some n =>
      obtain ⟨-, ⟨u, hu, hwu⟩, hmin⟩ := nextWake_eq_some hwake
      refine ih hget (hinstant.later hd (hmin t' hmem)) ?_
      exact Nat.lt_of_lt_of_le (sizeAll_settleAll hu hwu) (Nat.le_of_lt_succ hfuel)

end Task.InTime

/-- **A call is answered by its deadline**, or at the instant at which it is made if that is later. -/
theorem Engine.run_by_deadline (e : Engine) {items : List (Item α)} {k start d : Nat} {c : Call α}
    (hitem : items[k]? = some ⟨start, .call c⟩)
    (hd : (Context.background.derive (e.now + start) c.context).deadline = some d) :
    ∃ r, (e.run items).1[k]? = some (some (.call r)) ∧
      r.context = Context.background.derive (e.now + start) c.context ∧ r.ended ≤ max (e.now + start) d := by
  have htask : (items.map fun i => Task.planned (e.now + i.start) i.action)[k]? =
      some (.planned (e.now + start) (.call c)) := by
    rw [List.getElem?_map, hitem]
    rfl
  obtain ⟨r, hget, hx, hle⟩ := Task.InTime.run hd htask (.planned rfl (Nat.le_add_right _ _))
    (Nat.lt_succ_of_le Task.sizeAll_settleAll_le)
  refine ⟨r, ?_, hx, hle⟩
  simp only [Engine.run, List.getElem?_map, hget]
  rfl

/-! ## The whole chain -/

/-- **Deadlines only tighten.** The last context of a chain has the earliest of the instants that were set on the way
as its deadline, and none if none was set. So the deadline of any context above it bounds what runs in it: a call that
is polled or made in it at or after that instant does not wait; no call in it, however deep inside others, is pending at
a pause of a group at or after that instant, and while one is pending another pause comes by then; and a call of a group
is answered by then, or at the instant at which it is made. -/
theorem Context.Chain.tightens {instants : List Nat} {x : Context} (h : Chain instants x) :
    x.deadline = instants.min? ∧ (x.deadline = none ↔ instants = []) ∧
    ∀ (p : Context) (names : List String) (d : Nat), p.Below names x → p.deadline = some d →
      (∀ (e : Engine) (c : InFlight α), c.frame.context = x → d ≤ e.now → c.CutShort e) ∧
      (∀ (e : Engine) (c : Call α), d ≤ e.now → c.CutShort x e) ∧
      (∀ (e : Engine) (items : List (Item α)) (before after : List (Round α)) (s : Round α),
        e.pauses items = before ++ s :: after → ∀ t ∈ s.tasks, ∀ k ∈ t.pending, k.frame.context = x →
          s.engine.now < d ∧
            ∃ s' later, after = s' :: later ∧ s.engine.now < s'.engine.now ∧ s'.engine.now ≤ d) ∧
      ∀ (e : Engine) (items : List (Item α)) (k start : Nat) (c : Call α),
        items[k]? = some ⟨start, .call c⟩ → Context.background.derive (e.now + start) c.context = x →
          ∃ r, (e.run items).1[k]? = some (some (.call r)) ∧ r.context = x ∧ r.ended ≤ max (e.now + start) d := by
  refine ⟨h.deadline_eq, ?_, ?_⟩
  · rw [h.deadline_eq, List.min?_eq_none_iff]
  · intro p names d hbelow hd
    obtain ⟨d', hle, hx⟩ := hbelow.deadline_le hd
    refine ⟨?_, ?_, ?_, ?_⟩
    · intro e c hc hlate
      exact InFlight.cutShort_of_interrupts (hc ▸ Engine.interrupts_of_deadline hx (Nat.le_trans hle hlate))
    · intro e c hlate
      exact Call.cutShort_of_interrupts (Engine.interrupts_of_deadline hx (Nat.le_trans hle hlate))
    · intro e items before after s hpauses t ht k hk hc
      obtain ⟨hlt, s', later, hafter, hlater, hby⟩ := Engine.lt_deadline_of_pending hpauses ht hk (hc ▸ hx)
      exact ⟨by omega, s', later, hafter, hlater, by omega⟩
    · rintro e items k start c hitem rfl
      obtain ⟨r, hget, hr, hby⟩ := e.run_by_deadline hitem hx
      exact ⟨r, hget, hr, by omega⟩

/-! ## A deadline that is handed down -/

namespace Handed

/-- How a context is made: each of the two children would have more time than the first context has left. -/
def derivation : Context.Derivation := { steps := [.deadline 15, .child 50, .signal "stop", .child 20] }

/-- The context that is made so five milliseconds after the beginning. -/
def context : Context := Context.background.derive 5 derivation

/-- A circuit with more time for a call than the context leaves. -/
def circuit : Circuit := ⟨0, ⟨⟨"", "db"⟩, 0⟩, {}⟩

/-- A call in that context, of work that never ends. -/
def call : Call Nat := ⟨circuit, derivation, .hang, none⟩

/-- The call while its work is suspended. -/
def waiting : InFlight Nat := ⟨⟨circuit, context⟩, .primary 1005 none, .hanging⟩

/-- An engine without circuits. -/
def engine : Engine := { registry := { settings := {} } }

theorem chain : Context.Chain [25, 55, 15] context := .child 5 20 (.attach "stop" (.child 5 50 (.deadline 15)))

theorem below : (Context.withDeadline 15).Below ["stop"] context := .child 5 20 (.attach "stop" (.child 5 50 .refl))

end Handed

/-- The first deadline ends the call two children below. -/
theorem Context.Chain.tightens_handed : Chain [25, 55, 15] Handed.context ∧
    Handed.context.deadline = some 15 ∧
    (∃ k, (Handed.waiting.poll { Handed.engine with now := 15 }).1 = .finished k ∧ k.primary = .error .interrupted) ∧
    ∃ r, (Handed.engine.run [⟨5, .call Handed.call⟩]).1[0]? = some (some (.call r)) ∧ r.ended ≤ 15 := by
  obtain ⟨hdeadline, -, hbelow⟩ := @Context.Chain.tightens Nat _ _ Handed.chain
  obtain ⟨hpoll, -, -, hrun⟩ := hbelow _ _ 15 Handed.below rfl
  refine ⟨Handed.chain, hdeadline, ?_, ?_⟩
  · obtain ⟨k, hk, hprimary, -⟩ := hpoll { Handed.engine with now := 15 } Handed.waiting rfl (Nat.le_refl 15)
    exact ⟨k, hk, hprimary⟩
  · obtain ⟨r, hget, -, hended⟩ := hrun Handed.engine [⟨5, .call Handed.call⟩] 0 5 Handed.call rfl rfl
    exact ⟨r, hget, hended⟩

end CallGuard
