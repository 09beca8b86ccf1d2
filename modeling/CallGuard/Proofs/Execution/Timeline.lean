import CallGuard.Proofs.Execution.Race
import CallGuard.Proofs.Execution.Rounds

/-!
# The timeline of a call in a run

A group may hold any tasks: other calls on the same circuit and on others, cancellations, observations. A call of delayed
work in it sees of them the signal of its context, which is first raised at some instant of the run
(`Round.firstRaised`), and whether a permit is free when it asks for one (`Race.Free`).

**Main statement** (`Engine.run_race`): given the permits, the call ends as its race is decided, whatever the other tasks
do; so each of the instants at which it can be polled is one at which it is polled, before or after the others.
-/

namespace CallGuard

variable {α : Type}

/-! ## What a call sees of a run -/

namespace Round

/-- The instant of the first round after which the signal of a context is raised. -/
def firstRaised (x : Context) (rounds : List (Round α)) : Instant :=
  Instant.ofOption ((rounds.find? (·.after.raised x)).map (·.engine.now))

/-- The engine in which the task at a position is polled for the first time at or after an instant. -/
def firstFrom (k : Nat) (t : Instant) (rounds : List (Round α)) : Option Engine :=
  (rounds.find? fun c => decide (t ≤ c.engine.now)).map (·.polled k)

variable {c : Round α} {cs : List (Round α)} {x : Context} {k : Nat} {t : Instant}

theorem firstRaised_cons_of_raised (h : c.after.raised x = true) : firstRaised x (c :: cs) = c.engine.now := by
  simp only [firstRaised, List.find?_cons, h]
  rfl

theorem firstRaised_cons_of_not_raised (h : c.after.raised x = false) :
    firstRaised x (c :: cs) = firstRaised x cs := by
  simp only [firstRaised, List.find?_cons, h]

theorem le_firstRaised (h : ∀ c ∈ cs, t ≤ c.engine.now) : t ≤ firstRaised x cs := by
  unfold firstRaised
  cases hc : cs.find? (·.after.raised x) with
  | none => exact Instant.le_never _
  | some c => exact h c (List.mem_of_find?_eq_some hc)

theorem firstFrom_cons_of_le (h : t ≤ c.engine.now) : firstFrom k t (c :: cs) = some (c.polled k) := by
  simp only [firstFrom, List.find?_cons, decide_eq_true h]
  rfl

theorem firstFrom_cons_of_lt (h : c.engine.now < t) : firstFrom k t (c :: cs) = firstFrom k t cs := by
  simp only [firstFrom, List.find?_cons, decide_eq_false (not_le.mpr h)]

end Round

namespace Race

/-- A permit is free for each part of the call of a race when that part is begun, by the task at a position. -/
structure Free (r : Race α) (k : Nat) (rounds : List (Round α)) : Prop where
  primary : ∀ e ∈ Round.firstFrom k r.begun rounds, ¬ (e.limiter r.frame.circuit .primary).Full
  fallback : r.rescued?.isSome = true →
    ∀ e ∈ Round.firstFrom k r.primary.2 rounds, ¬ (e.limiter r.frame.circuit .fallback).Full

/-- How the call of a race, the task at a position, stands before the rounds that are left. -/
structure Holds (r : Race α) (k : Nat) (t : Task α) (e : Engine) (rounds : List (Round α)) : Prop where
  course : r.Course e.now t
  due : e.now ≤ r.due t
  primary : unbegun t → ∀ e' ∈ Round.firstFrom k r.begun rounds, ¬ (e'.limiter r.frame.circuit .primary).Full
  fallback : r.rescued?.isSome = true → undecided t →
    ∀ e' ∈ Round.firstFrom k r.primary.2 rounds, ¬ (e'.limiter r.frame.circuit .fallback).Full
  cancel : (e.raised r.frame.context = true ∧ r.cancel ≤ e.now) ∨
    (e.raised r.frame.context = false ∧ r.cancel = Round.firstRaised r.frame.context rounds)

variable {r : Race α} {k : Nat} {t : Task α} {c : Round α} {cs : List (Round α)}

/-! ## One round -/

/-- What a race foresees of the signal of its context is still so after a round. -/
theorem Holds.cancel_after (h : r.Holds k t c.engine (c :: cs)) :
    (c.after.raised r.frame.context = true ∧ r.cancel ≤ c.engine.now) ∨
      (c.after.raised r.frame.context = false ∧ r.cancel = Round.firstRaised r.frame.context cs) := by
  have hacts := (c.acts_polled k).trans (c.acts_after k)
  rcases h.cancel with ⟨hr, hle⟩ | ⟨-, heq⟩
  · exact .inl ⟨hacts.raised hr, hle⟩
  · cases hafter : c.after.raised r.frame.context with
    | true => exact .inl ⟨rfl, (heq.trans (Round.firstRaised_cons_of_raised hafter)).le⟩
    | false => exact .inr ⟨rfl, heq.trans (Round.firstRaised_cons_of_not_raised hafter)⟩

theorem Holds.reached (h : r.Holds k t c.engine (c :: cs)) (hopen : r.frame.circuit.limits.forceOpen = false) :
    r.Reached c.engine.now ((c.polled k).raised r.frame.context) (t.poll (c.polled k)).1 := by
  have hn := c.now_polled k
  have hcourse := h.course
  have hdue := h.due
  rw [← hn] at hcourse hdue ⊢
  refine hcourse.poll hdue hopen ?_ ⟨?_, ?_⟩
  · intro hr
    -- what the call sees raised is raised after the round, at this instant
    rw [hn]
    rcases h.cancel_after with ⟨-, hle⟩ | ⟨hafter, -⟩
    · exact hle
    · rw [(c.acts_after k).raised hr] at hafter
      cases hafter
  · intro ht hle
    rw [hn] at hle
    exact h.primary ht _ (Round.firstFrom_cons_of_le (Instant.ms_le_ms.mpr hle))
  · intro hr ht heq
    rw [hn] at heq
    exact h.fallback hr ht _ (Round.firstFrom_cons_of_le heq.le)

/-- A call that still stands before an event stood before it all the time. -/
theorem Course.unbegun_of_poll {e : Engine} (ht : r.Course e.now t) (hlt : e.now < r.begun)
    (h : unbegun (t.poll e).1) : unbegun t := by
  cases ht with
  | planned => trivial
  | primary hle => exact absurd hlt hle.not_gt
  | fallback hr heq hle =>
    have hbegun := r.begun_le_primary
    rw [heq] at hbegun
    exact absurd hlt ((Instant.ms_le_ms.mp hbegun).trans hle).not_gt
  | ended => exact h

theorem Course.undecided_of_poll {e : Engine} (ht : r.Course e.now t) (hlt : e.now < r.primary.2)
    (h : undecided (t.poll e).1) : undecided t := by
  cases ht with
  | planned => trivial
  | primary => rfl
  | fallback hr heq hle =>
    rw [heq] at hlt
    exact absurd (Instant.ms_lt_ms.mp hlt) hle.not_gt
  | ended => exact h

/-- **A round** keeps how the call of a race stands. -/
theorem Holds.round (h : r.Holds k t c.engine (c :: cs)) (hopen : r.frame.circuit.limits.forceOpen = false) :
    r.Holds k (t.poll (c.polled k)).1 c.after cs := by
  have hreached := h.reached hopen
  have hcourse : r.Course (c.polled k).now t := c.now_polled k ▸ h.course
  have hn := c.now_after
  refine ⟨hn ▸ hreached.course, hn ▸ hreached.due, ?_, ?_, hn ▸ h.cancel_after⟩
  · intro ht
    have hlt := hreached.unbegun ht
    have hbefore := hcourse.unbegun_of_poll (c.now_polled k ▸ hlt) ht
    rw [← Round.firstFrom_cons_of_lt (Instant.ms_lt_ms.mpr hlt)]
    exact h.primary hbefore
  · intro hr ht
    have hlt := hreached.undecided ht hr
    have hbefore := hcourse.undecided_of_poll (c.now_polled k ▸ hlt) ht
    rw [← Round.firstFrom_cons_of_lt hlt]
    exact h.fallback hr hbefore

/-- A round that raises no signal, the last of its instant, goes past every event of it. -/
theorem Holds.past (h : r.Holds k t c.engine (c :: cs)) (hopen : r.frame.circuit.limits.forceOpen = false)
    (hsame : c.after.signals.raisedCount = c.engine.signals.raisedCount)
    (hlater : ∀ c' ∈ cs, c.engine.now < c'.engine.now) :
    c.engine.now < r.due (t.poll (c.polled k)).1 := by
  refine (h.reached hopen).past ?_
  intro hle
  have hafter : c.after.raised r.frame.context = true := by
    rcases h.cancel_after with ⟨hr, -⟩ | ⟨-, heq⟩
    · exact hr
    · -- a later raising comes after this instant
      have hge : (c.engine.now + 1 : Nat) ≤ Round.firstRaised r.frame.context cs :=
        Round.le_firstRaised fun c' hc' => Instant.ms_le_ms.mpr (hlater c' hc')
      rw [← heq] at hge
      exact absurd (Instant.ms_le_ms.mp (hge.trans hle)) (Nat.not_succ_le_self _)
  -- no signal was raised in the round, so it was raised when the call was polled
  have hle₁ := (c.acts_polled k).signals_grow.count_le
  have hle₂ := (c.acts_after k).signals_grow.count_le
  rw [← (c.acts_after k).raised_eq (by omega)]
  exact hafter

/-! ## One instant -/

/-- **The rounds of an instant** keep how the call of a race stands, and go past every event of the instant. -/
theorem Holds.settle (hopen : r.frame.circuit.limits.forceOpen = false) {fuel : Nat} {ts : List (Task α)} {e : Engine}
    {later : List (Round α)} (ht : ts[k]? = some t) (h : r.Holds k t e (Task.settleRounds fuel ts e ++ later))
    (hfuel : Task.sizeAll ts < fuel) (hlater : ∀ c ∈ later, e.now < c.engine.now) :
    ∃ t', (Task.settleAll fuel ts e).1[k]? = some t' ∧ r.Holds k t' (Task.settleAll fuel ts e).2 later ∧
      e.now < r.due t' := by
  induction fuel generalizing ts e t with
  | zero => exact absurd hfuel (Nat.not_lt_zero _)
  | succ fuel ih =>
    have hpoll : (Task.pollAll ts e).1[k]? = some (t.poll (Round.polled ⟨ts, e⟩ k)).1 := by
      rw [Task.getElem?_pollAll, ht]
      rfl
    rw [Task.settleRounds, List.cons_append] at h
    by_cases hsame : (Task.pollAll ts e).2.signals.raisedCount = e.signals.raisedCount
    · rw [if_pos hsame, List.nil_append] at h
      rw [Task.settleAll_of_same hsame]
      exact ⟨_, hpoll, h.round hopen, h.past hopen hsame hlater⟩
    · rw [if_neg hsame] at h
      rw [Task.settleAll_of_raised hsame]
      have hn : (Task.pollAll ts e).2.now = e.now := Round.now_after ⟨ts, e⟩
      have hsize : Task.sizeAll (Task.pollAll ts e).1 < fuel := by
        rcases Task.sizeAll_pollAll ts e with hlt | ⟨-, hsame', -⟩
        · omega
        · exact absurd hsame' hsame
      obtain ⟨t', hget, hholds, hlt⟩ := ih hpoll (h.round hopen) hsize (hn ▸ hlater)
      exact ⟨t', hget, hholds, hn ▸ hlt⟩

/-! ## A whole run -/

/-- What a race foresees of the signal of its context when a run begins. -/
theorem foreseen {fuel : Nat} {ts : List (Task α)} {e : Engine}
    (h : r.cancel = Round.firstRaised r.frame.context (Task.runRounds (fuel + 1) ts e)) :
    (e.raised r.frame.context = true ∧ r.cancel ≤ e.now) ∨ (e.raised r.frame.context = false ∧
      r.cancel = Round.firstRaised r.frame.context (Task.runRounds (fuel + 1) ts e)) := by
  cases hr : e.raised r.frame.context with
  | true =>
    have hafter : (Round.after ⟨ts, e⟩).raised r.frame.context = true := (Task.acts_pollAll ts e).raised hr
    exact .inl ⟨rfl, (h.trans (Round.firstRaised_cons_of_raised hafter)).le⟩
  | false => exact .inr ⟨rfl, h⟩

theorem Course.later {now n : Nat} (ht : r.Course now t) (hle : now ≤ n) : r.Course n t := by
  cases ht with
  | planned hd => exact .planned hd
  | primary hb => exact .primary (Nat.le_trans hb hle)
  | fallback hr heq hb => exact .fallback hr heq (Nat.le_trans hb hle)
  | ended hverdict => exact .ended hverdict

/-- **A run** answers the call of a race as the race is decided. -/
theorem Holds.run (hopen : r.frame.circuit.limits.forceOpen = false) {fuel : Nat} {ts : List (Task α)} {e : Engine}
    (ht : ts[k]? = some t) (h : r.Holds k t e (Task.runRounds fuel ts e))
    (hfuel : Task.sizeAll (Task.settleAll (Task.sizeAll ts + 1) ts e).1 < fuel) :
    ∃ t', (Task.runAll fuel ts e).1[k]? = some t' ∧ r.Answered t'.reply? := by
  induction fuel generalizing ts e t with
  | zero => exact absurd hfuel (Nat.not_lt_zero _)
  | succ fuel ih =>
    have hnow : (Task.settleAll (Task.sizeAll ts + 1) ts e).2.now = e.now := Task.now_settleAll
    rw [Task.runRounds] at h
    rw [Task.runAll]
    dsimp only at h ⊢
    cases hwake : Task.nextWake (Task.settleAll (Task.sizeAll ts + 1) ts e).1
        (Task.settleAll (Task.sizeAll ts + 1) ts e).2.now with
    | none =>
      rw [hwake] at h
      obtain ⟨t', hget, hholds, hlt⟩ := h.settle hopen ht (Nat.lt_succ_self _) fun _ hc =>
        absurd hc List.not_mem_nil
      refine ⟨t', hget, hholds.course.answered (Instant.never_le_iff.mp ?_)⟩
      -- nothing that is still to come is ever reached
      refine hholds.course.le_due (hnow ▸ hlt) ?_ ?_
      · intro m hm hlt
        exact absurd hlt (Task.nextWake_eq_none hwake (List.mem_of_getElem? hget) hm).not_gt
      · intro hlt
        rcases hholds.cancel with ⟨-, hle⟩ | ⟨-, heq⟩
        · exact absurd hlt hle.not_gt
        · exact heq.ge
    | some n =>
      rw [hwake] at h
      obtain ⟨hlater, ⟨u, hu, hwu⟩, hmin⟩ := Task.nextWake_eq_some hwake
      obtain ⟨t', hget, hholds, hlt⟩ := h.settle hopen ht (Nat.lt_succ_self _) fun c hc =>
        Nat.lt_of_lt_of_le (hnow ▸ hlater) (Task.le_now_of_mem_runRounds hc)
      refine ih hget ⟨hholds.course.later (Nat.le_of_lt hlater), ?_, hholds.primary, hholds.fallback, ?_⟩ ?_
      · refine hholds.course.le_due (hnow ▸ hlt) ?_ ?_
        · intro m hm hlt
          exact Instant.ms_le_ms.mpr (hmin t' (List.mem_of_getElem? hget) m hm hlt)
        · intro hlt
          rcases hholds.cancel with ⟨-, hle⟩ | ⟨-, heq⟩
          · exact absurd hlt hle.not_gt
          · rw [heq]
            exact Round.le_firstRaised fun c hc => Instant.ms_le_ms.mpr (Task.le_now_of_mem_runRounds hc)
      · rcases hholds.cancel with ⟨hr, hle⟩ | hlast
        · exact .inl ⟨hr, hle.trans (Instant.ms_le_ms.mpr (Nat.le_of_lt hlater))⟩
        · exact .inr hlast
      · exact Nat.lt_of_lt_of_le (Task.sizeAll_settleAll hu hwu) (Nat.le_of_lt_succ hfuel)

end Race

/-- The race of a call of delayed work that an item of a group makes. -/
def Engine.race (e : Engine) (items : List (Item α)) (start : Nat) (c : Circuit) (d : Context.Derivation)
    (work : Delayed α) (rescue : Option (Delayed α)) : Race α :=
  let context := Context.background.derive (e.now + start) d
  ⟨⟨c, context⟩, Round.firstRaised context (e.rounds items), e.now + start, work, rescue⟩

/-- **Which event ends a call, and when.** In every group, a call of delayed work on a circuit that is not forced open
ends as its race is decided, if a permit is free for each of its parts when that part is begun. -/
theorem Engine.run_race (e : Engine) (items : List (Item α)) {k start : Nat} {c : Circuit} {d : Context.Derivation}
    {work : Delayed α} {rescue : Option (Delayed α)}
    (hitem : items[k]? = some ⟨start, .call ⟨c, d, work.work, rescue.map Delayed.work⟩⟩)
    (hopen : c.limits.forceOpen = false)
    (hfree : (e.race items start c d work rescue).Free k (e.rounds items)) :
    ∃ answer, (e.run items).1[k]? = some answer ∧ (e.race items start c d work rescue).Answered answer := by
  have htask : (items.map fun i => Task.planned (e.now + i.start) i.action)[k]? =
      some (.planned (e.now + start) (.call ⟨c, d, work.work, rescue.map Delayed.work⟩)) := by
    rw [List.getElem?_map, hitem]
    rfl
  have hbegin : (e.race items start c d work rescue).Holds k _ e (e.rounds items) :=
    ⟨.planned rfl, Instant.ms_le_ms.mpr (Nat.le_add_right _ _), fun _ => hfree.primary, fun hr _ => hfree.fallback hr,
      Race.foreseen rfl⟩
  obtain ⟨t', hget, hanswer⟩ := hbegin.run hopen htask (Nat.lt_succ_of_le Task.sizeAll_settleAll_le)
  refine ⟨t'.reply?, ?_, hanswer⟩
  simp only [Engine.run, List.getElem?_map, hget]
  rfl

/-! ## A tie -/

namespace Tie

/-- A circuit with ten milliseconds for a call and one permit for either part. -/
def circuit : Circuit := ⟨0, ⟨⟨"", "db"⟩, 0⟩, { timeout := 10, maxCalls := some 1, maxFallbacks := some 1 }⟩

/-- The context of the call: a deadline and a signal. -/
def context : Context.Derivation := { steps := [.deadline 20, .signal "stop"] }

/-- Work that never ends. -/
def work : Delayed Nat := ⟨none, .ok (.plain 0)⟩

/-- A fallback that ends at the deadline. -/
def rescue : Delayed Nat := ⟨some 8, .ok (.plain 7)⟩

/-- The call, and a cancellation at its deadline that is polled before it. -/
def items : List (Item Nat) := [⟨20, .cancel "stop"⟩, ⟨2, .call ⟨circuit, context, work.work, some rescue.work⟩⟩]

/-- An engine without circuits. -/
def engine : Engine := { registry := { settings := {} } }

/-- The race of the call. -/
def race : Race Nat := engine.race items 2 circuit context work (some rescue)

end Tie

/-- The fallback ends at the instant of the deadline and of the cancellation, and its own result counts. -/
theorem Engine.run_race_tie : Tie.race.Free 1 (Tie.engine.rounds Tie.items) ∧
    ∃ cancelled, (Tie.engine.run Tie.items).1[1]? = some (some (.call
      ⟨⟨.error (.timeout (.ofMillis 10)), some (.timeout (.ofMillis 10)), .ok (.plain 7)⟩, ⟨some 20, some "stop"⟩,
        cancelled, 20⟩)) := by
  have hprimary : (Round.firstFrom 1 Tie.race.begun (Tie.engine.rounds Tie.items)).all
      (fun e => decide ¬ (e.limiter Tie.circuit .primary).Full) = true := by decide +kernel
  have hfallback : (Round.firstFrom 1 Tie.race.primary.2 (Tie.engine.rounds Tie.items)).all
      (fun e => decide ¬ (e.limiter Tie.circuit .fallback).Full) = true := by decide +kernel
  have hfree : Tie.race.Free 1 (Tie.engine.rounds Tie.items) := by
    constructor
    · intro e he
      rw [he] at hprimary
      exact of_decide_eq_true hprimary
    · intro _ e he
      rw [he] at hfallback
      exact of_decide_eq_true hfallback
  refine ⟨hfree, ?_⟩
  obtain ⟨answer, hget, cancelled, rfl⟩ := Engine.run_race Tie.engine Tie.items rfl rfl hfree
  exact ⟨cancelled, hget⟩

end CallGuard
