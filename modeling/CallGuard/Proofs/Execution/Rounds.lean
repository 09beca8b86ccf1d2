import CallGuard.Proofs.Execution.Fuel

/-!
# The rounds of a run

A run of a group is a list of rounds: in each of them every task is polled once, in the order of the tasks. At one
instant rounds follow each other until one raises no signal; then the clock moves. `Engine.rounds` is that list, and
what a task or an onlooker sees of a run is read off it: the engine in which the task is polled (`Round.polled`) and the
engine that the round leaves (`Round.after`).

**Main statements.** The clock never goes back (`Task.le_now_of_mem_runRounds`); it moves to the first instant at which a
task asks to be polled (`Task.nextWake_eq_some`), and then some task has fewer steps left (`Task.sizeAll_settleAll`).
-/

namespace CallGuard

variable {α : Type}

/-- The tasks and the engine at the beginning of a round of polls. -/
structure Round (α : Type) where
  tasks : List (Task α)
  engine : Engine

namespace Round

/-- The engine in which the task at a position is polled. -/
def polled (c : Round α) (k : Nat) : Engine := (Task.pollAll (c.tasks.take k) c.engine).2

/-- The engine after the round. -/
def after (c : Round α) : Engine := (Task.pollAll c.tasks c.engine).2

end Round

namespace Task

/-- The rounds at one instant, as many as `settleAll` makes. -/
def settleRounds : Nat → List (Task α) → Engine → List (Round α)
  | 0, _, _ => []
  | fuel + 1, ts, e => ⟨ts, e⟩ ::
    if (pollAll ts e).2.signals.raisedCount = e.signals.raisedCount then []
    else settleRounds fuel (pollAll ts e).1 (pollAll ts e).2

/-- The rounds of a run, as many as `runAll` makes. -/
def runRounds : Nat → List (Task α) → Engine → List (Round α)
  | 0, _, _ => []
  | fuel + 1, ts, e =>
    let (ts', e') := settleAll (sizeAll ts + 1) ts e
    settleRounds (sizeAll ts + 1) ts e ++ match nextWake ts' e'.now with
      | some t => runRounds fuel ts' { e' with now := t }
      | none => []

end Task

/-- The rounds in which the tasks of a group are run. -/
def Engine.rounds (e : Engine) (items : List (Item α)) : List (Round α) :=
  let tasks := items.map fun i => Task.planned (e.now + i.start) i.action
  Task.runRounds (Task.sizeAll tasks + 1) tasks e

namespace Task

variable (ts us : List (Task α)) (e : Engine)

/-! ## One round -/

theorem pollAll_append : pollAll (ts ++ us) e =
    ((pollAll ts e).1 ++ (pollAll us (pollAll ts e).2).1, (pollAll us (pollAll ts e).2).2) := by
  induction ts generalizing e with
  | nil => rfl
  | cons t ts ih => simp only [List.cons_append, pollAll, ih]

/-- A round polls the task at a position in the engine that the tasks before it leave. -/
theorem getElem?_pollAll (k : Nat) :
    (pollAll ts e).1[k]? = ts[k]?.map fun t => (t.poll (Round.polled ⟨ts, e⟩ k)).1 := by
  induction ts generalizing e k with
  | nil => rfl
  | cons t ts ih =>
    cases k with
    | zero => rfl
    | succ k => exact ih (t.poll e).2 k

end Task

namespace Round

variable (c : Round α) (k : Nat)

theorem acts_polled : Engine.Acts c.engine (c.polled k) := Task.acts_pollAll ..

theorem acts_after : Engine.Acts (c.polled k) c.after := by
  have happend := Task.pollAll_append (c.tasks.take k) (c.tasks.drop k) c.engine
  rw [List.take_append_drop] at happend
  rw [after, happend]
  exact Task.acts_pollAll ..

theorem now_polled : (c.polled k).now = c.engine.now := (c.acts_polled k).now_eq

theorem now_after : c.after.now = c.engine.now := (Task.acts_pollAll ..).now_eq

end Round

namespace Task

variable {ts : List (Task α)} {e : Engine} {fuel : Nat}

/-! ## One instant -/

theorem settleAll_of_same (h : (pollAll ts e).2.signals.raisedCount = e.signals.raisedCount) :
    settleAll (fuel + 1) ts e = pollAll ts e := if_pos h

theorem settleAll_of_raised (h : (pollAll ts e).2.signals.raisedCount ≠ e.signals.raisedCount) :
    settleAll (fuel + 1) ts e = settleAll fuel (pollAll ts e).1 (pollAll ts e).2 := if_neg h

theorem now_settleAll : (settleAll fuel ts e).2.now = e.now := by
  induction fuel generalizing ts e with
  | zero => rfl
  | succ fuel ih =>
    have hround := (acts_pollAll ts e).now_eq
    by_cases h : (pollAll ts e).2.signals.raisedCount = e.signals.raisedCount
    · rw [settleAll_of_same h, hround]
    · rw [settleAll_of_raised h, ih, hround]

theorem now_of_mem_settleRounds {c : Round α} (h : c ∈ settleRounds fuel ts e) : c.engine.now = e.now := by
  induction fuel generalizing ts e with
  | zero => exact absurd h List.not_mem_nil
  | succ fuel ih =>
    rw [settleRounds, List.mem_cons] at h
    rcases h with rfl | h
    · rfl
    · split at h
      · exact absurd h List.not_mem_nil
      · rw [ih h, (acts_pollAll ts e).now_eq]

theorem sizeAll_settleAll_le : sizeAll (settleAll fuel ts e).1 ≤ sizeAll ts := by
  induction fuel generalizing ts e with
  | zero => exact Nat.le_refl _
  | succ fuel ih =>
    have hround := sizeAll_pollAll ts e
    by_cases h : (pollAll ts e).2.signals.raisedCount = e.signals.raisedCount
    · rw [settleAll_of_same h]
      omega
    · have hrest : sizeAll (settleAll fuel (pollAll ts e).1 (pollAll ts e).2).1 ≤ sizeAll (pollAll ts e).1 := ih
      rw [settleAll_of_raised h]
      omega

/-- An instant at which a task asked to be polled lowers the bound. -/
theorem sizeAll_settleAll {t : Task α} (ht : t ∈ ts) (hw : e.now ∈ t.wakes) :
    sizeAll (settleAll (fuel + 1) ts e).1 < sizeAll ts := by
  have hround : sizeAll (pollAll ts e).1 < sizeAll ts := by
    rcases sizeAll_pollAll ts e with h | ⟨-, -, h⟩
    · exact h
    · exact absurd hw (h t ht)
  by_cases h : (pollAll ts e).2.signals.raisedCount = e.signals.raisedCount
  · rw [settleAll_of_same h]
    exact hround
  · rw [settleAll_of_raised h]
    exact Nat.lt_of_le_of_lt sizeAll_settleAll_le hround

/-! ## From one instant to the next -/

theorem nextWake_eq_some {now n : Nat} (h : nextWake ts now = some n) :
    now < n ∧ (∃ t ∈ ts, n ∈ t.wakes) ∧ ∀ t ∈ ts, ∀ m ∈ t.wakes, now < m → n ≤ m := by
  obtain ⟨hmem, hmin⟩ := List.min?_eq_some_iff.mp h
  obtain ⟨hmem, hlt⟩ := List.mem_filter.mp hmem
  refine ⟨of_decide_eq_true hlt, List.mem_flatMap.mp hmem, fun t ht m hm hlt => hmin m ?_⟩
  exact List.mem_filter.mpr ⟨List.mem_flatMap.mpr ⟨t, ht, hm⟩, decide_eq_true hlt⟩

theorem nextWake_eq_none {now : Nat} (h : nextWake ts now = none) {t : Task α} (ht : t ∈ ts) {m : Nat}
    (hm : m ∈ t.wakes) : m ≤ now := by
  refine Nat.le_of_not_lt ?_
  intro hlt
  have hmem : m ∈ (ts.flatMap wakes).filter (now < ·) :=
    List.mem_filter.mpr ⟨List.mem_flatMap.mpr ⟨t, ht, hm⟩, decide_eq_true hlt⟩
  rw [List.min?_eq_none_iff.mp h] at hmem
  exact absurd hmem List.not_mem_nil

/-- **The clock never goes back.** -/
theorem le_now_of_mem_runRounds {c : Round α} (h : c ∈ runRounds fuel ts e) : e.now ≤ c.engine.now := by
  induction fuel generalizing ts e with
  | zero => exact absurd h List.not_mem_nil
  | succ fuel ih =>
    rw [runRounds, List.mem_append] at h
    rcases h with h | h
    · exact Nat.le_of_eq (now_of_mem_settleRounds h).symm
    · split at h
      · rename_i n hn
        have hlt := (nextWake_eq_some hn).1
        rw [now_settleAll] at hlt
        exact Nat.le_trans (Nat.le_of_lt hlt) (ih h)
      · exact absurd h List.not_mem_nil

end Task
end CallGuard
