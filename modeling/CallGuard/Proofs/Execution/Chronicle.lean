import CallGuard.Proofs.Execution.Ledger
import CallGuard.Proofs.Execution.Rounds

/-!
# The chronicle of a run

The ledger says what a poll of a call enters. Here it is collected over the polls of tasks, the rounds of a group and
the instants at which they are made: the chronicle of a run lists the ends of all parts of all calls in it, each with
the millisecond in which it came.

* **Accounts** (`Task.accounts_pollAll`): the ledger of a round accounts for it.
* **Rounds lead on** (`Engine.Leads`): the rounds of a run join up, from the engine in which it begins to the one in which
  it ends, with nothing between them but the moves of the clock.
* **Chronicles** (`Engine.Leads.keeps`): whatever accounted polls and moves of the clock keep, of an engine and the
  chronicle until then, holds at the end of every run, and in the midst of it.
-/

namespace CallGuard

variable {α : Type}

/-! ## What a round enters -/

namespace Task

/-- What is entered while a task is polled. -/
def ledger : Task α → Engine → List Entry
  | .planned start (.call c), e =>
    let context := Context.background.derive e.now c.context
    if start ≤ e.now then c.innerLedger context e ++ (c.start context e).1.entries c.circuit.handle else []
  | .running c, e => c.innerLedger e ++ c.ownEntries e
  | _, _ => []

/-- What is entered while tasks are polled in their order. -/
def ledgerAll : List (Task α) → Engine → List Entry
  | [], _ => []
  | t :: ts, e => t.ledger e ++ ledgerAll ts (t.poll e).2

/-- **A poll of a task is accounted for.** -/
theorem accounts_poll (t : Task α) (e : Engine) : Accounts e (t.poll e).2 (t.ledger e) := by
  cases t with
  | planned start a =>
    cases a with
    | call c =>
      simp only [poll, ledger]
      split
      · rw [Action.start, ofProgress_snd]
        exact c.accounts_start _ e
      · exact .of_quiet rfl rfl
    | cancel | observe | probe =>
      simp only [poll]
      split <;> exact .of_quiet rfl rfl
  | running c =>
    rw [poll, ofProgress_snd]
    exact c.accounts_poll e
  | ended => exact .of_quiet rfl rfl

/-- **A round is accounted for.** -/
theorem accounts_pollAll (ts : List (Task α)) (e : Engine) : Accounts e (pollAll ts e).2 (ledgerAll ts e) := by
  induction ts generalizing e with
  | nil => exact .of_quiet rfl rfl
  | cons t ts ih => exact (t.accounts_poll e).trans (ih _)

end Task

namespace Round

/-- What was entered in a round before the task at a position is polled, with the millisecond of the round. -/
def chronicle (c : Round α) (k : Nat) : List (Nat × Entry) :=
  (Task.ledgerAll (c.tasks.take k) c.engine).map fun x => (c.engine.now, x)

/-- What is entered in a whole round. -/
def whole (c : Round α) : List (Nat × Entry) := c.chronicle c.tasks.length

end Round

/-! ## Rounds that join up -/

namespace Engine

/-- The rounds lead from one engine to another: each begins in the engine that the one before has left, at that instant
or later. -/
inductive Leads : Engine → List (Round α) → Engine → Prop
  | refl (e : Engine) : Leads e [] e
  | round {c : Round α} {rounds : List (Round α)} {e' : Engine} : Leads c.after rounds e' →
      Leads c.engine (c :: rounds) e'
  | later {e e' : Engine} {rounds : List (Round α)} {n : Nat} : e.now ≤ n → Leads { e with now := n } rounds e' →
      Leads e rounds e'

namespace Leads

variable {e e' e'' : Engine} {rounds rounds' : List (Round α)}

theorem trans (h : Leads e rounds e') (h' : Leads e' rounds' e'') : Leads e (rounds ++ rounds') e'' := by
  induction h with
  | refl => exact h'
  | round _ ih => exact .round (ih h')
  | later hn _ ih => exact .later hn (ih h')

/-- Every round is led to by those before it. -/
theorem to_round {before after : List (Round α)} {c : Round α} (h : Leads e rounds e')
    (hrounds : rounds = before ++ c :: after) : Leads e before c.engine := by
  induction h generalizing before with
  | refl => exact absurd hrounds.symm (List.append_ne_nil_of_right_ne_nil _ (List.cons_ne_nil _ _))
  | @round d rest _ _ ih =>
    cases before with
    | nil =>
      obtain ⟨rfl, -⟩ := List.cons_eq_cons.mp hrounds
      exact .refl _
    | cons b before =>
      obtain ⟨rfl, hrest⟩ := List.cons_eq_cons.mp hrounds
      exact .round (ih hrest)
  | later hn _ ih => exact .later hn (ih hrounds)

/-- **What accounted polls and moves of the clock keep** of an engine and a chronicle is kept by rounds that join up. -/
theorem keeps {T : Engine → List (Nat × Entry) → Prop}
    (hpolls : ∀ {e e' : Engine} {log l}, Accounts e e' l → T e log → T e' (log ++ l.map fun x => (e.now, x)))
    (hlater : ∀ {e : Engine} {log n}, e.now ≤ n → T e log → T { e with now := n } log)
    (h : Leads e rounds e') {log : List (Nat × Entry)} (hT : T e log) : T e' (log ++ rounds.flatMap Round.whole) := by
  induction h generalizing log with
  | refl => rwa [List.flatMap_nil, List.append_nil]
  | @round c rounds _ _ ih =>
    have hround := ih (hpolls (Task.accounts_pollAll c.tasks c.engine) hT)
    rw [List.append_assoc] at hround
    rwa [List.flatMap_cons, Round.whole, Round.chronicle, List.take_length]
  | later hn _ ih => exact ih (hlater hn hT)

end Leads
end Engine

namespace Task

variable {ts : List (Task α)} {e : Engine} {fuel : Nat}

theorem leads_settleRounds : e.Leads (settleRounds fuel ts e) (settleAll fuel ts e).2 := by
  induction fuel generalizing ts e with
  | zero => exact .refl e
  | succ fuel ih =>
    rw [settleRounds]
    split
    · rename_i hsame
      rw [settleAll_of_same hsame]
      exact .round (c := ⟨ts, e⟩) (.refl _)
    · rename_i hraised
      rw [settleAll_of_raised hraised]
      exact .round (c := ⟨ts, e⟩) ih

theorem leads_runRounds : e.Leads (runRounds fuel ts e) (runAll fuel ts e).2 := by
  induction fuel generalizing ts e with
  | zero => exact .refl e
  | succ fuel ih =>
    simp only [runRounds, runAll]
    refine leads_settleRounds.trans ?_
    cases hwake : nextWake (settleAll (sizeAll ts + 1) ts e).1 (settleAll (sizeAll ts + 1) ts e).2.now with
    | none => exact .refl _
    | some n => exact .later (Nat.le_of_lt (nextWake_eq_some hwake).1) ih

end Task

/-- **The rounds of a run** lead from the engine in which it begins to the one that it leaves. -/
theorem Engine.leads_run (e : Engine) (items : List (Item α)) : e.Leads (e.rounds items) (e.run items).2 :=
  Task.leads_runRounds

end CallGuard
