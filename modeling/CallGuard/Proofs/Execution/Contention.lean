import Mathlib.Data.List.Induction
import CallGuard.Execution.Limiter
import CallGuard.Proofs.Rows

/-!
# Taking permits at the same time

Calls take permits of one limiter and give them back, at the same time. A call that takes one first reads how many are
held. It compares the number that it has seen with the maximum, and is refused if that is reached; else it exchanges the
number for one more, which fails if the number has changed meanwhile, and may fail for no reason: then it has seen a new
number, and compares again. To give a permit back takes one section, in which the number goes down by one. A
`Contention` is a limiter with the calls on it, and a schedule says whose section is next.

* **Invariant** (`Contention.Sound`): as many permits are counted as calls hold one, and a call that is about to exchange
  a number has seen room at it. So the exchange, which succeeds at that number only, does not pass the maximum.
* **What was seen** (`Contention.exists_look`): the number by which a call goes was the right one when the call read it,
  or failed to exchange it, the last time.
* **Alone** (`Contention.attempt_of_full`, `Contention.attempt_of_free`): a call that nobody comes between takes its permit
  as `Limiter.acquire?` does, however often its exchange fails.

**Main statement** (`Contention.run_limited`): whatever the calls and the schedule, the permits that are counted are those
that are held, never more than the maximum, and who is refused has seen all of them held.
-/

namespace CallGuard

/-- The limiter, as it is for someone who has seen `n` permits held. -/
def Limiter.seenAs (l : Limiter) (n : Nat) : Limiter := { l with active := n }

/-- How far a call has come that takes a permit and gives it back. -/
inductive Claimant
  | fresh
  /-- It has seen how many permits are held. -/
  | informed (seen : Nat)
  /-- It has found room at the number that it has seen, and is about to exchange it. -/
  | trying (seen : Nat)
  | holding
  | refused
  | released
deriving DecidableEq, Repr

namespace Claimant

/-- The call holds a permit. -/
def holds : Claimant → Bool
  | .holding => true
  | _ => false

/-- The next section of the call sees how many permits are held: by reading it, or by failing to exchange it. -/
def looks : Claimant → Bool
  | .fresh | .trying _ => true
  | _ => false

/-- The call has no section left. -/
def isEnded : Claimant → Bool
  | .refused | .released => true
  | _ => false

theorem holds_of_looks {c : Claimant} (h : c.looks = true) : c.holds = false := by
  cases c with
  | holding => cases h
  | _ => rfl

theorem looks_of_isEnded {c : Claimant} (h : c.isEnded = true) : c.looks = false := by
  cases c with
  | fresh | trying => cases h
  | _ => rfl

end Claimant

/-- A limiter and the calls on it. -/
structure Contention where
  limiter : Limiter
  claimants : List Claimant

namespace Contention

/-- Whose section is next, and whether an exchange in it fails for no reason. -/
structure Turn where
  claimant : Nat
  spurious : Bool := false
deriving DecidableEq, Repr

/-- So many calls on a limiter of which no permit is held. -/
def start (max : Option Nat) (calls : Nat) : Contention := ⟨{ max := max }, List.replicate calls .fresh⟩

/-- The permits that are held. -/
def held (s : Contention) : Nat := s.claimants.countP Claimant.holds

/-- A call comes to another place, and the limiter stays as it is. -/
def put (s : Contention) (i : Nat) (c : Claimant) : Contention := { s with claimants := s.claimants.set i c }

/-- The next section of whose turn it is. -/
def step (s : Contention) (t : Turn) : Contention :=
  match s.claimants[t.claimant]? with
  | some .fresh => s.put t.claimant (.informed s.limiter.active)
  | some (.informed n) => s.put t.claimant (if (s.limiter.seenAs n).Full then .refused else .trying n)
  | some (.trying n) =>
    if s.limiter.active = n ∧ t.spurious = false then
      ⟨s.limiter.seenAs (n + 1), s.claimants.set t.claimant .holding⟩
    else s.put t.claimant (.informed s.limiter.active)
  | some .holding => ⟨s.limiter.release, s.claimants.set t.claimant .released⟩
  | some .refused | some .released | none => s

/-- The sections of a schedule. -/
def run (s : Contention) (turns : List Turn) : Contention := turns.foldl step s

variable {s : Contention} {t : Turn} {i n : Nat}

/-! ## One section -/

/-- What a section can do. -/
inductive Moves (s : Contention) (t : Turn) : Contention → Prop
  | look {c : Claimant} : s.claimants[t.claimant]? = some c → c.looks = true →
      Moves s t (s.put t.claimant (.informed s.limiter.active))
  | attempt {n : Nat} : s.claimants[t.claimant]? = some (.informed n) → ¬ (s.limiter.seenAs n).Full →
      Moves s t (s.put t.claimant (.trying n))
  | refuse {n : Nat} : s.claimants[t.claimant]? = some (.informed n) → (s.limiter.seenAs n).Full →
      Moves s t (s.put t.claimant .refused)
  | grant : s.claimants[t.claimant]? = some (.trying s.limiter.active) →
      Moves s t ⟨s.limiter.seenAs (s.limiter.active + 1), s.claimants.set t.claimant .holding⟩
  | release : s.claimants[t.claimant]? = some .holding →
      Moves s t ⟨s.limiter.release, s.claimants.set t.claimant .released⟩
  | stay : (∀ c, s.claimants[t.claimant]? = some c → c.isEnded = true) → Moves s t s

theorem moves_step (s : Contention) (t : Turn) : s.Moves t (s.step t) := by
  unfold step
  split
  · rename_i h
    exact .look h rfl
  · rename_i n h
    split
    · rename_i hfull
      exact .refuse h hfull
    · rename_i hroom
      exact .attempt h hroom
  · rename_i n h
    split
    · rename_i hsame
      obtain ⟨rfl, -⟩ := hsame
      exact .grant h
    · exact .look h rfl
  · rename_i h
    exact .release h
  · rename_i h
    exact .stay fun c hc => by cases hc.symm.trans h; rfl
  · rename_i h
    exact .stay fun c hc => by cases hc.symm.trans h; rfl
  · rename_i h
    exact .stay fun c hc => by cases hc.symm.trans h

theorem max_step (s : Contention) (t : Turn) : (s.step t).limiter.max = s.limiter.max := by
  have hmoves := s.moves_step t
  generalize s.step t = s' at hmoves ⊢
  cases hmoves <;> rfl

/-! ## The invariant -/

/-- The count agrees with who holds a permit, and whoever is about to exchange a number has seen room at it. -/
structure Sound (s : Contention) : Prop where
  active_eq : s.limiter.active = s.held
  room : ∀ n, .trying n ∈ s.claimants → ¬ (s.limiter.seenAs n).Full
  bounded : ∀ m, s.limiter.max = some m → s.limiter.active ≤ m

theorem sound_start (max : Option Nat) (calls : Nat) : (start max calls).Sound := by
  refine ⟨?_, ?_, fun _ _ => Nat.zero_le _⟩
  · symm
    rw [held, start, List.countP_eq_zero]
    intro c hc
    cases List.eq_of_mem_replicate hc
    exact Bool.false_ne_true
  · intro n hn
    cases List.eq_of_mem_replicate hn

/-- Permits that are held before and after one call comes to another place. -/
theorem held_set {c : Claimant} (h : s.claimants[i]? = some c) (c' : Claimant) :
    (s.claimants.set i c').countP Claimant.holds + c.holds.toNat = s.held + c'.holds.toNat :=
  countP_set_add Claimant.holds h c'

/-- A call that holds no permit comes to a place where it holds none. -/
theorem Sound.put (h : s.Sound) {c c' : Claimant} (hi : s.claimants[i]? = some c) (hc : c.holds = false)
    (hc' : c'.holds = false) (hroom : ∀ n, c' = .trying n → ¬ (s.limiter.seenAs n).Full) : (s.put i c').Sound := by
  refine ⟨?_, ?_, h.bounded⟩
  · have hheld := held_set hi c'
    rw [hc, hc'] at hheld
    exact h.active_eq.trans hheld.symm
  · intro n hn
    rcases List.mem_or_eq_of_mem_set hn with hn | hn
    · exact h.room n hn
    · exact hroom n hn.symm

/-- Nobody holds a permit that is not counted. -/
theorem Sound.active_pos (h : s.Sound) (hi : s.claimants[i]? = some .holding) : 0 < s.limiter.active := by
  rw [h.active_eq, held, List.countP_pos_iff]
  exact ⟨_, List.mem_of_getElem? hi, rfl⟩

/-- **Every section** keeps the invariant. -/
theorem Sound.step (h : s.Sound) (t : Turn) : (s.step t).Sound := by
  have hmoves := s.moves_step t
  generalize s.step t = s' at hmoves ⊢
  cases hmoves with
  | look hi hlooks => exact h.put hi (Claimant.holds_of_looks hlooks) rfl nofun
  | attempt hi hroom => exact h.put hi rfl rfl fun n hn => by cases hn; exact hroom
  | refuse hi => exact h.put hi rfl rfl nofun
  | grant hi =>
    have hheld := held_set hi .holding
    refine ⟨?_, ?_, ?_⟩
    · exact (congrArg (· + 1) h.active_eq).trans hheld.symm
    · intro n hn
      rcases List.mem_or_eq_of_mem_set hn with hn | hn
      · exact h.room n hn
      · cases hn
    · -- the number that was exchanged had room
      intro m hm
      by_contra hfull
      exact h.room _ (List.mem_of_getElem? hi) ⟨m, hm, Nat.le_of_lt_succ (Nat.lt_of_not_le hfull)⟩
  | release hi =>
    have hheld := held_set hi .released
    have hpos := h.active_pos hi
    refine ⟨?_, ?_, ?_⟩
    · rw [← h.active_eq] at hheld
      exact Nat.sub_eq_of_eq_add hheld.symm
    · intro n hn
      rcases List.mem_or_eq_of_mem_set hn with hn | hn
      · exact h.room n hn
      · cases hn
    · exact fun m hm => Nat.le_trans (Nat.sub_le _ _) (h.bounded m hm)
  | stay => exact h

/-- **Every schedule** keeps the invariant. -/
theorem Sound.run (h : s.Sound) (turns : List Turn) : (s.run turns).Sound := by
  induction turns generalizing s with
  | nil => exact h
  | cons t turns ih => exact ih (h.step t)

theorem max_run (s : Contention) (turns : List Turn) : (s.run turns).limiter.max = s.limiter.max := by
  induction turns generalizing s with
  | nil => rfl
  | cons t turns ih => exact (ih (s.step t)).trans (s.max_step t)

/-! ## What a section does to the count -/

/-- The turn gives its call a permit. -/
def Grants (s : Contention) (t : Turn) : Prop :=
  s.claimants[t.claimant]? ≠ some .holding ∧ (s.step t).claimants[t.claimant]? = some .holding

/-- The turn refuses its call a permit. -/
def Refuses (s : Contention) (t : Turn) : Prop :=
  s.claimants[t.claimant]? ≠ some .refused ∧ (s.step t).claimants[t.claimant]? = some .refused

/-- The turn gives the permit of its call back. -/
def Releases (s : Contention) (t : Turn) : Prop := s.claimants[t.claimant]? = some .holding

theorem getElem?_put {c : Claimant} (h : s.claimants[i]? = some c) (c' : Claimant) :
    (s.claimants.set i c')[i]? = some c' :=
  List.getElem?_set_self (List.getElem?_eq_some_iff.mp h).1

theorem Grants.limiter_step (h : s.Grants t) : (s.step t).limiter = s.limiter.seenAs (s.limiter.active + 1) := by
  obtain ⟨hbefore, hafter⟩ := h
  have hmoves := s.moves_step t
  generalize s.step t = s' at hmoves hafter ⊢
  cases hmoves with
  | grant => rfl
  | look hi | attempt hi | refuse hi | release hi => cases (getElem?_put hi _).symm.trans hafter
  | stay => exact absurd hafter hbefore

theorem Releases.limiter_step (h : s.Releases t) : (s.step t).limiter = s.limiter.release := by
  unfold step
  rw [h]

/-- **Nothing else touches the count.** -/
theorem limiter_step_of_not (hg : ¬ s.Grants t) (hr : ¬ s.Releases t) : (s.step t).limiter = s.limiter := by
  have hmoves := s.moves_step t
  unfold Grants at hg
  generalize s.step t = s' at hmoves hg ⊢
  cases hmoves with
  | grant hi =>
    have hbefore : s.claimants[t.claimant]? ≠ some .holding := fun h => by cases hi.symm.trans h
    exact absurd ⟨hbefore, getElem?_put hi _⟩ hg
  | release hi => exact absurd hi hr
  | _ => rfl

/-- Who is refused goes by a number that leaves no room. -/
theorem Refuses.full (h : s.Refuses t) :
    ∃ n, s.claimants[t.claimant]? = some (.informed n) ∧ (s.limiter.seenAs n).Full := by
  obtain ⟨hbefore, hafter⟩ := h
  have hmoves := s.moves_step t
  generalize s.step t = s' at hmoves hafter
  cases hmoves with
  | refuse hi hfull => exact ⟨_, hi, hfull⟩
  | look hi | attempt hi | grant hi | release hi => cases (getElem?_put hi _).symm.trans hafter
  | stay => exact absurd hafter hbefore

theorem Refuses.not_grants (h : s.Refuses t) : ¬ s.Grants t := fun hg => by cases h.2.symm.trans hg.2

theorem Refuses.not_releases (h : s.Refuses t) : ¬ s.Releases t := fun hr => by
  obtain ⟨n, hi, -⟩ := h.full
  cases hi.symm.trans hr

/-! ## What was seen -/

theorem run_concat (s : Contention) (turns : List Turn) (t : Turn) : s.run (turns ++ [t]) = (s.run turns).step t :=
  List.foldl_concat ..

/-- Who has seen a number after a turn has seen it in this turn, or before and had no turn now. -/
theorem informed_of_step (h : (s.step t).claimants[i]? = some (.informed n)) :
    (t.claimant = i ∧ n = s.limiter.active ∧ ∃ c, s.claimants[i]? = some c ∧ c.looks = true) ∨
      (t.claimant ≠ i ∧ s.claimants[i]? = some (.informed n)) := by
  have hmoves := s.moves_step t
  generalize s.step t = s' at hmoves h
  by_cases hown : t.claimant = i
  · subst hown
    cases hmoves with
    | look hi hlooks =>
      cases (getElem?_put hi _).symm.trans h
      exact .inl ⟨rfl, rfl, _, hi, hlooks⟩
    | attempt hi | refuse hi | grant hi | release hi => cases (getElem?_put hi _).symm.trans h
    | stay hended => cases hended _ h
  · have hother : ∀ c, (s.claimants.set t.claimant c)[i]? = s.claimants[i]? := fun _ => List.getElem?_set_ne hown
    refine .inr ⟨hown, ?_⟩
    cases hmoves with
    | stay => exact h
    | _ => exact (hother _).symm.trans h

/-- **The number by which a call goes** was held when the call looked the last time. -/
theorem exists_look {max : Option Nat} {calls : Nat} (turns : List Turn)
    (h : ((start max calls).run turns).claimants[i]? = some (.informed n)) :
    ∃ earlier u between, turns = earlier ++ u :: between ∧ u.claimant = i ∧ (∀ v ∈ between, v.claimant ≠ i) ∧
      ((start max calls).run earlier).limiter.active = n ∧
      ∃ c, ((start max calls).run earlier).claimants[i]? = some c ∧ c.looks = true := by
  induction turns using List.reverseRecOn with
  | nil => cases List.eq_of_mem_replicate (List.mem_of_getElem? h)
  | append_singleton turns t ih =>
    rw [run_concat] at h
    rcases informed_of_step h with ⟨rfl, rfl, hlooks⟩ | ⟨hne, hbefore⟩
    · exact ⟨turns, t, [], rfl, rfl, fun _ hv => absurd hv List.not_mem_nil, rfl, hlooks⟩
    · obtain ⟨earlier, u, between, rfl, hu, hbetween, hlook⟩ := ih hbefore
      refine ⟨earlier, u, between ++ [t], by rw [List.append_assoc, List.cons_append], hu, ?_, hlook⟩
      intro v hv
      rcases List.mem_append.mp hv with hv | hv
      · exact hbetween v hv
      · exact List.mem_singleton.mp hv ▸ hne

/-- **Who is refused** has seen all permits held, when it read the number or failed to exchange it the last time. -/
theorem Refuses.exists_full {max : Option Nat} {calls : Nat} {turns : List Turn}
    (h : ((start max calls).run turns).Refuses t) :
    ∃ earlier u between, turns = earlier ++ u :: between ∧ u.claimant = t.claimant ∧
      (∀ v ∈ between, v.claimant ≠ t.claimant) ∧ ((start max calls).run earlier).limiter.Full ∧
      ∃ c, ((start max calls).run earlier).claimants[t.claimant]? = some c ∧ c.looks = true := by
  obtain ⟨n, hinformed, m, hm, hle⟩ := h.full
  obtain ⟨earlier, u, between, hturns, hu, hbetween, hactive, hlooks⟩ := exists_look turns hinformed
  refine ⟨earlier, u, between, hturns, hu, hbetween, ⟨m, ?_, hactive ▸ hle⟩, hlooks⟩
  exact ((max_run _ _).trans (max_run _ turns).symm).trans hm

/-! ## A call that is alone -/

/-- Turns of one call, of which it is given whether an exchange fails for no reason. -/
def turnsOf (i : Nat) (spurious : List Bool) : List Turn := spurious.map (Turn.mk i)

/-- The turns of a call that takes a permit alone, whose exchange fails so many times for no reason. -/
def attempt (i fails : Nat) : List Turn :=
  turnsOf i [false, false] ++ turnsOf i (List.replicate fails [true, false]).flatten ++ turnsOf i [false]

theorem step_fresh {b : Bool} (h : s.claimants[i]? = some .fresh) :
    s.step ⟨i, b⟩ = s.put i (.informed s.limiter.active) := by
  simp only [step, h]

theorem step_informed {b : Bool} (h : s.claimants[i]? = some (.informed n)) :
    s.step ⟨i, b⟩ = s.put i (if (s.limiter.seenAs n).Full then .refused else .trying n) := by
  simp only [step, h]

theorem step_trying {b : Bool} (h : s.claimants[i]? = some (.trying n)) :
    s.step ⟨i, b⟩ = if s.limiter.active = n ∧ b = false then
      ⟨s.limiter.seenAs (n + 1), s.claimants.set i .holding⟩ else s.put i (.informed s.limiter.active) := by
  simp only [step, h]

theorem put_put (s : Contention) (i : Nat) (c c' : Claimant) : (s.put i c).put i c' = s.put i c' := by
  simp only [put, List.set_set]

/-- Reading and comparing. -/
theorem run_look {c : Claimant} {b b' : Bool} (h : s.claimants[i]? = some c)
    (hlook : s.step ⟨i, b⟩ = s.put i (.informed s.limiter.active)) :
    s.run [⟨i, b⟩, ⟨i, b'⟩] = s.put i (if s.limiter.Full then .refused else .trying s.limiter.active) := by
  have hinformed := getElem?_put h (.informed s.limiter.active)
  rw [run, List.foldl_cons, hlook, List.foldl_cons, step_informed hinformed, put_put]
  rfl

theorem run_append (s : Contention) (turns later : List Turn) : s.run (turns ++ later) = (s.run turns).run later :=
  List.foldl_append ..

/-- Failing for no reason and comparing again leads back. -/
theorem run_spurious (s : Contention) (h : s.claimants[i]? = some (.trying s.limiter.active)) (hroom : ¬ s.limiter.Full)
    (fails : Nat) : s.run (turnsOf i (List.replicate fails [true, false]).flatten) = s := by
  have honce : s.run (turnsOf i [true, false]) = s := by
    have hlook : s.step ⟨i, true⟩ = s.put i (.informed s.limiter.active) := by
      rw [step_trying h, if_neg fun hexchange => Bool.noConfusion hexchange.2]
    obtain ⟨hlt, heq⟩ := List.getElem?_eq_some_iff.mp h
    calc s.run (turnsOf i [true, false])
        = s.put i (.trying s.limiter.active) := by rw [turnsOf, List.map_cons, List.map_singleton, run_look h hlook,
            if_neg hroom]
      _ = s := by rw [put, ← heq, List.set_getElem_self]
  induction fails with
  | zero => rfl
  | succ fails ih =>
    rw [List.replicate_succ, List.flatten_cons, turnsOf, List.map_append, run_append]
    exact (congrArg (run · _) honce).trans ih

/-- Turns of a call that has ended do nothing. -/
theorem run_of_ended {c : Claimant} (h : s.claimants[i]? = some c) (hc : c.isEnded = true) (spurious : List Bool) :
    s.run (turnsOf i spurious) = s := by
  induction spurious with
  | nil => rfl
  | cons b spurious ih =>
    have hstay : s.step ⟨i, b⟩ = s := by
      have hmoves := s.moves_step ⟨i, b⟩
      generalize s.step ⟨i, b⟩ = s' at hmoves ⊢
      cases hmoves with
      | stay => rfl
      | look hi hlooks =>
        cases hi.symm.trans h
        cases (Claimant.looks_of_isEnded hc).symm.trans hlooks
      | attempt hi | refuse hi | grant hi | release hi => cases hi.symm.trans h; cases hc
    rw [turnsOf, List.map_cons, run, List.foldl_cons, hstay]
    exact ih

/-- **A call that is alone** is refused if no permit is left. -/
theorem attempt_of_full (h : s.claimants[i]? = some .fresh) (hfull : s.limiter.Full) (fails : Nat) :
    s.run (attempt i fails) = s.put i .refused := by
  have hlook : s.run (turnsOf i [false, false]) = s.put i .refused := by
    rw [turnsOf, List.map_cons, List.map_singleton, run_look h (step_fresh h), if_pos hfull]
  have hrefused := getElem?_put h .refused
  rw [attempt, run_append, run_append, hlook]
  rw [@run_of_ended (s.put i .refused) i _ hrefused rfl, @run_of_ended (s.put i .refused) i _ hrefused rfl]

/-- **A call that is alone** takes a permit if one is left, however often its exchange fails for no reason. -/
theorem attempt_of_free (h : s.claimants[i]? = some .fresh) (hroom : ¬ s.limiter.Full) (fails : Nat) :
    s.run (attempt i fails) = ⟨s.limiter.seenAs (s.limiter.active + 1), s.claimants.set i .holding⟩ := by
  have hlook : s.run (turnsOf i [false, false]) = s.put i (.trying s.limiter.active) := by
    rw [turnsOf, List.map_cons, List.map_singleton, run_look h (step_fresh h), if_neg hroom]
  have htrying := getElem?_put h (.trying s.limiter.active)
  rw [attempt, run_append, run_append, hlook, run_spurious (s.put i _) htrying hroom]
  change (s.put i (.trying s.limiter.active)).step ⟨i, false⟩ = _
  rw [@step_trying (s.put i _) i _ false htrying, if_pos ⟨rfl, rfl⟩]
  exact congrArg (Contention.mk _) (List.set_set ..)

/-! ## Every schedule -/

/-- **Limits hold under contention.** Let any number of calls take permits of one limiter and give them back, in any
schedule of their sections, with exchanges that fail for no reason whenever they like. After any number of turns as many
permits are counted as are held, and no more than the maximum. Of the next turn, whosesoever it is: one that gives a call
its permit adds one to the count; one that gives a permit back finds it counted and takes one from the count; any other,
a refusal for one, leaves the count alone. A call is refused only if all permits were held when it looked the last time,
and never without a maximum. A call that is alone takes its permit exactly if one is left, and when it gives it back at
once the limiter is as before. -/
theorem run_limited (max : Option Nat) (calls : Nat) (turns : List Turn) :
    let s := (start max calls).run turns
    (s.limiter.max = max ∧ s.limiter.active = s.held ∧ ∀ m, max = some m → s.limiter.active ≤ m) ∧
    (∀ t, s.Grants t → (s.step t).limiter.active = s.limiter.active + 1 ∧ (s.step t).held = s.held + 1) ∧
    (∀ t, s.Releases t → (s.step t).limiter.active + 1 = s.limiter.active ∧ (s.step t).held + 1 = s.held) ∧
    (∀ t, ¬ s.Grants t → ¬ s.Releases t → (s.step t).limiter = s.limiter) ∧
    (∀ t, s.Refuses t → ¬ s.Grants t ∧ ¬ s.Releases t ∧ max ≠ none ∧
      ∃ earlier u between, turns = earlier ++ u :: between ∧ u.claimant = t.claimant ∧
        (∀ v ∈ between, v.claimant ≠ t.claimant) ∧ ((start max calls).run earlier).limiter.Full ∧
        ∃ c, ((start max calls).run earlier).claimants[t.claimant]? = some c ∧ c.looks = true) ∧
    ∀ i fails, s.claimants[i]? = some .fresh →
      let s' := s.run (attempt i fails)
      ((∀ m, max = some m → s.held < m) → s'.claimants[i]? = some .holding ∧
        s.limiter.acquire? = some s'.limiter ∧ ∀ b, (s'.step ⟨i, b⟩).limiter = s.limiter) ∧
      (¬ (∀ m, max = some m → s.held < m) → s'.claimants[i]? = some .refused ∧
        s.limiter.acquire? = none ∧ s'.limiter = s.limiter) := by
  intro s
  have h : s.Sound := (sound_start max calls).run turns
  have hmax : s.limiter.max = max := max_run _ turns
  have hfull : s.limiter.Full ↔ ¬ ∀ m, max = some m → s.held < m := by
    rw [Limiter.Full, hmax, h.active_eq]
    constructor
    · rintro ⟨m, hm, hle⟩ hall
      exact absurd (hall m hm) (Nat.not_lt.mpr hle)
    · intro hnot
      by_contra hnone
      exact hnot fun m hm => Nat.lt_of_not_le fun hle => hnone ⟨m, hm, hle⟩
  refine ⟨⟨hmax, h.active_eq, fun m hm => h.bounded m (hmax.trans hm)⟩, ?_, ?_, fun t => limiter_step_of_not, ?_, ?_⟩
  · intro t ht
    have hactive : (s.step t).limiter.active = s.limiter.active + 1 := by
      rw [ht.limiter_step]
      rfl
    exact ⟨hactive, by rw [← (h.step t).active_eq, hactive, h.active_eq]⟩
  · intro t ht
    have hpos := h.active_pos ht
    have hactive : (s.step t).limiter.active + 1 = s.limiter.active := by
      rw [ht.limiter_step]
      exact Nat.sub_add_cancel hpos
    exact ⟨hactive, by rw [← (h.step t).active_eq, hactive, h.active_eq]⟩
  · intro t ht
    refine ⟨ht.not_grants, ht.not_releases, ?_, ht.exists_full⟩
    rintro rfl
    obtain ⟨n, -, m, hm, -⟩ := ht.full
    cases hmax.symm.trans hm
  · intro i fails hi s'
    constructor
    · intro hfree
      have hroom : ¬ s.limiter.Full := fun hf => hfull.mp hf hfree
      have hs' : s' = _ := attempt_of_free hi hroom fails
      have hholding : s'.claimants[i]? = some .holding := by
        rw [hs']
        exact getElem?_put hi .holding
      have hacquire : s.limiter.acquire? = some s'.limiter := by
        rw [hs', Limiter.acquire?, if_neg hroom]
        rfl
      refine ⟨hholding, hacquire, fun b => ?_⟩
      have hrelease : s'.Releases ⟨i, b⟩ := hholding
      rw [hrelease.limiter_step]
      exact Limiter.release_of_acquire? hacquire
    · intro hnone
      have hf := hfull.mpr hnone
      have hs' : s' = _ := attempt_of_full hi hf fails
      refine ⟨?_, Limiter.acquire?_eq_none_iff.mpr hf, ?_⟩
      · rw [hs']
        exact getElem?_put hi .refused
      · rw [hs']
        rfl

namespace Rivals

/-- Of three calls on one permit two have found it free. The one takes it, so that the other fails to, and gives it back
before the other has compared the new number. -/
def turns : List Turn := [⟨0, false⟩, ⟨1, false⟩, ⟨0, false⟩, ⟨1, false⟩, ⟨0, false⟩, ⟨1, false⟩, ⟨0, false⟩]

end Rivals

/-- The other is refused though no permit is held any more; the third call takes it after three failures. -/
theorem run_limited_rivals :
    let s := (start (some 1) 3).run Rivals.turns
    s.Refuses ⟨1, false⟩ ∧ s.limiter.active = 0 ∧
    (∃ earlier, earlier <+: Rivals.turns ∧ ((start (some 1) 3).run earlier).limiter.Full) ∧
    s.claimants[2]? = some .fresh ∧ (s.run (attempt 2 3)).claimants[2]? = some .holding := by
  intro s
  obtain ⟨-, -, -, -, hrefuses, halone⟩ := run_limited (some 1) 3 Rivals.turns
  have hrefused : s.Refuses ⟨1, false⟩ := ⟨by decide, by decide⟩
  have hfresh : s.claimants[2]? = some .fresh := by decide
  have hfree : ∀ m, some 1 = some m → s.held < m := by
    intro m hm
    cases hm
    decide
  obtain ⟨-, -, -, earlier, u, between, hturns, -, -, hfull, -⟩ := hrefuses ⟨1, false⟩ hrefused
  exact ⟨hrefused, by decide, ⟨earlier, hturns ▸ List.prefix_append .., hfull⟩, hfresh,
    ((halone 2 3 hfresh).1 hfree).1⟩

end Contention
end CallGuard
