import CallGuard.Execution.Signal
import CallGuard.Proofs.Rows

/-!
# Raising a signal while others begin to wait

Calls raise a signal and calls wait for it, at the same time. A call that raises it first sets the flag and then sends a
message to all that are subscribed. A call that waits first subscribes, then reads the flag, and ends if it is set; else
it listens, and ends when it receives something. The channel keeps one message: whoever has more of them unread receives
a notice instead of those that are lost, which is something, too (`receive?`). An `Alarm` is a signal with these calls,
and each of their sections may stand between those of any others.

* **Sections alone**: the two sections of a call that raises are together `Signals.cancel`, the first two of a call that
  waits are `Signals.enter` unless the signal is raised, and its last is `Signals.leave` (`Alarm.raise_alone`,
  `Alarm.wait_alone`, `Alarm.receive_alone`).
* **Invariant** (`Alarm.Sound`): nobody was woken and nothing was sent before the flag was set, and once a call has sent
  its message, whoever listens has something unread.
* **Main statement** (`Alarm.run_heard`): no call is woken before the signal is raised, and from the moment at which one
  call has raised it in full each call that waits is woken by the next of its sections in which it can be.
-/

namespace CallGuard

/-! ## Calls and their sections -/

/-- How far a call has come that raises a signal. -/
inductive Raiser
  | fresh
  | flagged
  | sent
deriving DecidableEq, Repr

/-- How far a call has come that waits for a signal. -/
inductive Waiter
  | fresh
  | subscribed (unread : Nat)
  /-- It has found the flag not set. -/
  | listening (unread : Nat)
  | woken
deriving DecidableEq, Repr

/-- What can be received from a channel that keeps one message. -/
inductive Receipt
  | message
  | lag (lost : Nat)
deriving DecidableEq, Repr

/-- What a call receives next that has so many messages unread. -/
def receive? : (unread : Nat) → Option Receipt
  | 0 => none
  | 1 => some .message
  | n + 2 => some (.lag (n + 1))

/-- However many messages are lost, something is received. -/
theorem isSome_receive?_succ (n : Nat) : (receive? (n + 1)).isSome = true := by cases n <;> rfl

namespace Waiter

/-- The same call after a message was sent. -/
def deliver : Waiter → Waiter
  | subscribed n => subscribed (n + 1)
  | listening n => listening (n + 1)
  | w => w

/-- The messages that it has not received yet. -/
def unread : Waiter → Nat
  | subscribed n | listening n => n
  | _ => 0

/-- The call has subscribed and not ended. -/
def receives : Waiter → Bool
  | subscribed _ | listening _ => true
  | _ => false

/-- The sections after which the call is woken, once the signal is raised in full. -/
def left : Waiter → Nat
  | fresh => 2
  | subscribed _ | listening _ => 1
  | woken => 0

end Waiter

/-- A signal, the calls that raise it and the calls that wait for it. -/
structure Alarm where
  signal : Signal := {}
  raisers : List Raiser
  waiters : List Waiter

namespace Alarm

/-- The calls that take turns. -/
inductive Turn
  | raiser (i : Nat)
  | waiter (j : Nat)
deriving DecidableEq, Repr

/-- So many calls of either kind on a fresh signal. -/
def start (raisers waiters : Nat) : Alarm :=
  { raisers := List.replicate raisers .fresh, waiters := List.replicate waiters .fresh }

/-- The last section of a call that waits. -/
def wake (a : Alarm) (j : Nat) : Alarm :=
  { a with signal := { a.signal with waiting := a.signal.waiting - 1 }, waiters := a.waiters.set j .woken }

/-- The next section of a call. -/
def step (a : Alarm) : Turn → Alarm
  | .raiser i =>
    match a.raisers[i]? with
    | some .fresh => { a with signal := { a.signal with raised := true }, raisers := a.raisers.set i .flagged }
    | some .flagged => { a with raisers := a.raisers.set i .sent, waiters := a.waiters.map Waiter.deliver }
    | some .sent | none => a
  | .waiter j =>
    match a.waiters[j]? with
    | some .fresh =>
      { a with
        signal := { a.signal with waiting := a.signal.waiting + 1 }
        waiters := a.waiters.set j (.subscribed 0) }
    | some (.subscribed n) =>
      if a.signal.raised then a.wake j else { a with waiters := a.waiters.set j (.listening n) }
    | some (.listening n) => if (receive? n).isSome then a.wake j else a
    | some .woken | none => a

/-- The sections of a schedule. -/
def run (a : Alarm) (turns : List Turn) : Alarm := turns.foldl step a

variable {a : Alarm} {i j : Nat} {n : Nat}

/-! ## One section -/

/-- What a section can do. -/
inductive Moves (a : Alarm) : Turn → Alarm → Prop
  | flag {i : Nat} : a.raisers[i]? = some .fresh → Moves a (.raiser i)
      { a with signal := { a.signal with raised := true }, raisers := a.raisers.set i .flagged }
  | send {i : Nat} : a.raisers[i]? = some .flagged → Moves a (.raiser i)
      { a with raisers := a.raisers.set i .sent, waiters := a.waiters.map Waiter.deliver }
  | subscribe {j : Nat} : a.waiters[j]? = some .fresh → Moves a (.waiter j)
      { a with
        signal := { a.signal with waiting := a.signal.waiting + 1 }
        waiters := a.waiters.set j (.subscribed 0) }
  | listen {j n : Nat} : a.waiters[j]? = some (.subscribed n) → a.signal.raised = false → Moves a (.waiter j)
      { a with waiters := a.waiters.set j (.listening n) }
  | wake {j : Nat} {w : Waiter} : a.waiters[j]? = some w → w.receives = true →
      a.signal.raised = true ∨ w.unread ≠ 0 → Moves a (.waiter j) (a.wake j)
  | stay {u : Turn} : (∀ j w, u = .waiter j → a.waiters[j]? = some w → w = .woken ∨ w = .listening 0) → Moves a u a

theorem moves_step (a : Alarm) (u : Turn) : a.Moves u (a.step u) := by
  cases u with
  | raiser i =>
    simp only [step]
    split
    · rename_i h; exact .flag h
    · rename_i h; exact .send h
    · exact .stay nofun
    · exact .stay nofun
  | waiter j =>
    -- a call that cannot go on stays as it is
    have hstay : (∀ w, a.waiters[j]? = some w → w = .woken ∨ w = .listening 0) → a.Moves (.waiter j) a := by
      intro h
      refine .stay fun k w hk hw => ?_
      cases hk
      exact h w hw
    simp only [step]
    split
    · rename_i h; exact .subscribe h
    · rename_i n h
      cases hr : a.signal.raised with
      | true => exact .wake h rfl (.inl hr)
      | false => exact .listen h hr
    · rename_i n h
      cases n with
      | zero => exact hstay fun w hw => .inr (Option.some.inj (hw.symm.trans h))
      | succ n =>
        rw [if_pos (isSome_receive?_succ n)]
        exact .wake h rfl (.inr (Nat.succ_ne_zero n))
    · rename_i h
      exact hstay fun w hw => .inl (Option.some.inj (hw.symm.trans h))
    · rename_i h
      exact hstay fun w hw => nomatch hw.symm.trans h

/-! ## Sections that nothing comes between -/

section Alone

variable {s : Signals} {name : String} (hs : s.get name = a.signal)
include hs

theorem raise_alone (hi : a.raisers[i]? = some .fresh) :
    ((a.step (.raiser i)).step (.raiser i)).signal = (s.cancel name).get name := by
  have hflag : a.step (.raiser i) =
      { a with signal := { a.signal with raised := true }, raisers := a.raisers.set i .flagged } := by
    simp only [step, hi]
  have hi' : (a.raisers.set i .flagged)[i]? = some .flagged :=
    List.getElem?_set_self (List.getElem?_eq_some_iff.mp hi).1
  rw [hflag, Signals.cancel, Table.get_update, if_pos rfl, hs]
  simp only [step, hi']

theorem wait_alone (hj : a.waiters[j]? = some .fresh) :
    ((a.step (.waiter j)).step (.waiter j)).signal = if a.signal.raised then a.signal else (s.enter name).get name := by
  have hsubscribe : a.step (.waiter j) = { a with
      signal := { a.signal with waiting := a.signal.waiting + 1 }, waiters := a.waiters.set j (.subscribed 0) } := by
    simp only [step, hj]
  have hj' : (a.waiters.set j (.subscribed 0))[j]? = some (.subscribed 0) :=
    List.getElem?_set_self (List.getElem?_eq_some_iff.mp hj).1
  rw [hsubscribe, Signals.enter, Table.get_update, if_pos rfl, hs]
  simp only [step, hj']
  split <;> rfl

theorem receive_alone (hj : a.waiters[j]? = some (.listening (n + 1))) :
    (a.step (.waiter j)).signal = (s.leave name).get name := by
  rw [Signals.leave, Table.get_update, if_pos rfl, hs]
  simp only [step, hj, if_pos (isSome_receive?_succ n), wake]

end Alone

/-! ## The invariant -/

/-- What has been sent and who was woken agrees with the flag. -/
structure Sound (a : Alarm) : Prop where
  raised_iff : a.signal.raised = true ↔ ∃ r ∈ a.raisers, r ≠ .fresh
  quiet : a.signal.raised = false → ∀ w ∈ a.waiters, w ≠ .woken ∧ w.unread = 0
  heard : .sent ∈ a.raisers → .listening 0 ∉ a.waiters
  waiting_eq : a.signal.waiting = a.waiters.countP Waiter.receives

theorem sound_start (raisers waiters : Nat) : (start raisers waiters).Sound := by
  refine ⟨?_, ?_, ?_, ?_⟩
  · simp [start]
  · intro _ w hw
    cases List.eq_of_mem_replicate hw
    exact ⟨nofun, rfl⟩
  · intro _ hw
    cases List.eq_of_mem_replicate hw
  · symm
    rw [start, List.countP_eq_zero]
    intro w hw
    cases List.eq_of_mem_replicate hw
    exact Bool.false_ne_true

namespace Sound

variable (h : a.Sound)
include h

/-- Whoever is woken is so under a raised signal. -/
theorem raised_of_wake {w : Waiter} (hj : a.waiters[j]? = some w) (hw : a.signal.raised = true ∨ w.unread ≠ 0) :
    a.signal.raised = true := by
  rcases hw with hr | hw
  · exact hr
  · by_contra hr
    exact hw (h.quiet (Bool.not_eq_true _ ▸ hr) w (List.mem_of_getElem? hj)).2

theorem raised_of_sent (hs : .sent ∈ a.raisers) : a.signal.raised = true := h.raised_iff.mpr ⟨_, hs, nofun⟩

theorem step (u : Turn) : (a.step u).Sound := by
  have hmoves := a.moves_step u
  generalize a.step u = a' at hmoves ⊢
  cases hmoves with
  | @flag i hi =>
    have hlt := (List.getElem?_eq_some_iff.mp hi).1
    refine ⟨⟨fun _ => ⟨_, List.mem_set hlt .flagged, nofun⟩, fun _ => rfl⟩, nofun, ?_, h.waiting_eq⟩
    intro hs
    rcases List.mem_or_eq_of_mem_set hs with hs | hs
    · exact h.heard hs
    · cases hs
  | @send i hi =>
    have hr : a.signal.raised = true := h.raised_iff.mpr ⟨_, List.mem_of_getElem? hi, nofun⟩
    have hlt := (List.getElem?_eq_some_iff.mp hi).1
    refine ⟨⟨fun _ => ⟨_, List.mem_set hlt .sent, nofun⟩, fun _ => hr⟩, ?_, ?_, ?_⟩
    · exact fun hf => absurd hr (by rw [hf]; exact Bool.false_ne_true)
    · intro _ hw
      obtain ⟨w, -, hw⟩ := List.mem_map.mp hw
      cases w <;> cases hw
    · rw [List.countP_map]
      refine h.waiting_eq.trans (List.countP_congr fun w _ => ?_)
      cases w <;> rfl
  | @subscribe j hj =>
    refine ⟨h.raised_iff, ?_, ?_, ?_⟩
    · intro hr w hw
      rcases List.mem_or_eq_of_mem_set hw with hw | rfl
      · exact h.quiet hr w hw
      · exact ⟨nofun, rfl⟩
    · intro hs hw
      rcases List.mem_or_eq_of_mem_set hw with hw | hw
      · exact h.heard hs hw
      · cases hw
    · exact h.waiting_eq ▸ (countP_set_add Waiter.receives hj (.subscribed 0)).symm
  | @listen j n hj hr =>
    refine ⟨h.raised_iff, ?_, ?_, ?_⟩
    · intro _ w hw
      rcases List.mem_or_eq_of_mem_set hw with hw | rfl
      · exact h.quiet hr w hw
      · exact ⟨nofun, (h.quiet hr _ (List.mem_of_getElem? hj)).2⟩
    · -- the flag was set before anything was sent, so this call would have seen it
      intro hs
      exact absurd (h.raised_of_sent hs) (by rw [hr]; exact Bool.false_ne_true)
    · exact h.waiting_eq.trans (Nat.succ.inj (countP_set_add Waiter.receives hj (.listening n))).symm
  | @wake j w hj hrec hw =>
    have hr := h.raised_of_wake hj hw
    refine ⟨h.raised_iff, ?_, ?_, ?_⟩
    · exact fun hf => absurd hr (by rw [show a.signal.raised = false from hf]; exact Bool.false_ne_true)
    · intro hs hw
      rcases List.mem_or_eq_of_mem_set hw with hw | hw
      · exact h.heard hs hw
      · cases hw
    · have hcount := countP_set_add Waiter.receives hj .woken
      rw [hrec, ← h.waiting_eq] at hcount
      exact Nat.sub_eq_of_eq_add hcount.symm
  | stay => exact h

theorem run (turns : List Turn) : (a.run turns).Sound := by
  induction turns generalizing a with
  | nil => exact h
  | cons u turns ih => exact ih (h.step u)

end Sound

/-! ## No wakeup is lost -/

/-- A message that was sent stays sent. -/
theorem sent_step (hs : .sent ∈ a.raisers) (u : Turn) : .sent ∈ (a.step u).raisers := by
  have hmoves := a.moves_step u
  generalize a.step u = a' at hmoves ⊢
  cases hmoves with
  | flag hi | send hi => exact mem_set_of_ne hi hs nofun
  | _ => exact hs

/-- Once a message was sent, a section brings its own call nearer to being woken, and no other call farther from it. -/
theorem Sound.left_step (h : a.Sound) (hs : .sent ∈ a.raisers) {w : Waiter} (hj : a.waiters[j]? = some w) (u : Turn) :
    ∃ w', (a.step u).waiters[j]? = some w' ∧ w'.left ≤ w.left - if u = .waiter j then 1 else 0 := by
  have hlt := (List.getElem?_eq_some_iff.mp hj).1
  -- a section of another call that waits
  have hother : ∀ {k : Nat} {v : Waiter}, k ≠ j → ∃ w', (a.waiters.set k v)[j]? = some w' ∧
      w'.left ≤ w.left - if Turn.waiter k = .waiter j then 1 else 0 := by
    intro k v hne
    refine ⟨w, (List.getElem?_set_ne hne).trans hj, ?_⟩
    rw [if_neg fun heq => hne (Turn.waiter.inj heq)]
    exact Nat.le_refl _
  have hmoves := a.moves_step u
  generalize a.step u = a' at hmoves ⊢
  cases hmoves with
  | flag => exact ⟨w, hj, Nat.le_refl _⟩
  | send =>
    refine ⟨w.deliver, by rw [List.getElem?_map, hj]; rfl, ?_⟩
    cases w <;> exact Nat.le_refl _
  | @subscribe k hk =>
    by_cases hkj : k = j
    · subst hkj
      cases hj.symm.trans hk
      exact ⟨_, List.getElem?_set_self hlt, Nat.le_of_eq (by rw [if_pos rfl]; rfl)⟩
    · exact hother hkj
  | listen _ hr => exact absurd (h.raised_of_sent hs) (by rw [hr]; exact Bool.false_ne_true)
  | @wake k =>
    by_cases hkj : k = j
    · subst hkj
      exact ⟨_, List.getElem?_set_self hlt, Nat.zero_le _⟩
    · exact hother hkj
  | stay hstay =>
    refine ⟨w, hj, ?_⟩
    split
    · rename_i hu
      rcases hstay j w hu hj with rfl | rfl
      · exact Nat.le_refl _
      · exact absurd (List.mem_of_getElem? hj) (h.heard hs)
    · exact Nat.le_refl _

theorem Sound.woken_run (h : a.Sound) (hs : .sent ∈ a.raisers) {w : Waiter} (hj : a.waiters[j]? = some w)
    {later : List Turn} (hl : w.left ≤ later.count (.waiter j)) : (a.run later).waiters[j]? = some .woken := by
  induction later generalizing a w with
  | nil =>
    rw [List.count_nil] at hl
    cases w with
    | woken => exact hj
    | _ => exact absurd hl (by simp [Waiter.left])
  | cons u later ih =>
    obtain ⟨w', hj', hle⟩ := h.left_step hs hj u
    refine ih (h.step u) (sent_step hs u) hj' (Nat.le_trans hle ?_)
    rw [List.count_cons] at hl
    simp only [beq_iff_eq] at hl
    omega

/-- **No lost and no spurious wakeup.** Of any number of calls that raise a signal and calls that wait for it, whatever
the order of their sections: a call that waits is woken only when one that raises has set the flag. And once one of these
has set the flag and sent its message, every call that waits, whenever it subscribed or will subscribe, is woken by the
time it has had the sections that it still needs: none if it is woken already, its next one if it has subscribed, and one
after that if it has yet to subscribe. -/
theorem run_heard (raisers waiters : Nat) (turns : List Turn) :
    let a := (start raisers waiters).run turns
    (.woken ∈ a.waiters → ∃ r ∈ a.raisers, r ≠ .fresh) ∧
    (.sent ∈ a.raisers → ∀ j w, a.waiters[j]? = some w → ∀ later : List Turn, w.left ≤ later.count (.waiter j) →
      (a.run later).waiters[j]? = some .woken) ∧
    a.signal.waiting = a.waiters.countP Waiter.receives := by
  intro a
  have h : a.Sound := (sound_start raisers waiters).run turns
  refine ⟨?_, fun hs j w hj later hl => h.woken_run hs hj hl, h.waiting_eq⟩
  intro hw
  refine h.raised_iff.mp ?_
  by_contra hr
  exact (h.quiet (Bool.not_eq_true _ ▸ hr) _ hw).1 rfl

/-- The first call listens and has missed one of two messages; the second subscribes when all is sent. -/
theorem run_heard_late :
    let a := (start 2 2).run [.waiter 0, .waiter 0, .raiser 0, .raiser 1, .raiser 1, .raiser 0]
    .sent ∈ a.raisers ∧ a.waiters = [.listening 2, .fresh] ∧
      (a.run [.waiter 1, .waiter 0, .waiter 1]).waiters[0]? = some .woken ∧
      (a.run [.waiter 1, .waiter 0, .waiter 1]).waiters[1]? = some .woken := by
  intro a
  have hs : .sent ∈ a.raisers := by decide
  have hwaiters : a.waiters = [.listening 2, .fresh] := by decide
  have hheard := (run_heard 2 2 [.waiter 0, .waiter 0, .raiser 0, .raiser 1, .raiser 1, .raiser 0]).2.1 hs
  refine ⟨hs, hwaiters, ?_, ?_⟩
  · exact hheard 0 (.listening 2) (by rw [hwaiters]; rfl) _ (by decide)
  · exact hheard 1 .fresh (by rw [hwaiters]; rfl) _ (by decide)

end Alarm
end CallGuard
