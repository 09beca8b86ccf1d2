import CallGuard.Proofs.Execution.Pauses

/-!
# Which calls a cancel reaches

Contexts are derived from a context by children, which keep its signal, and by attaching signals (`Context.Below`).
A context has one signal: the last one attached on the way to it, or the one with which the way began
(`Context.Below.signal_eq`). So of the signals above a call only that one reaches it.

**Main statement.** A cancel of a signal ends every pending call below a context that carries it at its next poll, and
none of them is pending at the next pause, if no other signal was attached last; else it does not reach them
(`Context.Below.cancel_reaches`).
-/

namespace CallGuard

variable {α : Type}

namespace Context

/-- The contexts derived from `p`, with the signals that were attached on the way, the first one first. -/
inductive Below (p : Context) : List String → Context → Prop
  | refl : Below p [] p
  | child {names : List String} {x : Context} (now ms : Nat) : Below p names x → Below p names (x.child now ms)
  | attach {names : List String} {x : Context} (name : String) : Below p names x →
      Below p (names ++ [name]) (x.withSignal name)

/-- The signal that counts is the last one attached. -/
theorem Below.signal_eq {p x : Context} {names : List String} (h : p.Below names x) :
    x.signal = names.getLast?.or p.signal := by
  induction h with
  | refl => rfl
  | child now ms _ ih => exact ih
  | attach name _ _ => rw [List.getLast?_concat]; rfl

end Context

/-! ## Calls that are interrupted -/

/-- How the part of a suspended call ends when it is polled and may not wait: with its work, if that ends at this poll,
else by the time of the circuit, else by the interruption. -/
def InFlight.ending (c : InFlight α) (e : Engine) : Ending α :=
  match (c.inner.poll c.frame.context (e.leave c.frame.context)).1 with
  | .finished r => .own r
  | .suspended _ => if c.stage.isOver e.now then .timedOut else .interrupted

/-- The next poll of a call in `e` ends it, as an interrupted one if neither its work nor its time ends first. A call
inside other work is polled in the same way, before the calls around it. -/
def InFlight.Interrupted (c : InFlight α) (e : Engine) : Prop :=
  ∃ k, (c.poll e).1 = .finished k ∧
    match c.stage with
    | .primary .. => k.primary = (c.ending e).result c.frame.circuit.limits
    | .fallback cause => k = ⟨.error cause, some cause, fallbackAnswer cause (c.ending e).own?⟩

/-- How a primary part ends that may not wait, from where a poll leaves its work and whether its time is over. -/
def Progress.ending (p : Progress (Suspended α) (WorkResult α)) (late : Bool) : Ending α :=
  match p with
  | .finished r => .own r
  | .suspended _ => if late then .timedOut else .interrupted

/-- The result of work or of a call that is finished. -/
def Progress.own? {σ ρ : Type} : Progress σ ρ → Option ρ
  | .finished r => some r
  | .suspended _ => none

/-- The fallback of the call, if one was begun after acts in `e`, did not wait: it ended with its work, if that ended at
once, else by the interruption. -/
def Completion.Unwaited (k : Completion α) (e : Engine) (rescue : Option (Rescue α)) : Prop :=
  ∀ cause, k.fallbackSaw = some cause → ∃ r e', rescue = some r ∧ Engine.Acts e e' ∧
    k.answer = fallbackAnswer cause (r.begin e').1.own?

/-- The next poll of a call in `e` ends it as an interrupted one, and a fallback that follows as well. -/
def InFlight.CutShort (c : InFlight α) (e : Engine) : Prop :=
  ∃ k, (c.poll e).1 = .finished k ∧
    match c.stage with
    | .primary _ rescue =>
      k.primary = (c.ending e).result c.frame.circuit.limits ∧ k.Unwaited e (c.frame.rescueOf rescue)
    | .fallback cause => k = ⟨.error cause, some cause, fallbackAnswer cause (c.ending e).own?⟩

theorem InFlight.CutShort.interrupted {c : InFlight α} {e : Engine} (h : c.CutShort e) : c.Interrupted e := by
  obtain ⟨k, hk, hends⟩ := h
  refine ⟨k, hk, ?_⟩
  cases hstage : c.stage with
  | primary due rescue =>
    rw [hstage] at hends
    exact hends.1
  | fallback cause =>
    rw [hstage] at hends
    exact hends

/-- What interrupts goes on doing so through a row of acts. -/
theorem Engine.Acts.interrupts {e e' : Engine} (h : Engine.Acts e e') {x : Context} (hi : e.interrupts x = true) :
    e'.interrupts x = true := by
  rw [interrupts_eq_true_iff, h.now_eq]
  exact (interrupts_eq_true_iff.mp hi).imp_right h.raised

theorem Completion.Unwaited.of_acts {k : Completion α} {e e' : Engine} {rescue : Option (Rescue α)}
    (h : k.Unwaited e' rescue) (hacts : Engine.Acts e e') : k.Unwaited e rescue := by
  intro cause hsaw
  obtain ⟨r, e₁, hr, he₁, hanswer⟩ := h cause hsaw
  exact ⟨r, e₁, hr, hacts.trans he₁, hanswer⟩

namespace Frame

variable {f : Frame} {e : Engine} {rescue : Option (Rescue α)} {begin : Poll (Suspended α) (WorkResult α)}

theorem interrupts_of_raised (h : e.raised f.context = true) : e.interrupts f.context = true :=
  Engine.interrupts_eq_true_iff.mpr (.inr h)

/-- No fallback waits in a context that interrupts. -/
theorem finished_afterPrimary (result : CallResult α) (hb : ∀ r, rescue = some r → ∀ e, Engine.Acts e (r.begin e).2)
    (h : e.interrupts f.context = true) :
    ∃ k, (f.afterPrimary result rescue e).1 = .finished k ∧ k.primary = result ∧ k.Unwaited e rescue := by
  rcases allowed_or_not result rescue with ⟨cause, r, rfl, rfl, hallows⟩ | hnot
  · rw [afterPrimary_of_allowed hallows]
    cases ha : e.acquire? f.circuit .fallback with
    | none =>
      rw [startFallback_of_full ha]
      exact ⟨_, rfl, rfl, fun _ hsaw => absurd hsaw (Option.some_ne_none _).symm⟩
    | some e' =>
      rw [startFallback_of_acquired ha]
      have hacquire : Engine.Acts e e' := Engine.Acts.single (.acquire ha)
      have hacts : Engine.Acts e (r.begin e').2 := hacquire.trans (hb r rfl e')
      cases hbegin : (r.begin e').1 with
      | finished result =>
        refine ⟨_, rfl, rfl, fun cause' hsaw => ⟨r, e', rfl, hacquire, ?_⟩⟩
        cases hsaw
        rw [hbegin]
        rfl
      | suspended s =>
        rw [settleFallback_interrupted (hacts.interrupts h)]
        refine ⟨_, rfl, rfl, fun cause' hsaw => ⟨r, e', rfl, hacquire, ?_⟩⟩
        cases hsaw
        rw [hbegin]
        rfl
  · rw [afterPrimary_of_not_allowed hnot]
    exact ⟨_, rfl, rfl, fun _ hsaw => absurd hsaw (Option.some_ne_none _).symm⟩

/-- The poll that begins a fallback acts on the engine as its work does. -/
theorem acts_begin_rescueOf {rescue : Option (Work α)} (r : Rescue α) (hr : f.rescueOf rescue = some r) (e : Engine) :
    Engine.Acts e (r.begin e).2 := by
  obtain ⟨w, -, rfl⟩ := Option.map_eq_some_iff.mp hr
  exact w.acts_start f.context e

/-- No fallback waits either that follows a primary part which is closed in a context that interrupts. -/
theorem finished_closePrimary {rescue : Option (Work α)} {e' : Engine} (x : Ending α)
    (h : e.interrupts f.context = true) (hacts : Engine.Acts e e') :
    ∃ k, (f.afterPrimary (x.result f.circuit.limits) (f.rescueOf rescue) (f.closePrimary x.outcome e')).1 =
      .finished k ∧ k.primary = x.result f.circuit.limits ∧ k.Unwaited e (f.rescueOf rescue) := by
  have hclosed := hacts.trans (f.acts_closePrimary e' x.outcome)
  obtain ⟨k, hk, hprimary, hrescue⟩ :=
    finished_afterPrimary (x.result f.circuit.limits) acts_begin_rescueOf (hclosed.interrupts h)
  exact ⟨k, hk, hprimary, hrescue.of_acts hclosed⟩

/-- No primary part waits in a context that interrupts. -/
theorem finished_settlePrimary (due : Nat) (rescue : Option (Work α)) {e' : Engine}
    (p : Progress (Suspended α) (WorkResult α)) (h : e.interrupts f.context = true) (hacts : Engine.Acts e e') :
    ∃ k, (f.settlePrimary due (f.rescueOf rescue) p e').1 = .finished k ∧
      k.primary = (p.ending (decide (due ≤ e.now))).result f.circuit.limits ∧ k.Unwaited e (f.rescueOf rescue) := by
  cases p with
  | finished r => exact finished_closePrimary (.own r) h hacts
  | suspended s =>
    have hgiven := hacts.trans (s.acts_abandon e')
    rw [Progress.ending, ← hacts.now_eq]
    by_cases hd : due ≤ e'.now
    · rw [settlePrimary_timedOut hd, decide_eq_true hd]
      exact finished_closePrimary .timedOut h hgiven
    · rw [settlePrimary_interrupted (Nat.lt_of_not_le hd) (hacts.interrupts h), decide_eq_false hd]
      exact finished_closePrimary .interrupted h hgiven

end Frame

/-- In a context that interrupts no call waits. -/
theorem InFlight.cutShort_of_interrupts {c : InFlight α} {e : Engine} (h : e.interrupts c.frame.context = true) :
    c.CutShort e := by
  obtain ⟨f, stage, inner⟩ := c
  have hacts : Engine.Acts e (inner.poll f.context (e.leave f.context)).2 :=
    (Engine.Acts.single (.leave e f.context)).trans (inner.acts_poll _ _)
  rcases hpoll : inner.poll f.context (e.leave f.context) with ⟨p, e'⟩
  rw [hpoll] at hacts
  simp only [CutShort, InFlight.poll_eq, ending, hpoll]
  cases stage with
  | primary due rescue => exact Frame.finished_settlePrimary due rescue p h hacts
  | fallback cause =>
    change ∃ k, (f.settleFallback cause p e').1 = .finished k ∧ _
    cases p with
    | finished r => exact ⟨_, rfl, rfl⟩
    | suspended s =>
      rw [Frame.settleFallback_interrupted (hacts.interrupts h)]
      exact ⟨_, rfl, rfl⟩

/-- Under a signal that is raised no call waits. -/
theorem InFlight.interrupted_of_raised {c : InFlight α} {e : Engine} (h : e.raised c.frame.context = true) :
    c.Interrupted e :=
  (cutShort_of_interrupts (Frame.interrupts_of_raised h)).interrupted

/-! ## What a cancel reaches -/

theorem Engine.raised_cancel (e : Engine) (n : String) (x : Context) :
    (e.cancel n).raised x = (decide (x.signal = some n) || e.raised x) := by
  unfold raised cancelled?
  cases x.signal with
  | none => rfl
  | some m =>
    simp only [Option.map_some, Option.getD_some, Option.some.injEq]
    exact Signals.raised_cancel e.signals n m

/-- **What a cancel reaches.** Let `p` carry the signal `n`, and let a context be derived from it. If no other signal
was attached last on the way, then at any time after a cancel of `n` the next poll of a call in that context interrupts
it, and at no pause of a group in which `n` is raised is any call in it pending, however deep inside others. If another
signal was attached last, a cancel of `n` interrupts nothing in that context. -/
theorem Context.Below.cancel_reaches {p x : Context} {names : List String} {n : String} (hp : p.signal = some n)
    (hx : p.Below names x) :
    (names.getLast?.getD n = n →
      (∀ e e' : Engine, (e.cancel n).signals.Grow e'.signals →
        ∀ c : InFlight α, c.frame.context = x → c.Interrupted e') ∧
      ∀ (e : Engine) (items : List (Item α)), ∀ s ∈ e.pauses items, (s.engine.signals.get n).raised = true →
        ∀ t ∈ s.tasks, ∀ h ∈ t.pending, h.frame.context ≠ x) ∧
    (names.getLast?.getD n ≠ n → ∀ e : Engine, (e.cancel n).interrupts x = e.interrupts x) := by
  have hsignal : x.signal = some (names.getLast?.getD n) := by
    rw [hx.signal_eq, hp]
    cases names.getLast? <;> rfl
  refine ⟨fun hn => ⟨?_, ?_⟩, fun hn e => ?_⟩
  · intro e e' hgrow c hc
    refine InFlight.interrupted_of_raised ?_
    have hcancel : ((e.cancel n).signals.get n).raised = true := by
      rw [Engine.cancel, Signals.raised_cancel, decide_eq_true rfl, Bool.true_or]
    rw [hc, Engine.raised, Engine.cancelled?, hsignal, hn]
    exact hgrow.raised n hcancel
  · intro e items s hs hraised t ht h hmem heq
    have hquiet := Engine.quiet_of_mem_pauses hs t ht h hmem
    have hi : s.engine.interrupts h.frame.context = true := by
      refine Engine.interrupts_eq_true_iff.mpr (.inr ?_)
      rw [heq, Engine.raised, Engine.cancelled?, hsignal, hn]
      exact hraised
    exact absurd (hi.symm.trans hquiet) (by decide)
  · have hraised : (e.cancel n).raised x = e.raised x := by
      rw [Engine.raised_cancel, hsignal, decide_eq_false (by simpa using hn), Bool.false_or]
    unfold Engine.raised at hraised
    rw [Engine.interrupts, Engine.interrupts, hraised, Engine.now_cancel]

/-! ## A signal that hides another -/

namespace Hidden

/-- A context that carries a signal. -/
def parent : Context := { signal := some "stop" }

/-- A child of it. -/
def child : Context := parent.child 0 50

/-- The child under a signal of its own. -/
def stranger : Context := child.withSignal "halt"

/-- An engine without circuits. -/
def engine : Engine := { registry := { settings := {} } }

/-- A call in a context, whose work never ends. -/
def call (x : Context) : InFlight Nat := ⟨⟨⟨0, ⟨⟨"", "db"⟩, 0⟩, {}⟩, x⟩, .primary 1000 none, .hanging⟩

end Hidden

/-- The child is reached, and under a signal of its own it is not. -/
theorem Context.Below.cancel_reaches_child : Hidden.parent.Below [] Hidden.child ∧
    (Hidden.call Hidden.child).Interrupted (Hidden.engine.cancel "stop") ∧
    Hidden.parent.Below ["halt"] Hidden.stranger ∧
    (Hidden.engine.cancel "stop").interrupts Hidden.stranger = Hidden.engine.interrupts Hidden.stranger := by
  have hchild : Hidden.parent.Below [] Hidden.child := .child 0 50 .refl
  have hstranger : Hidden.parent.Below ["halt"] Hidden.stranger := .attach "halt" hchild
  refine ⟨hchild, ?_, hstranger, ?_⟩
  · exact ((Context.Below.cancel_reaches rfl hchild).1 rfl).1 Hidden.engine _ (.of_eq (fun _ => rfl) rfl) _ rfl
  · exact (@Context.Below.cancel_reaches Nat _ _ _ "stop" rfl hstranger).2 (by decide) Hidden.engine

/-- **Not every descendant is reached**: a signal that is attached on the way hides the one above it. -/
theorem Context.Below.cancel_hidden : ¬ ∀ (p x : Context) (names : List String) (n : String), p.signal = some n →
    p.Below names x → ∀ (e : Engine) (c : InFlight Nat), c.frame.context = x → c.Interrupted (e.cancel n) := by
  intro hall
  obtain ⟨k, hk, -⟩ := hall Hidden.parent Hidden.stranger ["halt"] "stop" rfl (.attach "halt" (.child 0 50 .refl))
    Hidden.engine (Hidden.call Hidden.stranger) rfl
  have hsuspended : ((Hidden.call Hidden.stranger).poll (Hidden.engine.cancel "stop")).1 =
      .suspended (Hidden.call Hidden.stranger) := rfl
  cases hsuspended.symm.trans hk

end CallGuard
