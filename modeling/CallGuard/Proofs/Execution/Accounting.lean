import CallGuard.Proofs.Execution.Ledger
import CallGuard.Proofs.Execution.Polls

/-!
# Every call is counted once

The life of a call is its beginning and its later polls (`Call.live`). Between the polls the engine may become anything:
other calls report, the clock moves, circuits are registered. `Standing` lists how a call can stand, and what it has
entered until then: nothing while its primary part runs, the end of the primary part once, and the end of the fallback
once, which is there exactly if a fallback was supplied and the primary error calls for one (`Rescuable`). A part that
ends with its work ends with what the work returned at the polls of the call (`Work.Comes`, `Work.Returns`).

**Main statement** (`Call.live_accounts`): at every point of every life the call stands in one of these ways, and each
poll moves every counter by what the call enters in it and by what calls inside its work enter in it, at that instant.
-/

namespace CallGuard

variable {α : Type}

/-! ## Where a call can stand -/

/-- A primary error that a fallback may answer. -/
inductive Rescuable : CallError → Prop
  | failed (m : String) : Rescuable (.failed m)
  | timeout (d : Duration) : Rescuable (.timeout d)
  | shortCircuited : Rescuable .shortCircuited
  | concurrencyRejected : Rescuable .concurrencyRejected

theorem allowsFallback_iff {c : CallError} : c.allowsFallback = true ↔ Rescuable c := by
  constructor
  · intro h
    cases c with
    | failed m => exact .failed m
    | timeout d => exact .timeout d
    | shortCircuited => exact .shortCircuited
    | concurrencyRejected => exact .concurrencyRejected
    | _ => cases h
  · rintro (_ | _ | _ | _) <;> rfl

/-- Where work is left that was begun at the first of the given engines and polled again at each of the others, once at
each, after acts there. -/
inductive Work.Comes (w : Work α) (x : Context) : List Engine → Progress (Suspended α) (WorkResult α) → Prop
  | begun {e e' : Engine} : Engine.Acts e e' → Comes w x [e] (w.start x e').1
  | polled {es : List Engine} {s : Suspended α} {e e' : Engine} : Comes w x es (.suspended s) → Engine.Acts e e' →
      Comes w x (es ++ [e]) (s.poll x e').1

/-- What work ends with that was polled so. -/
def Work.Returns (w : Work α) (x : Context) (es : List Engine) (r : WorkResult α) : Prop := w.Comes x es (.finished r)

/-- How a call in context `x` stands that was polled at the engines `es`, and what it has entered. The work of a part was
polled at all these engines up to the end of the part, and what it returned is the result; the fallback was begun at the
engine at which the primary part ended. -/
inductive Standing (c : Call α) (x : Context) (es : List Engine) :
    Progress (InFlight α) (Completion α) → List Entry → Prop
  /-- The primary part runs; nothing has ended. -/
  | running {due : Nat} {inner : Suspended α} : c.work.Comes x es (.suspended inner) →
      Standing c x es (.suspended ⟨⟨c.circuit, x⟩, .primary due c.rescue, inner⟩) []
  /-- The primary part has ended with an error that calls for the fallback, which runs. -/
  | rescuing {before after : List Engine} {e : Engine} {w : Work α} {cause : CallError} {inner : Suspended α}
      {o : CallOutcome} : es = before ++ e :: after → c.rescue = some w → Rescuable cause →
      PrimaryEnd c.circuit.limits (c.work.Returns x (before ++ [e])) o (.error cause) →
      w.Comes x (e :: after) (.suspended inner) →
      Standing c x es (.suspended ⟨⟨c.circuit, x⟩, .fallback cause, inner⟩) [.call c.circuit.handle o]
  /-- The primary part has ended, and its result is the answer. -/
  | ended {result : CallResult α} {o : CallOutcome} : PrimaryEnd c.circuit.limits (c.work.Returns x es) o result →
      (∀ cause, result = .error cause → Rescuable cause → c.rescue = none) →
      Standing c x es (.finished ⟨result, none, result⟩) [.call c.circuit.handle o]
  /-- Both parts have ended, and the fallback gave the answer. -/
  | rescued {before after : List Engine} {e : Engine} {w : Work α} {cause : CallError} {saw : Option CallError}
      {answer : CallResult α} {o : CallOutcome} {fo : FallbackOutcome} : es = before ++ e :: after →
      c.rescue = some w → Rescuable cause →
      PrimaryEnd c.circuit.limits (c.work.Returns x (before ++ [e])) o (.error cause) →
      FallbackEnd (w.Returns x (e :: after)) cause fo saw answer →
      Standing c x es (.finished ⟨.error cause, saw, answer⟩)
        [.call c.circuit.handle o, .fallback c.circuit.handle fo]

namespace Standing

variable {c : Call α} {x : Context} {es before after : List Engine} {e₀ : Engine} {cause : CallError}
  {o : CallOutcome}

/-- What a call has entered is what is seen of it. -/
theorem entries_eq {q : Progress (InFlight α) (Completion α)} {l : List Entry} (h : Standing c x es q l) :
    l = q.entries c.circuit.handle := by
  cases h with
  | running => rfl
  | rescuing _ _ _ ho _ => rw [Progress.entries, Stage.entries, ho.shownOutcome_eq]
  | ended ho _ =>
    rw [Progress.entries, ho.shownOutcome_eq]
    cases ho <;> rfl
  | rescued _ _ _ ho hfo =>
    rw [Progress.entries, ho.shownOutcome_eq, Completion.fallbackEntries, hfo.shownFallback_eq]
    rfl

section Rescue

variable {w : Work α} (hw : c.rescue = some w) (hc : Rescuable cause)
  (ho : PrimaryEnd c.circuit.limits (c.work.Returns x (before ++ [e₀])) o (.error cause))
include hw hc ho

theorem settleFallback {p : Progress (Suspended α) (WorkResult α)} (hp : w.Comes x (e₀ :: after) p) (e : Engine) :
    ∃ l, Standing c x (before ++ e₀ :: after) (Frame.settleFallback ⟨c.circuit, x⟩ cause p e).1 l := by
  cases p with
  | finished r =>
    refine ⟨_, .rescued rfl hw hc ho (.of_answer fun r' hr => ?_)⟩
    obtain rfl := Option.some.inj hr
    exact hp
  | suspended s =>
    cases hi : e.interrupts x with
    | true =>
      rw [Frame.settleFallback_interrupted (f := ⟨c.circuit, x⟩) hi]
      exact ⟨_, .rescued rfl hw hc ho (.of_answer fun r' hr => by cases hr)⟩
    | false =>
      rw [Frame.settleFallback_suspended (f := ⟨c.circuit, x⟩) hi]
      exact ⟨_, .rescuing rfl hw hc ho hp⟩

theorem startFallback {e : Engine} (hacts : Engine.Acts e₀ e) :
    ∃ l, Standing c x (before ++ [e₀]) (Frame.startFallback ⟨c.circuit, x⟩ cause (w.start x) e).1 l := by
  cases ha : e.acquire? c.circuit .fallback with
  | none =>
    rw [Frame.startFallback_of_full (f := ⟨c.circuit, x⟩) ha]
    exact ⟨_, .rescued rfl hw hc ho .concurrencyRejected⟩
  | some e' =>
    rw [Frame.startFallback_of_acquired (f := ⟨c.circuit, x⟩) ha]
    exact settleFallback hw hc ho (.begun (hacts.add (.acquire ha))) _

end Rescue

theorem afterPrimary {result : CallResult α} {e : Engine}
    (ho : PrimaryEnd c.circuit.limits (c.work.Returns x (before ++ [e₀])) o result) (hacts : Engine.Acts e₀ e) :
    ∃ l, Standing c x (before ++ [e₀])
      (Frame.afterPrimary ⟨c.circuit, x⟩ result (Frame.rescueOf ⟨c.circuit, x⟩ c.rescue) e).1 l := by
  rcases Frame.allowed_or_not result (Frame.rescueOf ⟨c.circuit, x⟩ c.rescue) with ⟨cause, r, rfl, hr, hallows⟩ | hnot
  · obtain ⟨w, hw, rfl⟩ := Option.map_eq_some_iff.mp hr
    rw [hr, Frame.afterPrimary_of_allowed hallows]
    exact startFallback hw (allowsFallback_iff.mp hallows) ho hacts
  · rw [Frame.afterPrimary_of_not_allowed hnot]
    refine ⟨_, .ended ho fun cause hresult hc => ?_⟩
    cases hw : c.rescue with
    | none => rfl
    | some w =>
      have hforbidden := hnot cause ⟨w, w.start x⟩ hresult (by rw [hw]; rfl)
      rw [allowsFallback_iff.mpr hc] at hforbidden
      cases hforbidden

theorem settlePrimary (due : Nat) {p : Progress (Suspended α) (WorkResult α)} {e : Engine}
    (hp : c.work.Comes x (before ++ [e₀]) p) (hacts : Engine.Acts e₀ e) :
    ∃ l, Standing c x (before ++ [e₀])
      (Frame.settlePrimary ⟨c.circuit, x⟩ due (Frame.rescueOf ⟨c.circuit, x⟩ c.rescue) p e).1 l := by
  cases p with
  | finished r =>
    have hend : PrimaryEnd c.circuit.limits (c.work.Returns x (before ++ [e₀])) (Ending.own r).outcome
        ((Ending.own r).result c.circuit.limits) := .of_ending fun r' hr => by cases hr; exact hp
    exact afterPrimary hend (hacts.trans (Frame.acts_closePrimary ..))
  | suspended s =>
    -- the work of a part that ends otherwise has returned nothing
    have hend : ∀ y : Ending α, (∀ r, y ≠ .own r) → PrimaryEnd c.circuit.limits
        (c.work.Returns x (before ++ [e₀])) y.outcome (y.result c.circuit.limits) :=
      fun y hy => .of_ending fun r hr => absurd hr (hy r)
    have hgone := fun o => (hacts.trans (s.acts_abandon e)).trans (Frame.acts_closePrimary ⟨c.circuit, x⟩ _ o)
    by_cases hd : due ≤ e.now
    · rw [Frame.settlePrimary_timedOut hd]
      exact afterPrimary (hend .timedOut nofun) (hgone _)
    · cases hi : e.interrupts x with
      | true =>
        rw [Frame.settlePrimary_interrupted (f := ⟨c.circuit, x⟩) (by omega) hi]
        exact afterPrimary (hend .interrupted nofun) (hgone _)
      | false =>
        rw [Frame.settlePrimary_suspended (f := ⟨c.circuit, x⟩) (by omega) hi, Frame.map_work_rescueOf]
        exact ⟨_, .running hp⟩

/-- **A call that is begun** stands in one of the ways. -/
theorem start (c : Call α) (x : Context) (e : Engine) :
    Standing c x [e] (c.start x e).1 ((c.start x e).1.entries c.circuit.handle) := by
  have hstart : c.start x e =
      Frame.startCall ⟨c.circuit, x⟩ (c.work.start x) (Frame.rescueOf ⟨c.circuit, x⟩ c.rescue) e := rfl
  have hstand : ∃ l, Standing c x ([] ++ [e]) (c.start x e).1 l := by
    rw [hstart]
    cases hopen : c.circuit.limits.forceOpen with
    | true =>
      rw [Frame.startCall_of_open hopen]
      exact afterPrimary .shortCircuited (.single (.report ..))
    | false =>
      cases ha : e.acquire? c.circuit .primary with
      | none =>
        rw [Frame.startCall_of_full hopen ha]
        exact afterPrimary .concurrencyRejected (.single (.report ..))
      | some e' =>
        rw [Frame.startCall_of_acquired hopen ha]
        have hacquire : Engine.Acts e e' := .single (.acquire ha)
        exact settlePrimary _ (.begun hacquire) (hacquire.trans (c.work.acts_start x e'))
  obtain ⟨l, hl⟩ := hstand
  exact hl.entries_eq ▸ hl

/-- **A poll takes a call from one standing to another**, and enters what is new in it. -/
theorem poll {g : InFlight α} {l : List Entry} (h : Standing c x es (.suspended g) l) (e : Engine) :
    Standing c x (es ++ [e]) (g.poll e).1 (l ++ g.ownEntries e) := by
  have hleave : Engine.Acts e (e.leave x) := .single (.leave e x)
  cases h with
  | @running due inner hp =>
    obtain ⟨l, hl⟩ := settlePrimary due (hp.polled hleave) (hleave.trans (inner.acts_poll x _))
    have heq := hl.entries_eq
    subst heq
    exact hl
  | @rescuing before after e₀ w cause inner o hes hw hc ho hp =>
    subst hes
    obtain ⟨l, hl⟩ := settleFallback hw hc ho (hp.polled hleave) (inner.poll x (e.leave x)).2
    obtain ⟨l', hl', -⟩ := Frame.accounts_settleFallback ⟨c.circuit, x⟩ cause (inner.poll x (e.leave x)).1
      (inner.poll x (e.leave x)).2
    have heq := hl.entries_eq
    rw [hl', ho.shownOutcome_eq] at heq
    subst heq
    rw [List.append_assoc, InFlight.ownEntries, InFlight.poll_eq, Frame.settle, hl']
    exact hl

end Standing

/-! ## Lives of calls -/

/-- One poll of a call: the engine before and after it, and what was entered by the call itself and inside it. -/
structure Visit where
  before : Engine
  after : Engine
  own : List Entry
  inner : List Entry

/-- The poll that begins a call. -/
def Call.visit (c : Call α) (context : Context) (e : Engine) : Visit where
  before := e
  after := (c.start context e).2
  own := (c.start context e).1.entries c.circuit.handle
  inner := c.innerLedger context e

/-- A later poll of a call. -/
def InFlight.visit (c : InFlight α) (e : Engine) : Visit where
  before := e
  after := (c.poll e).2
  own := c.ownEntries e
  inner := c.innerLedger e

/-- The polls of a call at the given engines, as long as it is suspended, and how it stands after them. -/
def Progress.follow : Progress (InFlight α) (Completion α) → List Engine →
    List Visit × Progress (InFlight α) (Completion α)
  | .suspended c, e :: es => (c.visit e :: ((c.poll e).1.follow es).1, ((c.poll e).1.follow es).2)
  | q, _ => ([], q)

/-- The polls of a call that is begun at `e` and polled again at the engines `es`, and how it stands after them. -/
def Call.live (c : Call α) (context : Context) (e : Engine) (es : List Engine) :
    List Visit × Progress (InFlight α) (Completion α) :=
  (c.visit context e :: ((c.start context e).1.follow es).1, ((c.start context e).1.follow es).2)

theorem Standing.follow {c : Call α} {x : Context} {visited : List Engine} {q : Progress (InFlight α) (Completion α)}
    {l : List Entry} (h : Standing c x visited q l) (es : List Engine) :
    (∀ v ∈ (q.follow es).1, Accounts v.before v.after (v.inner ++ v.own)) ∧
      Standing c x (visited ++ (q.follow es).1.map (·.before)) (q.follow es).2
        (l ++ (q.follow es).1.flatMap (·.own)) := by
  induction es generalizing visited q l with
  | nil =>
    cases q <;> exact ⟨fun _ hv => absurd hv List.not_mem_nil, by simpa [Progress.follow] using h⟩
  | cons e es ih =>
    cases q with
    | finished k => exact ⟨fun _ hv => absurd hv List.not_mem_nil, by simpa [Progress.follow] using h⟩
    | suspended g =>
      obtain ⟨hacc, hstand⟩ := ih (h.poll e)
      refine ⟨?_, ?_⟩
      · intro v hv
        rcases List.mem_cons.mp hv with rfl | hv
        · exact InFlight.accounts_poll ..
        · exact hacc v hv
      · rw [List.append_assoc, List.append_assoc] at hstand
        exact hstand

/-- **Every call is counted once.** Whatever happens between its polls, a call has entered the end of its primary part
when that has ended, the end of its fallback when that has ended, and nothing else, by outcomes that belong to the
results; these are what its work and its fallback returned, if they ended by themselves; and each poll moves every
counter of every circuit by just what was entered in it, at its own instant. -/
theorem Call.live_accounts (c : Call α) (context : Context) (e : Engine) (es : List Engine) :
    let life := c.live context e es
    (∀ v ∈ life.1, Accounts v.before v.after (v.inner ++ v.own)) ∧
      Standing c context (life.1.map (·.before)) life.2 (life.1.flatMap (·.own)) := by
  intro life
  obtain ⟨hacc, hstand⟩ := (Standing.start c context e).follow es
  refine ⟨?_, hstand⟩
  intro v hv
  rcases List.mem_cons.mp hv with rfl | hv
  · exact c.accounts_start context e
  · exact hacc v hv

/-! ## A call that is rescued -/

namespace Rescued

/-- An engine with one circuit. -/
def engine : Engine where
  registry := { settings := {}, circuits := #[.start 0 ⟨"", "db"⟩ {} (by decide) true] }
  created := 1

/-- The circuit. -/
def circuit : Circuit := ⟨0, ⟨⟨"", "db"⟩, 0⟩, {}⟩

/-- Work that fails after two milliseconds. -/
def work : Work Nat := .wait 2 (.done (.error (.failed "down")))

/-- A fallback that has a value after one more. -/
def rescue : Work Nat := .wait 1 (.done (.ok (.plain 7)))

/-- The call of both. -/
def call : Call Nat := ⟨circuit, {}, work, some rescue⟩

/-- The call while its work waits. -/
def waiting : InFlight Nat :=
  ⟨⟨circuit, .background⟩, .primary 1000 (some rescue), .waiting 2 (.done (.error (.failed "down")))⟩

/-- The engine when the work has failed. -/
def failing : Engine := (call.start .background engine).2.advance 2

/-- The engine when the fallback has its value. -/
def rescuing : Engine := (waiting.poll failing).2.advance 1

/-- The life of the call. -/
def life : List Visit × Progress (InFlight Nat) (Completion Nat) :=
  call.live .background engine [failing, rescuing]

end Rescued

/-- The failure is entered when the work fails, the success of the fallback a millisecond later, each once and nothing
else; and the answer is the value that the fallback returned. -/
theorem Call.live_accounts_rescued :
    Rescued.life.1.map (fun v => (v.inner ++ v.own, v.after.now)) =
      [([], 0), ([.call Rescued.circuit.handle .failure], 2), ([.fallback Rescued.circuit.handle .success], 3)] ∧
    (∀ v ∈ Rescued.life.1, Accounts v.before v.after (v.inner ++ v.own)) ∧
    (Rescued.life.1.getLast?.bind (·.after.callCounter? 0 .failures)).map (·.total) = some 1 ∧
    (Rescued.life.1.getLast?.bind (·.after.fallbackCounter? 0 .successes)).map (·.total) = some 1 ∧
    Rescued.life.2 = .finished ⟨.error (.failed "down"), some (.failed "down"), .ok (.plain 7)⟩ ∧
    ∃ es, Rescued.rescue.Returns .background es (.ok (.plain 7)) := by
  obtain ⟨hacc, hstand⟩ := Rescued.call.live_accounts .background Rescued.engine [Rescued.failing, Rescued.rescuing]
  have hend : Rescued.life.2 = .finished ⟨.error (.failed "down"), some (.failed "down"), .ok (.plain 7)⟩ := rfl
  refine ⟨rfl, hacc, rfl, rfl, hend, ?_⟩
  change Standing _ _ _ Rescued.life.2 _ at hstand
  rw [hend] at hstand
  cases hstand with
  | rescued _ hw _ _ hfo =>
    cases hfo with
    | success hreturned =>
      obtain rfl := Option.some.inj hw
      exact ⟨_, hreturned⟩

end CallGuard
