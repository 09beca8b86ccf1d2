import CallGuard.Proofs.Execution.Reports
import CallGuard.Proofs.Registry.Isolation

/-!
# Deeds

A `Deed` is something that is done with an engine from its beginning to its end: an operation on the registry, the
raising of a signal, a run of tasks with the guarded calls in them. `Engine.carryAll` does one deed after the other.
Whoever reports or calls does so through handles that the registry handed out, which is to say through those that it
finds for their names (`Engine.HoldsDeed`, `Engine.HoldsDeeds`).

A registry is `Sound` if it lists no name twice and its settings have no problem; so is every new registry, and every
deed keeps it so (`Registry.sound_of_create`, `Engine.sound_carry`).
-/

namespace CallGuard

variable {α : Type}

/-- Something that is done with an engine. -/
inductive Deed (α : Type)
  /-- Something is asked of the registry, or time passes. -/
  | ask (op : Operation)
  /-- A signal is raised. -/
  | cancel (signal : String)
  /-- Tasks are run until none can go on. -/
  | run (items : List (Item α))

/-! ## Sound registries -/

/-- What every deed keeps of a registry. -/
structure Registry.Sound (r : Registry) : Prop where
  nodup : r.roll.Nodup
  valid : r.settings.Valid

namespace Registry

variable {r : Registry}

theorem sound_of_create {s : Settings} (h : create s = .ok r) : r.Sound where
  nodup := by
    rw [roll_of_create h]
    exact List.nodup_nil
  valid := by
    obtain ⟨hvalid, hsettings⟩ := create_eq_ok h
    rwa [hsettings]

theorem roll_report (r : Registry) (h : Handle) (o : CallOutcome) (t : Int) : (r.report h o t).roll = r.roll :=
  roll_of_record (i := h.index) (x := .call o t) rfl

theorem roll_reportFallback (r : Registry) (h : Handle) (o : FallbackOutcome) (t : Int) :
    (r.reportFallback h o t).roll = r.roll :=
  roll_of_record (circuits_reportFallback r h o t)

/-- Reports leave the names and the settings. -/
theorem kept_of_roll_settings (circuits : List Circuit) (roll : List CircuitName) (settings : Settings) :
    Kept circuits fun r => r.roll = roll ∧ r.settings = settings where
  note _ h := h
  report o t _ h := ⟨(roll_report _ _ o t).trans h.1, h.2⟩
  reportFallback o t _ h := ⟨(roll_reportFallback _ _ o t).trans h.1, (settings_reportFallback _ _ o t).trans h.2⟩

end Registry

/-! ## Deeds in a row -/

namespace Engine

/-- The engine after a deed. -/
def carry (e : Engine) : Deed α → Engine
  | .ask op => e.perform op
  | .cancel signal => e.cancel signal
  | .run items => (e.run items).2

/-- The engine after deeds, one after the other. -/
def carryAll (e : Engine) (deeds : List (Deed α)) : Engine := deeds.foldl carry e

/-- Whatever a deed reports or calls goes through the handle that is found for its name. -/
def HoldsDeed (e : Engine) : Deed α → Prop
  | .ask op => e.Holds op
  | .cancel _ => True
  | .run items => ∀ i ∈ items, ∀ c ∈ i.action.circuits, e.registry.find? c.handle.name = some c.handle

instance decidableHoldsDeed (e : Engine) : (d : Deed α) → Decidable (e.HoldsDeed d)
  | .ask op => inferInstanceAs (Decidable (e.Holds op))
  | .cancel _ => isTrue trivial
  | .run items => inferInstanceAs (Decidable (∀ i ∈ items, ∀ c ∈ i.action.circuits, _ = _))

/-- Every deed holds what it reports and calls through. -/
def HoldsDeeds (e : Engine) : List (Deed α) → Prop
  | [] => True
  | d :: deeds => e.HoldsDeed d ∧ (e.carry d).HoldsDeeds deeds

instance decidableHoldsDeeds (e : Engine) : (deeds : List (Deed α)) → Decidable (e.HoldsDeeds deeds)
  | [] => isTrue trivial
  | d :: deeds => @instDecidableAnd _ _ _ (decidableHoldsDeeds (e.carry d) deeds)

variable {e : Engine}

/-- Whatever deeds one by one keep is kept by deeds in a row. -/
theorem carryAll_induction {P : Engine → Prop}
    (hstep : ∀ {e : Engine} {d : Deed α}, P e → e.HoldsDeed d → P (e.carry d)) {deeds : List (Deed α)} (h : P e)
    (hheld : e.HoldsDeeds deeds) : P (e.carryAll deeds) := by
  induction deeds generalizing e with
  | nil => exact h
  | cons d deeds ih => exact ih (hstep h hheld.1) hheld.2

/-- Tasks register nothing and replace no settings. -/
theorem roll_settings_run (e : Engine) (items : List (Item α)) :
    (e.run items).2.registry.roll = e.registry.roll ∧ (e.run items).2.registry.settings = e.registry.settings :=
  keeps_run (Registry.kept_of_roll_settings (items.flatMap (·.action.circuits)) e.registry.roll e.registry.settings)
    (fun i hi _ hc => List.mem_flatMap.mpr ⟨i, hi, hc⟩) ⟨rfl, rfl⟩

theorem sound_perform (h : e.registry.Sound) (op : Operation) : (e.perform op).registry.Sound where
  nodup := nodup_roll_perform h.nodup op
  valid := (settings_perform e op).symm ▸ h.valid.lastValid _

theorem sound_carry (h : e.registry.Sound) (d : Deed α) : (e.carry d).registry.Sound := by
  cases d with
  | ask op => exact sound_perform h op
  | cancel => exact h
  | run items =>
    obtain ⟨hroll, hsettings⟩ := e.roll_settings_run items
    exact ⟨hroll.symm ▸ h.nodup, hsettings.symm ▸ h.valid⟩

end Engine
end CallGuard
