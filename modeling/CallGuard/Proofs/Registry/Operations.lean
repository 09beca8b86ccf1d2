import CallGuard.Execution.Engine

/-!
# Operations on a registry

`Operation` lists what can be asked of the registry of an engine: to register a circuit, alone or with limits, to count
the end of a call or of a fallback, to replace the settings, and, for the instants of it all, to let time pass.
`Operation.offers` are the settings that an operation offers to the registry. A registration ends in one of three ways
(`Registry.register_of_found`, `Registry.register_of_valid`, `Registry.register_of_not_valid`).
-/

namespace CallGuard

/-- Something that is asked of the registry of an engine. -/
inductive Operation
  | register (name : String) (reg : Registration)
  | createCircuit (name : String) (reg : Registration) (limits : Limits)
  | report (h : Handle) (outcome : CallOutcome) (t : Int)
  | reportFallback (h : Handle) (outcome : FallbackOutcome) (t : Int)
  | apply (settings : Settings)
  | applyAll (updates : List Settings)
  | advance (ms : Nat)

/-- The settings that an operation offers. -/
def Operation.offers : Operation → List Settings
  | .apply s => [s]
  | .applyAll updates => updates
  | _ => []

/-- The engine after an operation; refused settings leave it as it is. -/
def Engine.perform (e : Engine) : Operation → Engine
  | .register name reg => { e with registry := (e.registry.register e.instant name reg).2 }
  | .createCircuit name reg limits => (e.createCircuit name reg limits).2
  | .report h o t => { e with registry := e.registry.report h o t }
  | .reportFallback h o t => { e with registry := e.registry.reportFallback h o t }
  | .apply s =>
    match e.registry.apply s with
    | .ok r => { e with registry := r }
    | .error _ => e
  | .applyAll updates => { e with registry := e.registry.applyAll updates }
  | .advance ms => e.advance ms

/-! ## Settings without problems -/

namespace Settings

variable {s : Settings}

theorem check_of_valid (h : s.Valid) : s.check = .ok s := by
  unfold check
  rw [show s.problems = [] from h]

theorem check_of_not_valid (h : ¬ s.Valid) : s.check = .error (.invalid s.problems) := by
  unfold check
  cases hp : s.problems with
  | nil => exact absurd hp h
  | cons p ps => rfl

/-- **Validation covers every window that can be handed out**, whatever the name of the circuit. -/
theorem Valid.windowFor (h : s.Valid) (name : String) : (s.windowFor name).Valid := by
  obtain ⟨h, -⟩ := List.append_eq_nil_iff.mp h
  obtain ⟨hcommon, hoverrides⟩ := List.append_eq_nil_iff.mp h
  unfold Settings.windowFor
  cases ho : (s.override? name).bind (·.window) with
  | none => exact Window.problems_eq_nil_iff.mp hcommon
  | some w =>
    obtain ⟨o, hlookup, hw⟩ := Option.bind_eq_some_iff.mp ho
    have hmem : (name, o) ∈ byName s.overrides := by
      obtain ⟨l, l', heq, -⟩ := List.lookup_eq_some_iff.mp hlookup
      rw [byName, List.mem_mergeSort, heq]
      exact List.mem_append_right _ List.mem_cons_self
    have hnone := List.flatMap_eq_nil_iff.mp hoverrides _ hmem
    simp only [Override.problems, hw] at hnone
    exact Window.problems_eq_nil_iff.mp hnone

end Settings

/-! ## Registering -/

namespace Registry

variable {r : Registry} {now : Int} {name : String} {reg : Registration} {h : Handle}

theorem register_of_found (hf : r.find? ⟨reg.scope, name⟩ = some h) : r.register now name reg = (.ok h, r) := by
  simp only [register, hf]

theorem register_of_valid (hf : r.find? ⟨reg.scope, name⟩ = none) (hv : (r.windowOf name reg).Valid) :
    r.register now name reg = (.ok ⟨⟨reg.scope, name⟩, r.size⟩,
      r.add (.start now ⟨reg.scope, name⟩ (r.windowOf name reg) hv (r.fallbackOf name reg))) := by
  simp only [register, hf, RegisteredCircuit.create_of_valid hv]

theorem register_of_not_valid (hf : r.find? ⟨reg.scope, name⟩ = none) (hv : ¬ (r.windowOf name reg).Valid) :
    r.register now name reg = (.error (.invalid ((r.windowOf name reg).problems Window.commonScope)),
      r.note (.circuitRefused (CircuitName.label ⟨reg.scope, name⟩)
        (.invalid ((r.windowOf name reg).problems Window.commonScope)))) := by
  simp only [register, hf, RegisteredCircuit.create_of_not_valid hv]

end Registry
end CallGuard
