import CallGuard.Proofs.Registry.Operations

/-!
# The settings in force are valid

A registry is made from valid settings, and only valid ones ever replace them. So the settings in force are the last
valid ones of all that were offered (`Engine.settings_perform`, `Engine.settings_run`), and since validation covers every
window that settings can hand out, a registration can be refused only for a window of its own.

**Main statement** (`Engine.run_dependable`): after any operations the settings in force are the last valid ones, and the
registry is `Dependable`: it refuses a registration exactly if the name is new and the caller asks for a window that
cannot be counted in, and then nothing but the journal changes.
-/

namespace CallGuard

/-! ## The last valid settings -/

namespace Settings

/-- The last valid settings of a list, or else those in force. -/
def lastValid (s : Settings) (offered : List Settings) : Settings := (offered.filter (·.Valid)).getLast?.getD s

theorem lastValid_append (s : Settings) (l l' : List Settings) :
    s.lastValid (l ++ l') = (s.lastValid l).lastValid l' := by
  unfold lastValid
  rw [List.filter_append, List.getLast?_append]
  cases (l'.filter (·.Valid)).getLast? <;> rfl

theorem lastValid_of_valid {s t : Settings} (h : t.Valid) : s.lastValid [t] = t := by
  rw [lastValid, List.filter_cons_of_pos (by simpa using h)]
  rfl

theorem lastValid_of_not_valid {s t : Settings} (h : ¬ t.Valid) : s.lastValid [t] = s := by
  rw [lastValid, List.filter_cons_of_neg (by simpa using h)]
  rfl

theorem Valid.lastValid {s : Settings} (h : s.Valid) (l : List Settings) : (s.lastValid l).Valid := by
  unfold Settings.lastValid
  cases hlast : (l.filter (·.Valid)).getLast? with
  | none => exact h
  | some t =>
    have hmem := List.mem_filter.mp (List.mem_of_getLast? hlast)
    exact of_decide_eq_true hmem.2

end Settings

/-! ## Which operations replace the settings -/

namespace Registry

variable {r : Registry} {s : Settings}

theorem settings_register (r : Registry) (now : Int) (name : String) (reg : Registration) :
    (r.register now name reg).2.settings = r.settings := by
  cases hf : r.find? ⟨reg.scope, name⟩ with
  | some h => rw [register_of_found hf]
  | none =>
    by_cases hv : (r.windowOf name reg).Valid
    · rw [register_of_valid hf hv]
      rfl
    · rw [register_of_not_valid hf hv]
      rfl

theorem settings_reportFallback (r : Registry) (h : Handle) (o : FallbackOutcome) (t : Int) :
    (r.reportFallback h o t).settings = r.settings := by
  unfold reportFallback
  split <;> rfl

theorem apply_of_valid (hs : s.Valid) :
    r.apply s = .ok { r.note (.settingsReplaced s.window) with settings := s } := by
  rw [apply, Settings.check_of_valid hs]

theorem apply_of_not_valid (hs : ¬ s.Valid) : r.apply s = .error (.invalid s.problems) := by
  rw [apply, Settings.check_of_not_valid hs]

theorem settings_applyOrNote (r : Registry) (s : Settings) :
    (r.applyOrNote s).settings = r.settings.lastValid [s] := by
  unfold applyOrNote
  by_cases hs : s.Valid
  · rw [apply_of_valid hs, Settings.lastValid_of_valid hs]
  · rw [apply_of_not_valid hs, Settings.lastValid_of_not_valid hs]
    rfl

theorem settings_foldl_applyOrNote (r : Registry) (l : List Settings) :
    (l.foldl applyOrNote r).settings = r.settings.lastValid l := by
  induction l generalizing r with
  | nil => rfl
  | cons s l ih => rw [List.foldl_cons, ih, settings_applyOrNote, ← Settings.lastValid_append, List.singleton_append]

end Registry

namespace Engine

/-- **One operation** puts the last valid settings that it offers in force, if it offers any. -/
theorem settings_perform (e : Engine) (op : Operation) :
    (e.perform op).registry.settings = e.registry.settings.lastValid op.offers := by
  cases op with
  | register name reg => exact Registry.settings_register ..
  | createCircuit name reg limits =>
    have hsettings := Registry.settings_register e.registry e.instant name reg
    rw [perform, createCircuit]
    split <;> rename_i heq <;> rw [heq] at hsettings <;> exact hsettings
  | report | advance => rfl
  | reportFallback h o t => exact Registry.settings_reportFallback ..
  | apply s =>
    rw [perform, Operation.offers]
    by_cases hs : s.Valid
    · rw [Registry.apply_of_valid hs, Settings.lastValid_of_valid hs]
    · rw [Registry.apply_of_not_valid hs, Settings.lastValid_of_not_valid hs]
  | applyAll updates => exact Registry.settings_foldl_applyOrNote ..

/-- **A run** leaves the last valid settings of all that were offered in force. -/
theorem settings_run (e : Engine) (ops : List Operation) :
    (ops.foldl perform e).registry.settings = e.registry.settings.lastValid (ops.flatMap Operation.offers) := by
  induction ops generalizing e with
  | nil => rfl
  | cons op ops ih => rw [List.foldl_cons, ih, settings_perform, ← Settings.lastValid_append, List.flatMap_cons]

end Engine

/-! ## What a registry with valid settings refuses -/

/-- A registration asks for a window of its own that cannot be counted in. -/
def Registration.AsksBadWindow (reg : Registration) : Prop :=
  ∃ w, reg.window = some w ∧ (w.bucketMs = 0 ∨ w.buckets = 0)

/-- What a registry promises to those who register circuits. -/
structure Registry.Dependable (r : Registry) : Prop where
  /-- A registration is refused exactly if its name is new and its own window cannot be counted in. -/
  refuses : ∀ now name reg, (∃ err, (r.register now name reg).1 = .error err) ↔
    r.find? ⟨reg.scope, name⟩ = none ∧ reg.AsksBadWindow
  /-- The refusal says what is wrong with that window, and only the journal tells of it. -/
  refusal : ∀ now name reg err, (r.register now name reg).1 = .error err →
    ∃ w, reg.window = some w ∧ err = .invalid (w.problems Window.commonScope) ∧
      (r.register now name reg).2 = r.note (.circuitRefused (CircuitName.label ⟨reg.scope, name⟩) err)
  /-- Without a window of its own a registration succeeds, whatever its name and the overrides. -/
  accepts : ∀ now name reg, reg.window = none → ∃ h, (r.register now name reg).1 = .ok h
  /-- The registration of a name that is found succeeds, whatever it asks for, and changes nothing. -/
  found : ∀ now name reg h, r.find? ⟨reg.scope, name⟩ = some h → r.register now name reg = (.ok h, r)

namespace Registry

variable {r : Registry}

theorem windowOf_valid_iff (hs : r.settings.Valid) (name : String) (reg : Registration) :
    (r.windowOf name reg).Valid ↔ ¬ reg.AsksBadWindow := by
  unfold windowOf Registration.AsksBadWindow
  cases hw : reg.window with
  | none => simpa using hs.windowFor name
  | some w => simp [Window.Valid]

/-- What becomes of a registration under valid settings. -/
theorem register_cases (hs : r.settings.Valid) (now : Int) (name : String) (reg : Registration) :
    (∃ h, r.find? ⟨reg.scope, name⟩ = some h ∧ r.register now name reg = (.ok h, r)) ∨
    (r.find? ⟨reg.scope, name⟩ = none ∧ ¬ reg.AsksBadWindow ∧ ∃ h, (r.register now name reg).1 = .ok h) ∨
    (r.find? ⟨reg.scope, name⟩ = none ∧ reg.AsksBadWindow ∧ ∃ w, reg.window = some w ∧
      r.register now name reg = (.error (.invalid (w.problems Window.commonScope)),
        r.note (.circuitRefused (CircuitName.label ⟨reg.scope, name⟩) (.invalid (w.problems Window.commonScope))))) := by
  cases hf : r.find? ⟨reg.scope, name⟩ with
  | some h => exact .inl ⟨h, rfl, register_of_found hf⟩
  | none =>
    by_cases hbad : reg.AsksBadWindow
    · obtain ⟨w, hw, -⟩ := id hbad
      have hv : ¬ (r.windowOf name reg).Valid := fun h => (windowOf_valid_iff hs name reg).mp h hbad
      have hwindow : r.windowOf name reg = w := by rw [windowOf, hw]; rfl
      refine .inr (.inr ⟨rfl, hbad, w, hw, ?_⟩)
      rw [register_of_not_valid hf hv, hwindow]
    · have hv := (windowOf_valid_iff hs name reg).mpr hbad
      exact .inr (.inl ⟨rfl, hbad, _, congrArg Prod.fst (register_of_valid hf hv)⟩)

theorem dependable_of_valid (hs : r.settings.Valid) : r.Dependable := by
  constructor
  · intro now name reg
    rcases register_cases hs now name reg with ⟨h, hf, heq⟩ | ⟨hf, hgood, h, heq⟩ | ⟨hf, hbad, w, -, heq⟩
    · simp [hf, heq]
    · simp [hgood, heq]
    · simp [hf, hbad, heq]
  · intro now name reg err herr
    rcases register_cases hs now name reg with ⟨h, -, heq⟩ | ⟨-, -, h, heq⟩ | ⟨-, -, w, hw, heq⟩
    · rw [heq] at herr
      cases herr
    · rw [heq] at herr
      cases herr
    · rw [heq] at herr ⊢
      cases herr
      exact ⟨w, hw, rfl, rfl⟩
  · intro now name reg hnone
    rcases register_cases hs now name reg with ⟨h, -, heq⟩ | ⟨-, -, h, heq⟩ | ⟨-, ⟨w, hw, -⟩, -⟩
    · exact ⟨h, by rw [heq]⟩
    · exact ⟨h, heq⟩
    · rw [hnone] at hw
      cases hw
  · intro now name reg h hf
    exact register_of_found hf

end Registry

theorem Registry.create_eq_ok {s : Settings} {r : Registry} (h : Registry.create s = .ok r) :
    s.Valid ∧ r.settings = s := by
  unfold create at h
  by_cases hs : s.Valid
  · rw [Settings.check_of_valid hs] at h
    cases h
    exact ⟨hs, rfl⟩
  · rw [Settings.check_of_not_valid hs] at h
    cases h

/-- **The settings in force are the last valid ones that were offered**, from the making of the registry on, and so a
registration is refused only for a bad window of its own. -/
theorem Engine.run_dependable {s : Settings} {e : Engine} (h : Registry.create s = .ok e.registry)
    (ops : List Operation) :
    ((s :: ops.flatMap Operation.offers).filter (·.Valid)).getLast? =
        some (ops.foldl Engine.perform e).registry.settings ∧
      (ops.foldl Engine.perform e).registry.settings.Valid ∧ (ops.foldl Engine.perform e).registry.Dependable := by
  obtain ⟨hs, hsettings⟩ := Registry.create_eq_ok h
  have hrun := e.settings_run ops
  rw [hsettings] at hrun
  have hvalid : (ops.foldl Engine.perform e).registry.settings.Valid := hrun ▸ hs.lastValid _
  refine ⟨?_, hvalid, Registry.dependable_of_valid hvalid⟩
  rw [hrun, Settings.lastValid, List.filter_cons_of_pos (by simpa using hs), List.getLast?_cons]

namespace Update

/-- An engine whose registry is new. -/
def engine : Engine := { registry := Registry.note { settings := {} } (.registryCreated {} 0) }

/-- Settings without buckets, settings with three, settings of an unknown log level, and a bad registration. -/
def operations : List Operation :=
  [.apply { window := { buckets := 0 } },
    .applyAll [{ window := { buckets := 3 } }, { logging := { level := "loud" } }],
    .register "db" { window := some { bucketMs := 0 } }]

end Update

/-- Of three settings offered to a new registry, the one that is valid is in force. -/
theorem Engine.run_dependable_update : Registry.create {} = .ok Update.engine.registry ∧
    (Update.operations.foldl Engine.perform Update.engine).registry.settings = { window := { buckets := 3 } } ∧
      (Update.operations.foldl Engine.perform Update.engine).registry.Dependable := by
  have hcreate : Registry.create {} = .ok Update.engine.registry := by
    rw [Registry.create, Settings.check_of_valid (by decide +kernel)]
    rfl
  obtain ⟨hlast, -, hdependable⟩ := Engine.run_dependable hcreate Update.operations
  have hoffered : ((({} : Settings) :: Update.operations.flatMap Operation.offers).filter (·.Valid)).getLast? =
      some { window := { buckets := 3 } } := by decide +kernel
  exact ⟨hcreate, Option.some.inj (hlast.symm.trans hoffered), hdependable⟩

end CallGuard
