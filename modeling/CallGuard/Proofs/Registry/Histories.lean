import CallGuard.Proofs.Registry.Places

/-!
# Histories of a registry

A history is a list of operations, and `Engine.performAll` runs it. `Engine.granted` are the names whose registration it
grants, and `Engine.Obtained` says which handles it hands out: the answers to registrations, and whatever is found by
name at any moment.

* **Invariant**: from a new registry on no name is listed twice (`Engine.nodup_roll_performAll`).
* **Handles** (`Obtained.find?_eq`): all handles that were ever handed out for a name are the one that is found at last.
* **Circuits** (`Engine.getElem?_performAll`): a circuit is what the reports at its place have made of it.
-/

namespace CallGuard

namespace Engine

/-- The engine after a history. -/
def performAll (e : Engine) (ops : List Operation) : Engine := ops.foldl perform e

/-- The names whose registration a history grants, each as often as it does. -/
def granted (e : Engine) : List Operation → List CircuitName
  | [] => []
  | op :: ops => (if (e.answer op).isSome then op.name?.toList else []) ++ (e.perform op).granted ops

/-- In a history the handle `h` is handed out for the name `k`. -/
inductive Obtained (e : Engine) (k : CircuitName) (h : Handle) : List Operation → Prop
  /-- A registration of the name, alone or for a circuit with limits, is answered with the handle. -/
  | answered {ops : List Operation} {op : Operation} (name : op.name? = some k)
    (answer : (e.performAll ops).answer op = some h) : Obtained e k h (ops ++ [op])
  /-- The name is looked up. -/
  | found {ops : List Operation} (found : (e.performAll ops).registry.find? k = some h) : Obtained e k h ops
  /-- It was handed out before. -/
  | earlier {ops : List Operation} (op : Operation) (obtained : Obtained e k h ops) : Obtained e k h (ops ++ [op])

variable {e : Engine} {k : CircuitName} {h : Handle} {ops : List Operation}

/-! ## Runs -/

@[simp] theorem performAll_nil (e : Engine) : e.performAll [] = e := rfl

@[simp] theorem performAll_cons (e : Engine) (op : Operation) (ops : List Operation) :
    e.performAll (op :: ops) = (e.perform op).performAll ops := rfl

@[simp] theorem performAll_append (e : Engine) (ops ops' : List Operation) :
    e.performAll (ops ++ ops') = (e.performAll ops).performAll ops' := List.foldl_append

theorem nodup_roll_performAll (hr : e.registry.roll.Nodup) (ops : List Operation) :
    (e.performAll ops).registry.roll.Nodup := by
  induction ops generalizing e with
  | nil => exact hr
  | cons op ops ih => exact ih (nodup_roll_perform hr op)

/-- A circuit is what the reports at its place have made of it. -/
theorem getElem?_performAll {i : Nat} {c : RegisteredCircuit} (hc : e.registry.circuits[i]? = some c)
    (ops : List Operation) :
    (e.performAll ops).registry.circuits[i]? = some (c.recordAll (ops.filterMap (·.reportAt i))) := by
  induction ops generalizing e c with
  | nil => exact hc
  | cons op ops ih =>
    rw [performAll_cons, ih (getElem?_perform hc op), List.filterMap_cons]
    cases op.reportAt i <;> rfl

/-! ## Registered names -/

/-- One operation registers what it grants, unless that is registered already. -/
theorem mem_roll_perform (e : Engine) (op : Operation) :
    k ∈ (e.perform op).registry.roll ↔ k ∈ e.registry.roll ∨ op.name? = some k ∧ (e.answer op).isSome := by
  cases e.does op with
  | adds name reg ha hf hv hanswer hc =>
    have hname : op.name? = some ⟨reg.scope, name⟩ := by rw [Operation.name?, ha]; rfl
    rw [Registry.roll, hc, Array.toList_push, List.map_append, List.mem_append, List.map_singleton,
      List.mem_singleton, hname, hanswer, Option.some.injEq, Option.isSome_some, and_iff_left rfl]
    exact or_congr Iff.rfl eq_comm
  | records h x hx hanswer hc =>
    rcases e.roll_perform op with heq | ⟨l, -, -, hl, -⟩
    · simp [heq, hanswer]
    · rw [hanswer] at hl
      cases hl
  | leaves hx hanswer hc =>
    rw [Registry.roll_congr hc]
    constructor
    · exact .inl
    · rintro (hk | ⟨hname, hsome⟩)
      · exact hk
      · obtain ⟨h, hh⟩ := Option.isSome_iff_exists.mp hsome
        obtain ⟨l, hl, hf⟩ := hanswer h hh
        rw [hname] at hl
        cases hl
        exact Registry.isSome_find?_iff.mp (by rw [hf]; rfl)

/-- **The registered names** are those that were granted, beside those that were registered before. -/
theorem mem_roll_performAll (e : Engine) (ops : List Operation) :
    k ∈ (e.performAll ops).registry.roll ↔ k ∈ e.registry.roll ∨ k ∈ e.granted ops := by
  induction ops generalizing e with
  | nil => simp [granted]
  | cons op ops ih =>
    rw [performAll_cons, ih, mem_roll_perform, granted, List.mem_append, or_assoc]
    by_cases hs : (e.answer op).isSome <;> simp [hs]

/-! ## Handles -/

/-- What an operation is answered with is found after it. -/
theorem find?_of_answer (hr : e.registry.roll.Nodup) {op : Operation} (hname : op.name? = some k)
    (hanswer : e.answer op = some h) : (e.perform op).registry.find? k = some h := by
  rcases e.does op with ⟨name, reg, ha, hf, hv, hadded, hc⟩ | ⟨h', x, hx, hnone, hc⟩ | ⟨hx, hfound, hc⟩
  · have hk : k = ⟨reg.scope, name⟩ := by
      rw [Operation.name?, ha] at hname
      exact (Option.some.inj hname).symm
    rw [hadded] at hanswer
    cases hanswer
    subst hk
    rw [Registry.find?_eq_some_iff (nodup_roll_perform hr op)]
    refine ⟨rfl, ?_⟩
    rw [Registry.getElem?_roll, hc, Registry.size, Array.getElem?_push_size]
    rfl
  · rw [hnone] at hanswer
    cases hanswer
  · obtain ⟨l, hl, hf⟩ := hfound h hanswer
    rw [hname] at hl
    cases hl
    exact find?_perform hr hf op

/-- **One instance**: whatever handle was handed out for a name is the one that is found at last. -/
theorem Obtained.find?_eq (hr : e.registry.roll.Nodup) (ho : e.Obtained k h ops) :
    (e.performAll ops).registry.find? k = some h := by
  induction ho with
  | @answered ops op hname hanswer =>
    rw [performAll_append]
    exact find?_of_answer (nodup_roll_performAll hr ops) hname hanswer
  | found hf => exact hf
  | @earlier ops op _ ih =>
    rw [performAll_append]
    exact find?_perform (nodup_roll_performAll hr ops) ih op

end Engine

/-! ## New registries -/

/-- An engine whose registry is new. -/
def Engine.start (s : Settings) : Engine :=
  { registry := Registry.note { settings := s } (.registryCreated s.window s.overrides.length) }

theorem Engine.create_start {s : Settings} (hs : s.Valid) : Registry.create s = .ok (Engine.start s).registry := by
  rw [Registry.create, Settings.check_of_valid hs]
  rfl

/-- A new registry has no names. -/
theorem Registry.roll_of_create {s : Settings} {r : Registry} (h : Registry.create s = .ok r) : r.roll = [] := by
  unfold create at h
  split at h
  · cases h
    rfl
  · cases h

end CallGuard
