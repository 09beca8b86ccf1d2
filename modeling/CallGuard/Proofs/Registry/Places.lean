import Mathlib.Data.List.Nodup
import CallGuard.Proofs.Registry.Operations

/-!
# Places in a registry

`Registry.roll` lists the names of the circuits in the order of their registration. As long as no name is listed twice,
to find a name is to find its one place (`Registry.find?_eq_some_iff`). `Engine.Does` says once what an operation can do
to the circuits: it adds a new one at the end, counts one report in one place, or leaves them all alone
(`Engine.does`). Whatever it does, names stay where they are (`Engine.roll_perform`), and a circuit changes only by what
is reported at its place (`Engine.getElem?_perform`).
-/

namespace CallGuard

/-! ## Reports -/

/-- What is reported of a circuit. -/
inductive Report
  | call (outcome : CallOutcome) (instant : Int)
  | fallback (outcome : FallbackOutcome) (instant : Int)
deriving DecidableEq, Repr

namespace RegisteredCircuit

/-- Count what is reported; a fallback is passed over if the circuit does not count its fallbacks. -/
def record (c : RegisteredCircuit) : Report → RegisteredCircuit
  | .call o t => { c with calls := c.calls.record o.category t }
  | .fallback o t => { c with fallbacks := c.fallbacks.map (·.record o.category t) }

/-- Count reports one after the other. -/
def recordAll (c : RegisteredCircuit) (reports : List Report) : RegisteredCircuit := reports.foldl record c

@[simp] theorem recordAll_cons (c : RegisteredCircuit) (x : Report) (reports : List Report) :
    c.recordAll (x :: reports) = (c.record x).recordAll reports := rfl

theorem recordAll_append (c : RegisteredCircuit) (reports reports' : List Report) :
    c.recordAll (reports ++ reports') = (c.recordAll reports).recordAll reports' := List.foldl_append

@[simp] theorem name_record (c : RegisteredCircuit) (x : Report) : (c.record x).name = c.name := by cases x <;> rfl

theorem record_fallback_of_none {c : RegisteredCircuit} (h : c.fallbacks = none) (o : FallbackOutcome) (t : Int) :
    c.record (.fallback o t) = c := by
  obtain ⟨name, window, calls, fallbacks⟩ := c
  cases h
  rfl

end RegisteredCircuit

/-! ## Names and their places -/

namespace Registry

variable {r : Registry} {k : CircuitName} {h : Handle}

/-- The names of the circuits in the order of their registration. -/
def roll (r : Registry) : List CircuitName := r.circuits.toList.map (·.name)

@[simp] theorem length_roll (r : Registry) : r.roll.length = r.size := by simp [roll, size]

theorem getElem?_roll (r : Registry) (i : Nat) : r.roll[i]? = r.circuits[i]?.map (·.name) := by simp [roll]

theorem roll_congr {r' : Registry} (h : r'.circuits = r.circuits) : r'.roll = r.roll := by rw [roll, roll, h]

/-- A report leaves the names. -/
theorem roll_of_record {r' : Registry} {i : Nat} {x : Report} (h : r'.circuits = r.circuits.modify i (·.record x)) :
    r'.roll = r.roll := by
  refine List.ext_getElem? fun j => ?_
  rw [getElem?_roll, getElem?_roll, h, Array.getElem?_modify]
  split
  · rw [Option.map_map]
    congr 1
    funext c
    exact c.name_record x
  · rfl

theorem find?_eq_roll (r : Registry) (k : CircuitName) :
    r.find? k = (r.roll.findIdx? (· == k)).map fun i => ⟨k, i⟩ := by
  rw [find?, roll, List.findIdx?_map, ← List.findIdx?_toArray, Array.toArray_toList]
  rfl

theorem find?_congr {r' : Registry} (h : r'.roll = r.roll) (k : CircuitName) : r'.find? k = r.find? k := by
  rw [find?_eq_roll, find?_eq_roll, h]

theorem find?_eq_none_iff : r.find? k = none ↔ k ∉ r.roll := by
  rw [find?_eq_roll, Option.map_eq_none_iff, List.findIdx?_eq_none_iff]
  constructor
  · intro h hk
    exact absurd rfl (beq_eq_false_iff_ne.mp (h k hk))
  · intro h l hl
    exact beq_eq_false_iff_ne.mpr fun heq => h (heq ▸ hl)

theorem isSome_find?_iff : (r.find? k).isSome ↔ k ∈ r.roll := by
  rw [Option.isSome_iff_ne_none, ne_eq, find?_eq_none_iff, not_not]

/-- If no name is listed twice, a handle of `k` is found exactly if it leads to the place of `k`. -/
theorem find?_eq_some_iff (hr : r.roll.Nodup) : r.find? k = some h ↔ h.name = k ∧ r.roll[h.index]? = some k := by
  rw [find?_eq_roll, Option.map_eq_some_iff]
  constructor
  · rintro ⟨i, hi, rfl⟩
    obtain ⟨hlt, hk, -⟩ := List.findIdx?_eq_some_iff_getElem.mp hi
    exact ⟨rfl, List.getElem?_eq_some_iff.mpr ⟨hlt, eq_of_beq hk⟩⟩
  · rintro ⟨rfl, hk⟩
    obtain ⟨hlt, hk⟩ := List.getElem?_eq_some_iff.mp hk
    refine ⟨h.index, List.findIdx?_eq_some_iff_getElem.mpr ⟨hlt, beq_iff_eq.mpr hk, ?_⟩, rfl⟩
    intro j hj hjk
    have hsame := (List.Nodup.getElem_inj_iff hr).mp ((eq_of_beq hjk).trans hk.symm)
    omega

/-- What is found is registered. -/
theorem exists_circuit_of_find? (hr : r.roll.Nodup) (hf : r.find? k = some h) :
    ∃ c, r.circuit? h = some c ∧ c.name = k := by
  have hk := ((find?_eq_some_iff hr).mp hf).2
  rw [getElem?_roll, Option.map_eq_some_iff] at hk
  exact hk

/-- A report of a fallback counts at the place of its handle, which is no change where fallbacks are not counted. -/
theorem circuits_reportFallback (r : Registry) (h : Handle) (o : FallbackOutcome) (t : Int) :
    (r.reportFallback h o t).circuits = r.circuits.modify h.index (·.record (.fallback o t)) := by
  unfold reportFallback
  by_cases htrack : r.tracksFallback h
  · rw [if_pos htrack]
    rfl
  · rw [if_neg htrack]
    refine Array.ext_getElem? fun i => ?_
    change r.circuits[i]? = _
    rw [Array.getElem?_modify]
    split
    · rename_i hi
      subst hi
      rw [tracksFallback, circuit?] at htrack
      cases hc : r.circuits[h.index]? with
      | none => rfl
      | some c =>
        have hnone : c.fallbacks = none := by simpa [hc] using htrack
        rw [Option.map_some, RegisteredCircuit.record_fallback_of_none hnone]
    · rfl

end Registry

/-! ## What an operation asks, answers and reports -/

namespace Operation

/-- The registration that an operation asks for: alone, or for a circuit with limits. -/
def asks : Operation → Option (String × Registration)
  | .register name reg | .createCircuit name reg _ => some (name, reg)
  | _ => none

/-- The name that an operation asks to register. -/
def name? (op : Operation) : Option CircuitName := op.asks.map fun (name, reg) => ⟨reg.scope, name⟩

/-- The report that an operation makes, and the handle through which it makes it. -/
def reports : Operation → Option (Handle × Report)
  | .report h o t => some (h, .call o t)
  | .reportFallback h o t => some (h, .fallback o t)
  | _ => none

/-- What an operation reports at the place `i`. -/
def reportAt (i : Nat) (op : Operation) : Option Report :=
  op.reports.bind fun (h, x) => if h.index = i then some x else none

theorem reportAt_of_none {op : Operation} (h : op.reports = none) (i : Nat) : op.reportAt i = none := by
  rw [reportAt, h, Option.bind_none]

theorem reportAt_of_some {op : Operation} {h : Handle} {x : Report} (hx : op.reports = some (h, x)) (i : Nat) :
    op.reportAt i = if h.index = i then some x else none := by
  rw [reportAt, hx, Option.bind_some]

theorem reports_of_asks {op : Operation} {a : String × Registration} (h : op.asks = some a) : op.reports = none := by
  cases op <;> first | rfl | cases h

end Operation

namespace Engine

/-- The handle that an operation is answered with, if it asks for one and is not refused. -/
def answer (e : Engine) : Operation → Option Handle
  | .register name reg => (e.registry.register e.instant name reg).1.toOption
  | .createCircuit name reg limits => (e.createCircuit name reg limits).1.toOption.map (·.handle)
  | _ => none

variable {e : Engine} {op : Operation} {name : String} {reg : Registration} {h : Handle} {x : Report}

/-- A circuit with limits is registered as one without is. -/
theorem perform_of_asks (ha : op.asks = some (name, reg)) :
    (e.perform op).registry = (e.registry.register e.instant name reg).2 ∧
      e.answer op = (e.registry.register e.instant name reg).1.toOption := by
  cases op with
  | register name' reg' =>
    cases ha
    exact ⟨rfl, rfl⟩
  | createCircuit name' reg' limits =>
    cases ha
    rw [perform, answer, createCircuit]
    split <;> rename_i heq <;> rw [heq] <;> exact ⟨rfl, rfl⟩
  | _ => cases ha

theorem answer_of_asks_none (ha : op.asks = none) : e.answer op = none := by
  cases op <;> first | rfl | cases ha

theorem circuits_perform_of_reports (hx : op.reports = some (h, x)) :
    (e.perform op).registry.circuits = e.registry.circuits.modify h.index (·.record x) := by
  cases op with
  | report =>
    cases hx
    rfl
  | reportFallback =>
    cases hx
    exact Registry.circuits_reportFallback ..
  | _ => cases hx

theorem circuits_applyOrNote (r : Registry) (s : Settings) : (r.applyOrNote s).circuits = r.circuits := by
  unfold Registry.applyOrNote Registry.apply
  cases s.check <;> rfl

theorem circuits_foldl_applyOrNote (r : Registry) (l : List Settings) :
    (l.foldl Registry.applyOrNote r).circuits = r.circuits := by
  induction l generalizing r with
  | nil => rfl
  | cons s l ih => rw [List.foldl_cons, ih, circuits_applyOrNote]

theorem circuits_perform_of_quiet (ha : op.asks = none) (hx : op.reports = none) :
    (e.perform op).registry.circuits = e.registry.circuits := by
  cases op with
  | register | createCircuit => cases ha
  | report | reportFallback => cases hx
  | apply s =>
    rw [perform, Registry.apply]
    cases s.check <;> rfl
  | applyAll updates => exact circuits_foldl_applyOrNote ..
  | advance => rfl

/-! ## What an operation does to the circuits -/

/-- What an operation does to the circuits of an engine. -/
inductive Does (e : Engine) (op : Operation) : Prop
  /-- It registers a new circuit, which is put last. -/
  | adds (name : String) (reg : Registration) (asks : op.asks = some (name, reg))
    (fresh : e.registry.find? ⟨reg.scope, name⟩ = none) (valid : (e.registry.windowOf name reg).Valid)
    (answer : e.answer op = some ⟨⟨reg.scope, name⟩, e.registry.size⟩)
    (circuits : (e.perform op).registry.circuits = e.registry.circuits.push
      (.start e.instant ⟨reg.scope, name⟩ (e.registry.windowOf name reg) valid (e.registry.fallbackOf name reg)))
  /-- It counts a report. -/
  | records (h : Handle) (x : Report) (reports : op.reports = some (h, x)) (answer : e.answer op = none)
    (circuits : (e.perform op).registry.circuits = e.registry.circuits.modify h.index (·.record x))
  /-- It leaves them alone; if it is answered, then with what is found already. -/
  | leaves (reports : op.reports = none)
    (answer : ∀ h, e.answer op = some h → ∃ k, op.name? = some k ∧ e.registry.find? k = some h)
    (circuits : (e.perform op).registry.circuits = e.registry.circuits)

/-- **Every operation** adds a circuit, counts a report or leaves the circuits alone. -/
theorem does (e : Engine) (op : Operation) : e.Does op := by
  cases ha : op.asks with
  | none =>
    have hanswer : e.answer op = none := answer_of_asks_none ha
    cases hx : op.reports with
    | none => exact .leaves hx (by rw [hanswer]; intro h hh; cases hh) (circuits_perform_of_quiet ha hx)
    | some p => exact .records p.1 p.2 hx hanswer (circuits_perform_of_reports hx)
  | some a =>
    obtain ⟨name, reg⟩ := a
    have hx := Operation.reports_of_asks ha
    obtain ⟨hregistry, hanswer⟩ := perform_of_asks (e := e) ha
    cases hf : e.registry.find? ⟨reg.scope, name⟩ with
    | some h =>
      rw [Registry.register_of_found hf] at hregistry hanswer
      refine .leaves hx (fun h' hh => ⟨⟨reg.scope, name⟩, by rw [Operation.name?, ha]; rfl, ?_⟩) (by rw [hregistry])
      rw [hf]
      exact hanswer.symm.trans hh
    | none =>
      by_cases hv : (e.registry.windowOf name reg).Valid
      · rw [Registry.register_of_valid hf hv] at hregistry hanswer
        exact .adds name reg ha hf hv hanswer (by rw [hregistry]; rfl)
      · rw [Registry.register_of_not_valid hf hv] at hregistry hanswer
        refine .leaves hx (fun h' hh => ?_) (by rw [hregistry]; rfl)
        cases hanswer.symm.trans hh

/-! ## What stays -/

/-- Names stay where they are; a new one is put last. -/
theorem roll_perform (e : Engine) (op : Operation) :
    (e.perform op).registry.roll = e.registry.roll ∨
      ∃ k, op.name? = some k ∧ e.registry.find? k = none ∧ e.answer op = some ⟨k, e.registry.size⟩ ∧
        (e.perform op).registry.roll = e.registry.roll ++ [k] := by
  cases e.does op with
  | adds name reg ha hf hv hanswer hc =>
    refine .inr ⟨⟨reg.scope, name⟩, by rw [Operation.name?, ha]; rfl, hf, hanswer, ?_⟩
    rw [Registry.roll, hc, Array.toList_push, List.map_append]
    rfl
  | records h x hx hanswer hc => exact .inl (Registry.roll_of_record hc)
  | leaves hx hanswer hc => exact .inl (Registry.roll_congr hc)

theorem nodup_roll_perform (hr : e.registry.roll.Nodup) (op : Operation) : (e.perform op).registry.roll.Nodup := by
  rcases e.roll_perform op with heq | ⟨k, -, hf, -, heq⟩
  · rwa [heq]
  · rw [heq, ← List.concat_eq_append]
    exact hr.concat (Registry.find?_eq_none_iff.mp hf)

/-- What is found stays found, in the same place. -/
theorem find?_perform (hr : e.registry.roll.Nodup) {k : CircuitName} (hf : e.registry.find? k = some h)
    (op : Operation) : (e.perform op).registry.find? k = some h := by
  rw [Registry.find?_eq_some_iff (nodup_roll_perform hr op)]
  obtain ⟨hname, hplace⟩ := (Registry.find?_eq_some_iff hr).mp hf
  refine ⟨hname, ?_⟩
  rcases e.roll_perform op with heq | ⟨k, -, -, -, heq⟩
  · rwa [heq]
  · have hlt := (List.getElem?_eq_some_iff.mp hplace).1
    rwa [heq, List.getElem?_append_left hlt]

/-- A circuit changes only by what is reported at its place. -/
theorem getElem?_perform {i : Nat} {c : RegisteredCircuit} (hc : e.registry.circuits[i]? = some c) (op : Operation) :
    (e.perform op).registry.circuits[i]? = some (c.recordAll (op.reportAt i).toList) := by
  cases e.does op with
  | adds name reg ha hf hv hanswer heq =>
    have hlt := (Array.getElem?_eq_some_iff.mp hc).1
    rw [heq, Array.getElem?_push_lt hlt, Operation.reportAt_of_none (Operation.reports_of_asks ha)]
    exact (Array.getElem?_eq_getElem hlt).symm.trans hc
  | records h x hx hanswer heq =>
    rw [heq, Array.getElem?_modify, Operation.reportAt_of_some hx, hc]
    split <;> rfl
  | leaves hx hanswer heq =>
    rw [heq, hc, Operation.reportAt_of_none hx]
    rfl

end Engine
end CallGuard
