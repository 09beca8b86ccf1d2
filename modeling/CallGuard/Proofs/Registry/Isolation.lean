import CallGuard.Proofs.Registry.Histories
import CallGuard.Proofs.Registry.Validity
import CallGuard.Proofs.Stats.Independence

/-!
# Circuits share nothing

What is reported through any handle of a name reaches the one circuit of that name (`Operation.reportOf`), and nothing
else does. A history is `Proper` if it reports only through handles that were handed out before.

* **Replay** (`Engine.Follows.performAll`): a circuit is a lone circuit of its window and origin that was fed the reports
  of its name, whatever else went on.
* **Two histories** (`Engine.Alike.agree`): two histories that differ only in what is foreign to a name leave
  the same circuit of that name. Foreign are the registrations of other names, refused registrations, the reports of
  other circuits, and, once the name is registered, whatever reports nothing.

**Main statement** (`Engine.run_isolated`): every proper history of a new registry keeps every name isolated.
-/

namespace CallGuard

/-! ## The reports of one name -/

/-- The outcome and the instant of a call. -/
def Report.call? : Report → Option (CallOutcome × Int)
  | .call o t => some (o, t)
  | .fallback .. => none

/-- The outcome and the instant of a fallback. -/
def Report.fallback? : Report → Option (FallbackOutcome × Int)
  | .call .. => none
  | .fallback o t => some (o, t)

/-- What an operation reports through a handle of `k`. -/
def Operation.reportOf (k : CircuitName) (op : Operation) : Option Report :=
  op.reports.bind fun (h, x) => if h.name = k then some x else none

theorem Operation.reportOf_of_none {op : Operation} (h : op.reports = none) (k : CircuitName) :
    op.reportOf k = none := by
  rw [reportOf, h, Option.bind_none]

theorem Operation.reportOf_of_some {op : Operation} {h : Handle} {x : Report} (hx : op.reports = some (h, x))
    (k : CircuitName) : op.reportOf k = if h.name = k then some x else none := by
  rw [reportOf, hx, Option.bind_some]

theorem Operation.reports_of_name? {op : Operation} {k : CircuitName} (h : op.name? = some k) : op.reports = none := by
  obtain ⟨a, ha, -⟩ := Option.map_eq_some_iff.mp h
  exact reports_of_asks ha

namespace RegisteredCircuit

/-- The counters of calls see the calls. -/
theorem calls_recordAll (c : RegisteredCircuit) (xs : List Report) :
    (c.recordAll xs).calls = c.calls.run CallOutcome.classifier (xs.filterMap Report.call?) := by
  induction xs generalizing c with
  | nil => rfl
  | cons x xs ih =>
    rw [recordAll_cons, ih, List.filterMap_cons]
    cases x <;> rfl

/-- The counters of fallbacks see the fallbacks. -/
theorem fallbacks_recordAll (c : RegisteredCircuit) (xs : List Report) :
    (c.recordAll xs).fallbacks =
      c.fallbacks.map (·.run FallbackOutcome.classifier (xs.filterMap Report.fallback?)) := by
  induction xs generalizing c with
  | nil => exact Option.map_id'.symm
  | cons x xs ih =>
    rw [recordAll_cons, ih, List.filterMap_cons]
    cases x with
    | call o t => rfl
    | fallback o t =>
      rw [record, Option.map_map]
      rfl

theorem window_recordAll (c : RegisteredCircuit) (xs : List Report) : (c.recordAll xs).window = c.window := by
  induction xs generalizing c with
  | nil => rfl
  | cons x xs ih =>
    rw [recordAll_cons, ih]
    cases x <;> rfl

/-- A circuit of the window `w` whose counters are those of lone families that start at `origin` and see the calls and
the fallbacks among the reports. -/
structure Replays (c : RegisteredCircuit) (w : Window) (origin : Int) (xs : List Report) : Prop where
  window_eq : c.window = w
  valid : w.Valid
  calls_eq : c.calls = (Stats.start w valid origin).run CallOutcome.classifier (xs.filterMap Report.call?)
  fallbacks_eq : ∀ f ∈ c.fallbacks,
    f = (Stats.start w valid origin).run FallbackOutcome.classifier (xs.filterMap Report.fallback?)

/-- A circuit that was fed reports shows nothing else. -/
theorem replays_start (k : CircuitName) {w : Window} (valid : w.Valid) (origin : Int) (track : Bool)
    (xs : List Report) : ((start origin k w valid track).recordAll xs).Replays w origin xs where
  window_eq := window_recordAll _ xs
  valid := valid
  calls_eq := calls_recordAll _ xs
  fallbacks_eq := by
    intro f hf
    rw [fallbacks_recordAll] at hf
    obtain ⟨f, hstart, rfl⟩ := Option.map_eq_some_iff.mp hf
    unfold start at hstart
    split at hstart
    · cases hstart
      rfl
    · cases hstart

end RegisteredCircuit

/-! ## The circuit of a name -/

namespace Registry

variable {r : Registry} {k : CircuitName} {c : RegisteredCircuit}

/-- The circuit of a name. -/
def circuitNamed? (r : Registry) (k : CircuitName) : Option RegisteredCircuit := (r.find? k).bind r.circuit?

theorem circuitNamed?_of_find? {h : Handle} (hf : r.find? k = some h) : r.circuitNamed? k = r.circuit? h := by
  rw [circuitNamed?, hf, Option.bind_some]

theorem circuitNamed?_eq_none_iff (hr : r.roll.Nodup) : r.circuitNamed? k = none ↔ k ∉ r.roll := by
  rw [← find?_eq_none_iff]
  cases hf : r.find? k with
  | none => simp [circuitNamed?, hf]
  | some h =>
    obtain ⟨c, hc, -⟩ := exists_circuit_of_find? hr hf
    simp [circuitNamed?_of_find? hf, hc]

end Registry

namespace Engine

variable {e e' : Engine} {k : CircuitName} {h : Handle} {c : RegisteredCircuit} {op op' : Operation}
  {ops ops' : List Operation}

/-! ## Reports through handles -/

/-- Every report of a history is made through a handle that was handed out before. -/
def Proper (e : Engine) (ops : List Operation) : Prop :=
  ∀ before op later h x, ops = before ++ op :: later → op.reports = some (h, x) → ∃ k, e.Obtained k h before

/-- Whatever an operation reports is reported through the handle that is found for its name. -/
def Holds (e : Engine) (op : Operation) : Prop := ∀ p ∈ op.reports, e.registry.find? p.1.name = some p.1

instance (e : Engine) (op : Operation) : Decidable (e.Holds op) :=
  inferInstanceAs (Decidable (∀ p ∈ op.reports, e.registry.find? p.1.name = some p.1))

/-- Every operation of a history holds what it reports through. -/
def HoldsAll (e : Engine) : List Operation → Prop
  | [] => True
  | op :: ops => e.Holds op ∧ (e.perform op).HoldsAll ops

instance decidableHoldsAll (e : Engine) : (ops : List Operation) → Decidable (e.HoldsAll ops)
  | [] => isTrue trivial
  | op :: ops => @instDecidableAnd _ _ _ (decidableHoldsAll (e.perform op) ops)

theorem holdsAll_iff : e.HoldsAll ops ↔
    ∀ before op later, ops = before ++ op :: later → (e.performAll before).Holds op := by
  induction ops generalizing e with
  | nil => simp [HoldsAll]
  | cons op ops ih =>
    rw [HoldsAll, ih]
    constructor
    · rintro ⟨hhead, htail⟩ before op' later hops
      cases before with
      | nil =>
        cases hops
        exact hhead
      | cons op₁ before =>
        cases hops
        exact htail before op' later rfl
    · intro h
      exact ⟨h [] op ops rfl, fun before op' later hops => h (op :: before) op' later (by rw [hops]; rfl)⟩

/-- **What was handed out** for any name is what is found for it. -/
theorem proper_iff_holdsAll (hr : e.registry.roll.Nodup) : e.Proper ops ↔ e.HoldsAll ops := by
  rw [holdsAll_iff]
  constructor
  · rintro h before op later hops ⟨h', x⟩ hx
    obtain ⟨k, ho⟩ := h before op later h' x hops hx
    have hf := ho.find?_eq hr
    obtain rfl := ((Registry.find?_eq_some_iff (nodup_roll_performAll hr before)).mp hf).1
    exact hf
  · intro h before op later h' x hops hx
    exact ⟨h'.name, .found (h before op later hops (h', x) hx)⟩

/-- The place of a found name sees the reports of that name and no others. -/
theorem Holds.reportAt_eq (hr : e.registry.roll.Nodup) (hold : e.Holds op) (hf : e.registry.find? k = some h) :
    op.reportAt h.index = op.reportOf k := by
  cases hx : op.reports with
  | none => rw [Operation.reportAt_of_none hx, Operation.reportOf_of_none hx]
  | some p =>
    obtain ⟨h', x⟩ := p
    have hf' : e.registry.find? h'.name = some h' := hold (h', x) hx
    -- no name has two places, and no place has two names
    have hsame : h'.index = h.index ↔ h'.name = k := by
      constructor
      · intro hindex
        have hplace' := ((Registry.find?_eq_some_iff hr).mp hf').2
        rw [hindex, ((Registry.find?_eq_some_iff hr).mp hf).2] at hplace'
        exact (Option.some.inj hplace').symm
      · rintro rfl
        rw [Option.some.inj (hf'.symm.trans hf)]
    rw [Operation.reportAt_of_some hx, Operation.reportOf_of_some hx]
    simp only [hsame]

/-! ## What an operation does to the circuit of a name -/

/-- A circuit that is registered counts what is reported of it. -/
theorem circuitNamed?_perform_of_some (hr : e.registry.roll.Nodup) (hold : e.Holds op)
    (hc : e.registry.circuitNamed? k = some c) :
    (e.perform op).registry.circuitNamed? k = some (c.recordAll (op.reportOf k).toList) := by
  obtain ⟨h, hf, hc⟩ := Option.bind_eq_some_iff.mp hc
  rw [Registry.circuitNamed?_of_find? (find?_perform hr hf op), ← hold.reportAt_eq hr hf]
  exact getElem?_perform hc op

/-- A circuit that is not registered has no reports. -/
theorem Holds.reportOf_eq_none (hold : e.Holds op) (hk : k ∉ e.registry.roll) : op.reportOf k = none := by
  cases hx : op.reports with
  | none => exact Operation.reportOf_of_none hx k
  | some p =>
    obtain ⟨h, x⟩ := p
    rw [Operation.reportOf_of_some hx, if_neg]
    rintro rfl
    exact hk (Registry.isSome_find?_iff.mp (by rw [hold (h, x) hx]; rfl))

/-- The circuit that an operation makes of a name that is not registered. -/
def newcomer? (e : Engine) (k : CircuitName) (op : Operation) : Option RegisteredCircuit :=
  op.asks.bind fun (name, reg) =>
    if (⟨reg.scope, name⟩ : CircuitName) = k then
      (RegisteredCircuit.create e.instant k (e.registry.windowOf name reg) (e.registry.fallbackOf name reg)).toOption
    else none

/-- A new circuit depends on the clock and the settings. -/
theorem newcomer?_congr (hnow : e.now = e'.now) (hsettings : e.registry.settings = e'.registry.settings)
    (k : CircuitName) (op : Operation) : e.newcomer? k op = e'.newcomer? k op := by
  simp only [newcomer?, instant, Registry.windowOf, Registry.fallbackOf, hnow, hsettings]

theorem newcomer?_eq_start (hc : e.newcomer? k op = some c) :
    ∃ w valid track, c = RegisteredCircuit.start e.instant k w valid track := by
  obtain ⟨⟨name, reg⟩, -, hc⟩ := Option.bind_eq_some_iff.mp hc
  simp only at hc
  split at hc
  · by_cases hv : (e.registry.windowOf name reg).Valid
    · rw [RegisteredCircuit.create_of_valid hv] at hc
      exact ⟨_, hv, _, (Option.some.inj hc).symm⟩
    · rw [RegisteredCircuit.create_of_not_valid hv] at hc
      cases hc
  · cases hc

theorem newcomer?_of_asks {name : String} {reg : Registration} (ha : op.asks = some (name, reg)) (k : CircuitName) :
    e.newcomer? k op =
      if (⟨reg.scope, name⟩ : CircuitName) = k then
        (RegisteredCircuit.create e.instant k (e.registry.windowOf name reg) (e.registry.fallbackOf name reg)).toOption
      else none := by
  rw [newcomer?, ha, Option.bind_some]

/-- A name whose registration is not granted stays absent. -/
theorem circuitNamed?_perform_of_absent (hr : e.registry.roll.Nodup) (hk : k ∉ e.registry.roll)
    (h : ¬ (op.name? = some k ∧ (e.answer op).isSome)) : (e.perform op).registry.circuitNamed? k = none := by
  rw [Registry.circuitNamed?_eq_none_iff (nodup_roll_perform hr op), mem_roll_perform]
  exact not_or.mpr ⟨hk, h⟩

/-- A circuit that is not registered becomes what the operation makes of it. -/
theorem circuitNamed?_perform_of_none (hr : e.registry.roll.Nodup) (hk : k ∉ e.registry.roll) (op : Operation) :
    (e.perform op).registry.circuitNamed? k = e.newcomer? k op := by
  cases ha : op.asks with
  | none =>
    rw [circuitNamed?_perform_of_absent hr hk (by simp [Operation.name?, ha]), newcomer?, ha, Option.bind_none]
  | some a =>
    obtain ⟨name, reg⟩ := a
    have hname : op.name? = some ⟨reg.scope, name⟩ := by rw [Operation.name?, ha]; rfl
    rw [newcomer?_of_asks ha]
    by_cases hsame : (⟨reg.scope, name⟩ : CircuitName) = k
    · subst hsame
      have hf := Registry.find?_eq_none_iff.mpr hk
      obtain ⟨hregistry, hanswer⟩ := perform_of_asks (e := e) ha
      rw [if_pos rfl]
      by_cases hv : (e.registry.windowOf name reg).Valid
      · rw [Registry.register_of_valid hf hv] at hregistry hanswer
        rw [RegisteredCircuit.create_of_valid hv, Registry.circuitNamed?_of_find? (find?_of_answer hr hname hanswer),
          hregistry]
        exact Array.getElem?_push_size
      · rw [Registry.register_of_not_valid hf hv] at hanswer
        rw [RegisteredCircuit.create_of_not_valid hv,
          circuitNamed?_perform_of_absent hr hk (by simp [hanswer, Except.toOption])]
        rfl
    · rw [if_neg hsame, circuitNamed?_perform_of_absent hr hk (by simp [hname, hsame])]

/-! ## Replay -/

/-- The reports `xs` account for the circuit of `k`: it is a lone circuit that was fed them, or there is neither. -/
inductive Follows (k : CircuitName) : Option RegisteredCircuit → List Report → Prop
  | absent : Follows k none []
  | lone {w : Window} (valid : w.Valid) (origin : Int) (track : Bool) (xs : List Report) :
    Follows k (some ((RegisteredCircuit.start origin k w valid track).recordAll xs)) xs

theorem Follows.perform {xs : List Report} (hr : e.registry.roll.Nodup) (hold : e.Holds op)
    (h : Follows k (e.registry.circuitNamed? k) xs) :
    Follows k ((e.perform op).registry.circuitNamed? k) (xs ++ (op.reportOf k).toList) := by
  generalize hc : e.registry.circuitNamed? k = o at h
  cases h with
  | absent =>
    have hk := (Registry.circuitNamed?_eq_none_iff hr).mp hc
    rw [circuitNamed?_perform_of_none hr hk, hold.reportOf_eq_none hk]
    cases hnew : e.newcomer? k op with
    | none => exact .absent
    | some c =>
      obtain ⟨w, valid, track, rfl⟩ := newcomer?_eq_start hnew
      exact .lone valid e.instant track []
  | lone valid origin track =>
    rw [circuitNamed?_perform_of_some hr hold hc, ← RegisteredCircuit.recordAll_append]
    exact .lone valid origin track _

/-- **Replay**: a circuit is what a lone circuit makes of the reports of its name. -/
theorem Follows.performAll {xs : List Report} (hr : e.registry.roll.Nodup) (hold : e.HoldsAll ops)
    (h : Follows k (e.registry.circuitNamed? k) xs) :
    Follows k ((e.performAll ops).registry.circuitNamed? k) (xs ++ ops.filterMap (·.reportOf k)) := by
  induction ops generalizing e xs with
  | nil => simpa using h
  | cons op ops ih =>
    have hrest := ih (nodup_roll_perform hr op) hold.2 (h.perform hr hold.1)
    rw [List.append_assoc] at hrest
    rw [performAll_cons, List.filterMap_cons]
    cases hx : op.reportOf k with
    | none => simpa [hx] using hrest
    | some x => simpa [hx] using hrest

/-! ## Two histories -/

/-- In the state `e` it makes no difference to the circuit of `k` whether an operation is done. -/
inductive Foreign (e : Engine) (k : CircuitName) (op : Operation) : Prop
  /-- It registers another name. -/
  | other {l : CircuitName} (name : op.name? = some l) (ne : l ≠ k)
  /-- It asks for a registration and is refused. -/
  | refused {l : CircuitName} (name : op.name? = some l) (answer : e.answer op = none)
  /-- It reports of another circuit. -/
  | elsewhere {h : Handle} {x : Report} (reports : op.reports = some (h, x)) (ne : h.name ≠ k)
  /-- It reports nothing, and `k` is registered. -/
  | quiet (found : (e.registry.find? k).isSome) (reports : op.reports = none)

/-- Two histories that differ only in what is foreign to `k`, and in the handles through which they make the same reports
of it. -/
inductive Alike (k : CircuitName) : Engine → List Operation → Engine → List Operation → Prop
  | nil {e e' : Engine} : Alike k e [] e' []
  /-- Only the first history does the operation. -/
  | first {e e' : Engine} {op : Operation} {ops ops' : List Operation} (foreign : e.Foreign k op)
    (rest : Alike k (e.perform op) ops e' ops') : Alike k e (op :: ops) e' ops'
  /-- Only the second history does the operation. -/
  | second {e e' : Engine} {op : Operation} {ops ops' : List Operation} (foreign : e'.Foreign k op)
    (rest : Alike k e ops (e'.perform op) ops') : Alike k e ops e' (op :: ops')
  /-- Both histories do the operation. -/
  | both {e e' : Engine} (op : Operation) {ops ops' : List Operation}
    (rest : Alike k (e.perform op) ops (e'.perform op) ops') : Alike k e (op :: ops) e' (op :: ops')
  /-- Both histories report the same of `k`. -/
  | report {e e' : Engine} {op op' : Operation} {ops ops' : List Operation} {x : Report}
    (first : op.reportOf k = some x) (second : op'.reportOf k = some x)
    (rest : Alike k (e.perform op) ops (e'.perform op') ops') : Alike k e (op :: ops) e' (op' :: ops')

/-- Two engines have the same circuit of `k`, or would make the same. -/
structure Agree (k : CircuitName) (e e' : Engine) : Prop where
  circuit_eq : e.registry.circuitNamed? k = e'.registry.circuitNamed? k
  now_eq : e.registry.circuitNamed? k = none → e.now = e'.now
  settings_eq : e.registry.circuitNamed? k = none → e.registry.settings = e'.registry.settings

theorem Foreign.reportOf_eq_none (h : e.Foreign k op) : op.reportOf k = none := by
  cases h with
  | other name ne => exact Operation.reportOf_of_none (Operation.reports_of_name? name) k
  | refused name answer => exact Operation.reportOf_of_none (Operation.reports_of_name? name) k
  | elsewhere reports ne => rw [Operation.reportOf_of_some reports, if_neg ne]
  | quiet found reports => exact Operation.reportOf_of_none reports k

/-- Neither a registration nor a report moves the clock or the settings. -/
theorem perform_keeps (h : op.name?.isSome ∨ op.reports.isSome) :
    (e.perform op).now = e.now ∧ (e.perform op).registry.settings = e.registry.settings := by
  have hoffers : op.offers = [] := by
    cases op <;> first | rfl | simp [Operation.name?, Operation.asks, Operation.reports] at h
  refine ⟨?_, by rw [settings_perform, hoffers]; rfl⟩
  cases op with
  | createCircuit name reg limits =>
    rw [perform, createCircuit]
    split <;> rfl
  | register | report | reportFallback => rfl
  | _ => simp [Operation.name?, Operation.asks, Operation.reports] at h

theorem Agree.of_some (h : e.registry.circuitNamed? k = some c) (h' : e'.registry.circuitNamed? k = some c) :
    Agree k e e' := by
  refine ⟨h.trans h'.symm, ?_, ?_⟩ <;> rw [h] <;> exact nofun

/-- What is foreign to a name leaves its circuit, and what a new one would be made of. -/
theorem Foreign.agree (hr : e.registry.roll.Nodup) (hold : e.Holds op) (h : e.Foreign k op) :
    Agree k (e.perform op) e := by
  cases hc : e.registry.circuitNamed? k with
  | some c =>
    have hafter := circuitNamed?_perform_of_some hr hold hc
    rw [h.reportOf_eq_none] at hafter
    exact .of_some hafter hc
  | none =>
    have hk := (Registry.circuitNamed?_eq_none_iff hr).mp hc
    have hkept : (op.name?.isSome ∨ op.reports.isSome) ∧ ¬ (op.name? = some k ∧ (e.answer op).isSome) := by
      cases h with
      | other name ne => simp [name, ne]
      | refused name answer => simp [name, answer]
      | elsewhere reports ne =>
        refine ⟨.inr (by rw [reports]; rfl), fun ⟨hname, _⟩ => ?_⟩
        rw [Operation.reports_of_name? hname] at reports
        cases reports
      | quiet found reports => exact absurd (Registry.isSome_find?_iff.mp found) hk
    obtain ⟨hnow, hsettings⟩ := perform_keeps (e := e) hkept.1
    exact ⟨(circuitNamed?_perform_of_absent hr hk hkept.2).trans hc.symm, fun _ => hnow, fun _ => hsettings⟩

theorem Agree.trans {e'' : Engine} (h : Agree k e e') (h' : Agree k e' e'') : Agree k e e'' where
  circuit_eq := h.circuit_eq.trans h'.circuit_eq
  now_eq hnone := (h.now_eq hnone).trans (h'.now_eq (h.circuit_eq ▸ hnone))
  settings_eq hnone := (h.settings_eq hnone).trans (h'.settings_eq (h.circuit_eq ▸ hnone))

theorem Agree.symm (h : Agree k e e') : Agree k e' e where
  circuit_eq := h.circuit_eq.symm
  now_eq hnone := (h.now_eq (h.circuit_eq.trans hnone)).symm
  settings_eq hnone := (h.settings_eq (h.circuit_eq.trans hnone)).symm

theorem now_perform_congr (hnow : e.now = e'.now) (op : Operation) : (e.perform op).now = (e'.perform op).now := by
  cases op with
  | advance ms => exact congrArg (· + ms) hnow
  | apply s =>
    simp only [perform]
    split <;> split <;> exact hnow
  | applyAll => exact hnow
  | _ =>
    rw [(perform_keeps (by simp [Operation.name?, Operation.asks, Operation.reports])).1,
      (perform_keeps (by simp [Operation.name?, Operation.asks, Operation.reports])).1, hnow]

/-- The same reports of a circuit make the same of it. -/
theorem Agree.perform_of_some (hr : e.registry.roll.Nodup) (hr' : e'.registry.roll.Nodup) (hold : e.Holds op)
    (hold' : e'.Holds op') (h : Agree k e e') (hc : e.registry.circuitNamed? k = some c)
    (hx : op.reportOf k = op'.reportOf k) : Agree k (e.perform op) (e'.perform op') := by
  have hafter := circuitNamed?_perform_of_some hr hold hc
  rw [hx] at hafter
  exact .of_some hafter (circuitNamed?_perform_of_some hr' hold' (h.circuit_eq.symm.trans hc))

/-- The same operation keeps two engines in agreement. -/
theorem Agree.perform (hr : e.registry.roll.Nodup) (hr' : e'.registry.roll.Nodup) (hold : e.Holds op)
    (hold' : e'.Holds op) (h : Agree k e e') : Agree k (e.perform op) (e'.perform op) := by
  cases hc : e.registry.circuitNamed? k with
  | some c => exact h.perform_of_some hr hr' hold hold' hc rfl
  | none =>
    have hk := (Registry.circuitNamed?_eq_none_iff hr).mp hc
    have hk' := (Registry.circuitNamed?_eq_none_iff hr').mp (h.circuit_eq.symm.trans hc)
    have hnow := h.now_eq hc
    have hsettings := h.settings_eq hc
    refine ⟨?_, fun _ => now_perform_congr hnow op, fun _ => ?_⟩
    · rw [circuitNamed?_perform_of_none hr hk, circuitNamed?_perform_of_none hr' hk', newcomer?_congr hnow hsettings]
    · rw [settings_perform, settings_perform, hsettings]

/-- Two histories that are alike keep two engines in agreement. -/
theorem Alike.agree (h : Alike k e ops e' ops') (hr : e.registry.roll.Nodup) (hr' : e'.registry.roll.Nodup)
    (hold : e.HoldsAll ops) (hold' : e'.HoldsAll ops') (hagree : Agree k e e') :
    Agree k (e.performAll ops) (e'.performAll ops') := by
  -- an operation that only one history does leaves its engine in agreement with what it was
  induction h with
  | nil => exact hagree
  | @first e e' op ops ops' hforeign _ ih =>
    exact ih (nodup_roll_perform hr op) hr' hold.2 hold' ((hforeign.agree hr hold.1).trans hagree)
  | @second e e' op ops ops' hforeign _ ih =>
    exact ih hr (nodup_roll_perform hr' op) hold hold'.2 (hagree.trans (hforeign.agree hr' hold'.1).symm)
  | both op _ ih =>
    exact ih (nodup_roll_perform hr op) (nodup_roll_perform hr' op) hold.2 hold'.2
      (hagree.perform hr hr' hold.1 hold'.1)
  | @report e e' op op' ops ops' x hx hx' _ ih =>
    refine ih (nodup_roll_perform hr op) (nodup_roll_perform hr' op') hold.2 hold'.2 ?_
    cases hc : e.registry.circuitNamed? k with
    | some c => exact hagree.perform_of_some hr hr' hold.1 hold'.1 hc (hx.trans hx'.symm)
    | none =>
      have hk := (Registry.circuitNamed?_eq_none_iff hr).mp hc
      rw [hold.1.reportOf_eq_none hk] at hx
      cases hx

/-! ## All histories of a new registry -/

/-- What a history does to the circuit of `k`. -/
structure Isolated (e : Engine) (k : CircuitName) (ops : List Operation) : Prop where
  /-- Every handle that was ever handed out for the name leads to its one circuit. -/
  shared : ∀ h, e.Obtained k h ops →
    (e.performAll ops).registry.circuit? h = (e.performAll ops).registry.circuitNamed? k
  /-- What is reported through one handle of the name is seen through every other. -/
  visible : ∀ op h h' x c, e.Obtained k h ops → e.Obtained k h' ops → op.reports = some (h, x) →
    (e.performAll ops).registry.circuit? h' = some c →
      (e.performAll (ops ++ [op])).registry.circuit? h' = some (c.record x)
  /-- The counters of the circuit depend on its window, its origin and the reports through handles of the name. -/
  replays : ∀ c, (e.performAll ops).registry.circuitNamed? k = some c →
    ∃ w origin, c.Replays w origin (ops.filterMap (·.reportOf k))
  /-- What is foreign to the name may be struck out and put in anywhere: the circuit is the same. -/
  unmoved : ∀ ops', e.Proper ops' → Alike k e ops e ops' →
    (e.performAll ops').registry.circuitNamed? k = (e.performAll ops).registry.circuitNamed? k

/-- **Sharing and isolation.** All handles of a name share one circuit, and nothing else reaches it. -/
theorem run_isolated {s : Settings} (hnew : Registry.create s = .ok e.registry) (hproper : e.Proper ops)
    (k : CircuitName) : e.Isolated k ops := by
  have hroll := Registry.roll_of_create hnew
  have hr : e.registry.roll.Nodup := by rw [hroll]; exact List.nodup_nil
  have hold := (proper_iff_holdsAll hr).mp hproper
  constructor
  case shared =>
    intro h ho
    exact (Registry.circuitNamed?_of_find? (ho.find?_eq hr)).symm
  case visible =>
    intro op h h' x c ho ho' hx hc
    obtain rfl : h = h' := Option.some.inj ((ho.find?_eq hr).symm.trans (ho'.find?_eq hr))
    rw [performAll_append, performAll_cons, performAll_nil]
    have hafter := getElem?_perform hc op
    rwa [Operation.reportAt_of_some hx, if_pos rfl] at hafter
  case replays =>
    intro c hc
    have habsent : e.registry.circuitNamed? k = none :=
      (Registry.circuitNamed?_eq_none_iff hr).mpr (by rw [hroll]; exact List.not_mem_nil)
    have hfollows := Follows.performAll (k := k) hr hold (by rw [habsent]; exact .absent)
    rw [hc, List.nil_append] at hfollows
    generalize ops.filterMap (·.reportOf k) = xs at hfollows
    obtain _ | ⟨valid, origin, track, xs⟩ := hfollows
    exact ⟨_, origin, RegisteredCircuit.replays_start k valid origin track xs⟩
  case unmoved =>
    intro ops' hproper' halike
    have hold' := (proper_iff_holdsAll hr).mp hproper'
    exact (halike.agree hr hr hold hold' ⟨rfl, fun _ => rfl, fun _ => rfl⟩).circuit_eq.symm

end Engine

namespace Elsewhere

/-- A call that failed at the first instant, reported through the handle of "db" in the given place. -/
def failed (i : Nat) : Operation := .report ⟨⟨"", "db"⟩, i⟩ .failure 0

/-- The circuit "db" alone. -/
def alone : List Operation := [.register "db" {}, failed 0]

/-- The same among a circuit of that name in another scope, a registration that is refused and new settings. -/
def crowded : List Operation :=
  [.register "db" { scope := "eu" }, .register "db" { window := some { buckets := 0 } },
    .report ⟨⟨"eu", "db"⟩, 0⟩ .failure 0, .register "db" {}, .apply { window := { buckets := 3 } }, failed 1]

/-- The two histories are alike to the circuit. -/
theorem alike : Engine.Alike ⟨"", "db"⟩ (.start {}) crowded (.start {}) alone :=
  .first (.other rfl (by decide)) <| .first (.refused rfl (by decide +kernel)) <| .first (.elsewhere rfl (by decide)) <|
    .both _ <| .first (.quiet (by decide +kernel) rfl) <| .report (x := .call .failure 0) rfl rfl .nil

end Elsewhere

/-- Of the two failures in the crowd the circuit shows its own. -/
theorem Engine.run_isolated_crowded : Registry.create {} = .ok (start {}).registry ∧
    (start {}).Proper Elsewhere.crowded ∧
      ((start {}).performAll Elsewhere.crowded).registry.circuitNamed? ⟨"", "db"⟩ =
        ((start {}).performAll Elsewhere.alone).registry.circuitNamed? ⟨"", "db"⟩ ∧
      (((start {}).performAll Elsewhere.crowded).registry.circuitNamed? ⟨"", "db"⟩).map (·.calls.errors 0) = some 1 := by
  have hcreate := create_start (s := {}) (by decide +kernel)
  have hr : (start {}).registry.roll.Nodup := List.nodup_nil
  have hcrowded : (start {}).Proper Elsewhere.crowded := (proper_iff_holdsAll hr).mpr (by decide +kernel)
  have halone : (start {}).Proper Elsewhere.alone := (proper_iff_holdsAll hr).mpr (by decide +kernel)
  have hsame := (run_isolated hcreate hcrowded ⟨"", "db"⟩).unmoved Elsewhere.alone halone Elsewhere.alike
  refine ⟨hcreate, hcrowded, hsame.symm, ?_⟩
  rw [← hsame]
  decide +kernel

end CallGuard
