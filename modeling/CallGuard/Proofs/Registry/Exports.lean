import CallGuard.Proofs.Registry.Deeds
import CallGuard.Proofs.Rows

/-!
# Exported series agree with the counters

What is reported is counted twice: in the counters of the circuit, and in the series that the circuit resolved when it
was registered. `Registry.due` is what every series has to show by the counters and the names of a registry, and a
registry is `Mirrored` if every series shows that. A report moves one series and one counter, or neither
(`Registry.due_record`); a new circuit starts its series and its counters at 0, and adds itself to the series that count
circuits (`Registry.due_push`).

**Main statement** (`Engine.carryAll_mirrored`): a new registry is mirrored after any deeds, and only a registration
that is granted for a new name looks series up.
-/

namespace CallGuard

variable {α : Type}

/-! ## Totals of a circuit -/

/-- A report of the end of a call with the given outcome. -/
def Report.isCall (o : CallOutcome) : Report → Bool
  | .call o' _ => o' = o
  | .fallback .. => false

/-- A report of the end of a fallback with the given outcome. -/
def Report.isFallback (o : FallbackOutcome) : Report → Bool
  | .call .. => false
  | .fallback o' _ => o' = o

theorem Stats.total_record {κ : Type} [Category κ] [DecidableEq κ] (s : Stats κ) (k l : κ) (t : Int) :
    ((s.record k t).counter l).total = (s.counter l).total + if k = l then 1 else 0 := by
  rw [counter_record]
  split
  · rw [Rolling.Counter.total_increment]
  · rfl

namespace RegisteredCircuit

/-- How many calls on a circuit ended with the outcome. -/
def callTotal (c : RegisteredCircuit) (o : CallOutcome) : Nat := (c.calls.counter o.category).total

/-- How many fallbacks on a circuit ended with the outcome: none if they are not counted. -/
def fallbackTotal (c : RegisteredCircuit) (o : FallbackOutcome) : Nat :=
  c.fallbacks.elim 0 fun f => (f.counter o.category).total

/-- The series that a report moves. -/
def series? (c : RegisteredCircuit) : Report → Option Series
  | .call o _ => some (.calls c.name.label o)
  | .fallback o _ => if c.fallbacks.isSome then some (.fallbacks c.name.label o) else none

variable (c : RegisteredCircuit) (x : Report)

/-- A report moves the total of its own outcome. -/
theorem callTotal_record (o : CallOutcome) :
    (c.record x).callTotal o = c.callTotal o + if x.isCall o then 1 else 0 := by
  cases x with
  | call o' t =>
    have hcategory : o'.category = o.category ↔ o' = o := ⟨CallOutcome.category_injective, congrArg _⟩
    simp only [record, callTotal, Stats.total_record, hcategory, Report.isCall, decide_eq_true_eq]
  | fallback => rfl

/-- So does a report of a fallback, where fallbacks are counted. -/
theorem fallbackTotal_record (o : FallbackOutcome) :
    (c.record x).fallbackTotal o = c.fallbackTotal o + if c.fallbacks.isSome && x.isFallback o then 1 else 0 := by
  cases x with
  | call => simp [record, fallbackTotal, Report.isFallback]
  | fallback o' t =>
    have hcategory : o'.category = o.category ↔ o' = o := ⟨FallbackOutcome.category_injective, congrArg _⟩
    cases hf : c.fallbacks with
    | none => simp [record, fallbackTotal, hf]
    | some f =>
      simp only [record, fallbackTotal, hf, Option.map_some, Option.elim_some, Stats.total_record,
        hcategory, Option.isSome_some, Bool.true_and, Report.isFallback, decide_eq_true_eq]

theorem callTotal_recordAll (xs : List Report) (o : CallOutcome) :
    (c.recordAll xs).callTotal o = c.callTotal o + xs.countP (·.isCall o) := by
  induction xs generalizing c with
  | nil => rfl
  | cons x xs ih => rw [recordAll_cons, ih, callTotal_record, List.countP_cons, Nat.add_assoc, Nat.add_comm (ite _ _ _)]

theorem isSome_fallbacks_record : (c.record x).fallbacks.isSome = c.fallbacks.isSome := by
  cases x with
  | call => rfl
  | fallback => exact Option.isSome_map

theorem fallbackTotal_recordAll (xs : List Report) (hc : c.fallbacks.isSome) (o : FallbackOutcome) :
    (c.recordAll xs).fallbackTotal o = c.fallbackTotal o + xs.countP (·.isFallback o) := by
  induction xs generalizing c with
  | nil => rfl
  | cons x xs ih =>
    rw [recordAll_cons, ih _ (c.isSome_fallbacks_record x ▸ hc), fallbackTotal_record, hc, Bool.true_and,
      List.countP_cons, Nat.add_assoc, Nat.add_comm (ite _ _ _)]

variable {w : Window} (valid : w.Valid) (origin : Int) (k : CircuitName) (track : Bool)

theorem callTotal_start (o : CallOutcome) : (start origin k w valid track).callTotal o = 0 := by
  rw [callTotal, start, Stats.counter_start]
  rfl

theorem fallbackTotal_start (o : FallbackOutcome) : (start origin k w valid track).fallbackTotal o = 0 := by
  cases track with
  | false => rfl
  | true =>
    simp only [fallbackTotal, start, if_true, Option.elim_some, Stats.counter_start]
    rfl

end RegisteredCircuit

/-! ## What the series have to show -/

/-- A sum over some members of a row grows by what it grows for the member that is modified. -/
theorem sum_filter_modify {τ : Type} {l : List τ} {i : Nat} {x : τ} {f : τ → τ} {p : τ → Bool} {g : τ → Nat} {d : Nat}
    (h : l[i]? = some x) (hp : p (f x) = p x) (hg : g (f x) = g x + d) :
    (((l.modify i f).filter p).map g).sum = ((l.filter p).map g).sum + if p x then d else 0 := by
  induction l generalizing i with
  | nil => cases h
  | cons a l ih =>
    cases i with
    | zero =>
      obtain rfl : a = x := Option.some.inj h
      rw [List.modify_zero_cons, List.filter_cons, List.filter_cons, hp]
      split
      · rw [List.map_cons, List.map_cons, List.sum_cons, List.sum_cons, hg]
        omega
      · rfl
    | succ i =>
      rw [List.modify_succ_cons, List.filter_cons, List.filter_cons]
      split
      · rw [List.map_cons, List.map_cons, List.sum_cons, List.sum_cons, ih h]
        omega
      · exact ih h

namespace Registry

/-- The circuits whose names are written so. -/
def labelled (r : Registry) (label : String) : List RegisteredCircuit :=
  r.circuits.toList.filter (·.name.label = label)

/-- What a series has to show: the totals of all circuits of its label, how many names are written so, how many circuits
there are. -/
def due (r : Registry) : Series → Nat
  | .calls label o => ((r.labelled label).map (·.callTotal o)).sum
  | .fallbacks label o => ((r.labelled label).map (·.fallbackTotal o)).sum
  | .registrations label => r.roll.countP (·.label = label)
  | .circuits => r.size

/-- Every series shows what it has to, and fourteen of them were looked up for each circuit. -/
structure Mirrored (r : Registry) : Prop where
  value_eq : ∀ s, r.exported.value s = r.due s
  lookups_eq : r.exported.lookups = 14 * r.size

variable {r r' : Registry}

theorem due_congr (h : r'.circuits = r.circuits) : r'.due = r.due := by
  funext s
  cases s <;> simp only [due, labelled, roll, size, h]

theorem Mirrored.congr (h : r.Mirrored) (hc : r'.circuits = r.circuits) (he : r'.exported = r.exported) :
    r'.Mirrored where
  value_eq s := by rw [he, due_congr hc, h.value_eq]
  lookups_eq := by rw [he, h.lookups_eq, size, size, hc]

/-- A report adds one to what the series that it moves has to show. -/
theorem due_record {i : Nat} {c : RegisteredCircuit} {x : Report} (hc : r.circuits[i]? = some c)
    (h : r'.circuits = r.circuits.modify i (·.record x)) (s : Series) :
    r'.due s = r.due s + if c.series? x = some s then 1 else 0 := by
  have hplace : r.circuits.toList[i]? = some c := by rwa [Array.getElem?_toList]
  have hlist : r'.circuits.toList = r.circuits.toList.modify i (·.record x) := by rw [h, Array.toList_modify]
  cases s with
  | calls label o =>
    rw [due, labelled, hlist, sum_filter_modify hplace (by simp only [c.name_record]) (c.callTotal_record x o)]
    cases x with
    | call o' t => by_cases hl : c.name.label = label <;> simp [due, labelled, hl, RegisteredCircuit.series?,
        Report.isCall]
    | fallback => simp [due, labelled, RegisteredCircuit.series?, Report.isCall]
  | fallbacks label o =>
    rw [due, labelled, hlist, sum_filter_modify hplace (by simp only [c.name_record]) (c.fallbackTotal_record x o)]
    cases x with
    | call => simp [due, labelled, RegisteredCircuit.series?, Report.isFallback]
    | fallback o' t => by_cases hl : c.name.label = label <;> by_cases hf : c.fallbacks.isSome <;>
        simp [due, labelled, hl, hf, RegisteredCircuit.series?, Report.isFallback]
  | registrations label =>
    rw [due, roll_of_record h, due]
    cases x <;> simp [RegisteredCircuit.series?]
  | circuits =>
    rw [due, size, h, Array.size_modify, due, size]
    cases x <;> simp [RegisteredCircuit.series?]

/-- A circuit that has counted nothing adds itself to the series that count circuits. -/
theorem due_push {c : RegisteredCircuit} (hcalls : ∀ o, c.callTotal o = 0) (hfallbacks : ∀ o, c.fallbackTotal o = 0)
    (h : r'.circuits = r.circuits.push c) (s : Series) :
    r'.due s = if s = .circuits then r.size + 1 else r.due s + if s = .registrations c.name.label then 1 else 0 := by
  have hlist : r'.circuits.toList = r.circuits.toList ++ [c] := by rw [h, Array.toList_push]
  cases s with
  | calls label o =>
    simp only [due, labelled, hlist, List.filter_append, List.map_append, List.sum_append]
    by_cases hl : c.name.label = label <;> simp [hl, hcalls]
  | fallbacks label o =>
    simp only [due, labelled, hlist, List.filter_append, List.map_append, List.sum_append]
    by_cases hl : c.name.label = label <;> simp [hl, hfallbacks]
  | registrations label =>
    simp only [due, roll, hlist, List.map_append, List.countP_append]
    by_cases hl : c.name.label = label <;> simp [hl, eq_comm (a := label)]
  | circuits => simp [due, size, h]

/-! ## What the registry shows -/

theorem value_report (r : Registry) (h : Handle) (o : CallOutcome) (t : Int) (s : Series) :
    (r.report h o t).exported.value s = r.exported.value s + if Series.calls h.name.label o = s then 1 else 0 := by
  rw [report, EventSeries.call_ofLabel, Export.value_bump]
  simp only [eq_comm]

theorem value_reportFallback (r : Registry) (h : Handle) (o : FallbackOutcome) (t : Int) (s : Series) :
    (r.reportFallback h o t).exported.value s =
      r.exported.value s + if r.tracksFallback h ∧ Series.fallbacks h.name.label o = s then 1 else 0 := by
  rw [reportFallback]
  by_cases htrack : r.tracksFallback h
  · rw [if_pos htrack, EventSeries.fallback_ofLabel, Export.value_bump]
    simp only [htrack, true_and, eq_comm]
  · rw [if_neg htrack, if_neg fun hs => htrack hs.1]
    rfl

theorem lookups_reportFallback (r : Registry) (h : Handle) (o : FallbackOutcome) (t : Int) :
    (r.reportFallback h o t).exported.lookups = r.exported.lookups := by
  rw [reportFallback]
  split <;> rfl

theorem value_insert (r : Registry) (c : RegisteredCircuit) (s : Series) :
    (r.insert c).exported.value s = r.exported.value s :=
  Export.value_resolveAll ..

theorem value_countRegistration (r : Registry) (label : String) (s : Series) :
    (r.countRegistration label).exported.value s =
      r.exported.value s + if s = .registrations label then 1 else 0 := by
  rw [countRegistration, Export.value_bump, Export.value_resolve]

theorem value_showSize (r : Registry) (n : Nat) (s : Series) :
    (r.showSize n).exported.value s = if s = .circuits then n else r.exported.value s := by
  rw [showSize, Export.value_put, Export.value_resolve]

theorem value_add (r : Registry) (c : RegisteredCircuit) (s : Series) :
    (r.add c).exported.value s = if s = .circuits then r.size + 1
      else r.exported.value s + if s = .registrations c.name.label then 1 else 0 := by
  have hsize : ((r.insert c).countRegistration c.name.label).size = r.size + 1 := Array.size_push ..
  rw [add, value_showSize, hsize, value_countRegistration, value_insert]

theorem lookups_add (r : Registry) (c : RegisteredCircuit) :
    (r.add c).exported.lookups = r.exported.lookups + 14 := by
  simp only [add, showSize, countRegistration, insert, Export.lookups_put, Export.lookups_resolve,
    Export.lookups_bump, Export.lookups_resolveAll, Export.length_eventSeries]

/-! ## What keeps a registry mirrored -/

theorem mirrored_of_create {s : Settings} (h : create s = .ok r) : r.Mirrored := by
  unfold create at h
  split at h
  · cases h
    exact ⟨fun s => by cases s <;> rfl, rfl⟩
  · cases h

namespace Mirrored

variable {h : Handle} {c : RegisteredCircuit}

theorem report (hr : r.Mirrored) (hc : r.circuit? h = some c) (hname : c.name = h.name) (o : CallOutcome) (t : Int) :
    (r.report h o t).Mirrored where
  value_eq s := by
    rw [value_report, due_record hc (x := .call o t) rfl, hr.value_eq, RegisteredCircuit.series?, hname]
    simp only [Option.some.injEq]
  lookups_eq := hr.lookups_eq.trans (by rw [size, size, Registry.report, Array.size_modify])

/-- A fallback is passed over by the series of a circuit exactly if its counters pass over it. -/
theorem reportFallback (hr : r.Mirrored) (hc : r.circuit? h = some c) (hname : c.name = h.name) (o : FallbackOutcome)
    (t : Int) : (r.reportFallback h o t).Mirrored where
  value_eq s := by
    have htrack : r.tracksFallback h = c.fallbacks.isSome := by rw [tracksFallback, hc, Option.any_some]
    rw [value_reportFallback, due_record hc (x := .fallback o t) (circuits_reportFallback ..), hr.value_eq, htrack,
      RegisteredCircuit.series?, hname]
    cases c.fallbacks.isSome <;> simp
  lookups_eq := by
    rw [lookups_reportFallback, hr.lookups_eq, ← length_roll, ← length_roll, roll_reportFallback]

theorem add (hr : r.Mirrored) (hcalls : ∀ o, c.callTotal o = 0) (hfallbacks : ∀ o, c.fallbackTotal o = 0) :
    (r.add c).Mirrored where
  value_eq s := by rw [value_add, due_push hcalls hfallbacks rfl, hr.value_eq]
  lookups_eq := by
    have hsize : (r.add c).size = r.size + 1 := Array.size_push ..
    rw [lookups_add, hr.lookups_eq, hsize]
    rfl

theorem register (hr : r.Mirrored) (now : Int) (name : String) (reg : Registration) :
    (r.register now name reg).2.Mirrored := by
  cases hf : r.find? ⟨reg.scope, name⟩ with
  | some h => rwa [register_of_found hf]
  | none =>
    by_cases hv : (r.windowOf name reg).Valid
    · rw [register_of_valid hf hv]
      exact hr.add (RegisteredCircuit.callTotal_start hv _ _ _) (RegisteredCircuit.fallbackTotal_start hv _ _ _)
    · rw [register_of_not_valid hf hv]
      exact hr.congr rfl rfl

theorem applyOrNote (hr : r.Mirrored) (s : Settings) : (r.applyOrNote s).Mirrored := by
  refine hr.congr (Engine.circuits_applyOrNote r s) ?_
  rw [Registry.applyOrNote, Registry.apply]
  cases s.check <;> rfl

theorem applyAll (hr : r.Mirrored) (updates : List Settings) : (r.applyAll updates).Mirrored := by
  have hall : (updates.foldl Registry.applyOrNote r).Mirrored := by
    induction updates generalizing r with
    | nil => exact hr
    | cons s updates ih => exact ih (hr.applyOrNote s)
  exact hall.congr rfl rfl

end Mirrored

end Registry

namespace Engine

variable {e : Engine}

/-- New settings move no series. -/
theorem exported_perform_apply (e : Engine) (s : Settings) :
    (e.perform (.apply s)).registry.exported = e.registry.exported := by
  rw [perform, Registry.apply]
  cases s.check <;> rfl

theorem mirrored_perform (hr : e.registry.Mirrored) (hnodup : e.registry.roll.Nodup) {op : Operation}
    (held : e.Holds op) : (e.perform op).registry.Mirrored := by
  cases op with
  | register name reg => exact hr.register ..
  | createCircuit name reg limits =>
    rw [(perform_of_asks rfl).1]
    exact hr.register ..
  | report h o t =>
    obtain ⟨c, hc, hname⟩ := Registry.exists_circuit_of_find? hnodup (held (h, .call o t) rfl)
    exact hr.report hc hname o t
  | reportFallback h o t =>
    obtain ⟨c, hc, hname⟩ := Registry.exists_circuit_of_find? hnodup (held (h, .fallback o t) rfl)
    exact hr.reportFallback hc hname o t
  | apply s => exact hr.congr (circuits_perform_of_quiet rfl rfl) (exported_perform_apply e s)
  | applyAll updates => exact hr.applyAll updates
  | advance => exact hr

/-- The calls of tasks keep a registry mirrored, if they are made on circuits that it handed out. -/
theorem mirrored_run (hr : e.registry.Mirrored) (hnodup : e.registry.roll.Nodup) {items : List (Item α)}
    (held : e.HoldsDeed (.run items)) : (e.run items).2.registry.Mirrored := by
  have hfound : ∀ {r : Registry} {c : Circuit}, r.roll = e.registry.roll → c ∈ items.flatMap (·.action.circuits) →
      ∃ c', r.circuit? c.handle = some c' ∧ c'.name = c.handle.name := by
    intro r c hroll hc
    obtain ⟨i, hi, hc⟩ := List.mem_flatMap.mp hc
    refine Registry.exists_circuit_of_find? (hroll ▸ hnodup) ?_
    rw [Registry.find?_congr hroll]
    exact held i hi c hc
  have hkept : Registry.Kept (items.flatMap (·.action.circuits))
      fun r => r.Mirrored ∧ r.roll = e.registry.roll := by
    constructor
    case note => exact fun event ⟨hr, hroll⟩ => ⟨hr.congr rfl rfl, hroll⟩
    case report =>
      rintro r c o t hc ⟨hr, hroll⟩
      obtain ⟨c', hc', hname⟩ := hfound hroll hc
      exact ⟨hr.report hc' hname o t, (Registry.roll_report ..).trans hroll⟩
    case reportFallback =>
      rintro r c o t hc ⟨hr, hroll⟩
      obtain ⟨c', hc', hname⟩ := hfound hroll hc
      exact ⟨hr.reportFallback hc' hname o t, (Registry.roll_reportFallback ..).trans hroll⟩
  exact (keeps_run hkept (fun i hi c hc => List.mem_flatMap.mpr ⟨i, hi, hc⟩) ⟨hr, rfl⟩).1

/-- **One deed** keeps a sound registry mirrored. -/
theorem mirrored_carry {d : Deed α} (h : e.registry.Sound ∧ e.registry.Mirrored) (held : e.HoldsDeed d) :
    (e.carry d).registry.Sound ∧ (e.carry d).registry.Mirrored := by
  refine ⟨sound_carry h.1 d, ?_⟩
  cases d with
  | ask op => exact mirrored_perform h.2 h.1.nodup held
  | cancel => exact h.2
  | run items => exact mirrored_run h.2 h.1.nodup held

/-- A deed registers no circuit: it asks for none, or for one that is registered already, or is refused. -/
def RegistersNone (e : Engine) (d : Deed α) : Prop :=
  ∀ op, d = .ask op → ∀ k, op.name? = some k → k ∈ e.registry.roll ∨ e.answer op = none

/-- Such a deed leaves the names as they are. -/
theorem RegistersNone.roll_carry {d : Deed α} (h : e.RegistersNone d) :
    (e.carry d).registry.roll = e.registry.roll := by
  cases d with
  | ask op =>
    rcases e.roll_perform op with heq | ⟨k, hk, hf, hanswer, -⟩
    · exact heq
    · rcases h op rfl k hk with hmem | hnone
      · exact absurd hmem (Registry.find?_eq_none_iff.mp hf)
      · rw [hnone] at hanswer
        cases hanswer
  | cancel => rfl
  | run items => exact (e.roll_settings_run items).1

/-- Whatever is done with a new registry keeps it sound and mirrored. -/
theorem carryAll_sound_mirrored {s : Settings} (hnew : Registry.create s = .ok e.registry) {deeds : List (Deed α)}
    (held : e.HoldsDeeds deeds) :
    (e.carryAll deeds).registry.Sound ∧ (e.carryAll deeds).registry.Mirrored :=
  carryAll_induction (P := fun e => e.registry.Sound ∧ e.registry.Mirrored) mirrored_carry
    ⟨Registry.sound_of_create hnew, Registry.mirrored_of_create hnew⟩ held

/-- **The exported series agree with the counters** after whatever is done with a new registry. -/
theorem carryAll_mirrored {s : Settings} (hnew : Registry.create s = .ok e.registry) {deeds : List (Deed α)}
    (held : e.HoldsDeeds deeds) : (e.carryAll deeds).registry.Mirrored ∧
      ∀ d : Deed α, (e.carryAll deeds).HoldsDeed d → (e.carryAll deeds).RegistersNone d →
        ((e.carryAll deeds).carry d).registry.exported.lookups = (e.carryAll deeds).registry.exported.lookups := by
  have hend := carryAll_sound_mirrored hnew held
  refine ⟨hend.2, fun d hd hnone => ?_⟩
  rw [(mirrored_carry hend hd).2.lookups_eq, hend.2.lookups_eq, ← Registry.length_roll, ← Registry.length_roll,
    hnone.roll_carry]

end Engine

namespace Mirroring

/-- A circuit of the common scope, whose name is found again, and a bad one; the circuit of a scope that counts no
fallbacks; a report of a fallback to each; and a call that the first circuit lets through. -/
def deeds : List (Deed Nat) :=
  [.ask (.createCircuit "db" {} {}), .ask (.register "db" { window := some { buckets := 2 } }),
    .ask (.register "bad" { window := some { buckets := 0 } }),
    .ask (.register "db" { scope := "eu", trackFallback := some false }),
    .ask (.reportFallback ⟨⟨"", "db"⟩, 0⟩ .failure 5), .ask (.reportFallback ⟨⟨"eu", "db"⟩, 1⟩ .failure 5),
    .run [⟨0, .call ⟨⟨0, ⟨⟨"", "db"⟩, 0⟩, {}⟩, {}, .done (.ok (.plain 1)), none⟩⟩]]

end Mirroring

/-- The fallback that is not counted moves no series, and two circuits were added to those that count them. -/
theorem Engine.carryAll_mirrored_deeds : Registry.create {} = .ok (start {}).registry ∧
    (start {}).HoldsDeeds Mirroring.deeds ∧
    let exported := ((start {}).carryAll Mirroring.deeds).registry.exported
    exported.value (.calls "db" .success) = 1 ∧ exported.value (.fallbacks "db" .failure) = 1 ∧
      exported.value (.fallbacks "eu.db" .failure) = 0 ∧ exported.value (.registrations "bad") = 0 ∧
      exported.value .circuits = 2 ∧ exported.lookups = 28 := by
  have hcreate := create_start (s := {}) (by decide +kernel)
  have hheld : (start {}).HoldsDeeds Mirroring.deeds := by decide +kernel
  obtain ⟨hvalue, hlookups⟩ := (carryAll_mirrored hcreate hheld).1
  refine ⟨hcreate, hheld, ?_⟩
  simp only [hvalue, hlookups]
  decide +kernel

end CallGuard
