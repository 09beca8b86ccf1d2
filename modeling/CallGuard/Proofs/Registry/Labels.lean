import CallGuard.Proofs.Registry.Exports

/-!
# Circuits that share their series

Exported series go by labels, and a label does not say where its scope ends: it is the same for two names exactly if one
of them is the other with the front of its name moved to the end of its scope (`CircuitName.label_eq_iff`). So names in
one scope have different labels, and so have scopes with one name, and names without a point. Where the labels of two
registered names are the same, their circuits share their series, whatever their scopes.

**Main statement** (`Engine.carryAll_apart`): after any deeds a report through the handle of a name moves no series of
another label, and the series of a label that one registered name has are those of its circuit alone (`Registry.Apart`).
-/

namespace CallGuard

namespace CircuitName

variable {k l : CircuitName}

/-- `l` is `k` with the front of its name, up to a point, moved to the end of its scope. -/
def Regroups (k l : CircuitName) : Prop :=
  l.scope ≠ "" ∧ ∃ front, k.name = front ++ "." ++ l.name ∧ l.scope = label ⟨k.scope, front⟩

/-- A name in a scope of its own is written after it and a point. -/
theorem label_of_ne {scope : String} (h : scope ≠ "") (name : String) : label ⟨scope, name⟩ = scope ++ "." ++ name :=
  if_neg h

/-- A name in the common scope is written alone. -/
theorem label_of_eq {scope : String} (h : scope = "") (name : String) : label ⟨scope, name⟩ = name := if_pos h

/-- What is written after the name is written after the label. -/
theorem label_append (scope name rest : String) :
    label ⟨scope, name ++ rest⟩ = label ⟨scope, name⟩ ++ rest := by
  unfold label
  split
  · rfl
  · exact (String.append_assoc ..).symm

theorem Regroups.label_eq (h : k.Regroups l) : k.label = l.label := by
  obtain ⟨hne, front, hname, hscope⟩ := h
  calc k.label = label ⟨k.scope, front ++ "." ++ l.name⟩ := by rw [← hname]
    _ = label ⟨k.scope, front⟩ ++ "." ++ l.name := by rw [label_append, label_append]
    _ = l.label := by rw [← hscope]; exact (label_of_ne hne l.name).symm

/-- Two scopes and names that are written alike: the shorter scope is the front of the longer one. -/
theorem regroups_of_append (hk : k.scope ≠ "") (hl : l.scope ≠ "") {back : List Char}
    (hscope : l.scope.toList = k.scope.toList ++ back) (hname : '.' :: k.name.toList = back ++ '.' :: l.name.toList) :
    k = l ∨ k.Regroups l := by
  cases back with
  | nil =>
    left
    obtain ⟨scope, name⟩ := k
    obtain ⟨scope', name'⟩ := l
    rw [List.append_nil] at hscope
    obtain rfl : scope' = scope := String.toList_inj.mp hscope
    obtain rfl : name = name' := String.toList_inj.mp (List.tail_eq_of_cons_eq hname)
    rfl
  | cons c front =>
    obtain ⟨rfl, hname⟩ := List.cons.inj hname
    refine .inr ⟨hl, String.ofList front, ?_, ?_⟩
    · apply String.toList_inj.mp
      simpa using hname
    · rw [label_of_ne hk]
      apply String.toList_inj.mp
      simpa using hscope

/-- **Labels** of two names are the same exactly if one name regroups the other. -/
theorem label_eq_iff : k.label = l.label ↔ k = l ∨ k.Regroups l ∨ l.Regroups k := by
  constructor
  · intro h
    obtain ⟨scope, name⟩ := k
    obtain ⟨scope', name'⟩ := l
    by_cases hk : scope = "" <;> by_cases hl : scope' = ""
    · rw [label_of_eq hk, label_of_eq hl] at h
      exact .inl (by rw [hk, hl, h])
    · rw [label_of_eq hk, label_of_ne hl] at h
      exact .inr (.inl ⟨hl, scope', h, (label_of_eq hk scope').symm⟩)
    · rw [label_of_ne hk, label_of_eq hl] at h
      exact .inr (.inr ⟨hk, scope, h.symm, (label_of_eq hl scope).symm⟩)
    · -- of two scopes before the same text one is the front of the other
      rw [label_of_ne hk, label_of_ne hl] at h
      have hchars : scope.toList ++ '.' :: name.toList = scope'.toList ++ '.' :: name'.toList := by
        simpa using congrArg String.toList h
      rcases List.append_eq_append_iff.mp hchars with ⟨back, hscope, hname⟩ | ⟨back, hscope, hname⟩
      · exact (regroups_of_append hk hl hscope hname).imp_right .inl
      · exact (regroups_of_append hl hk hscope hname).imp Eq.symm .inr
  · rintro (rfl | h | h)
    · rfl
    · exact h.label_eq
    · exact h.label_eq.symm

theorem Regroups.name_ne (h : k.Regroups l) : k.name ≠ l.name := by
  obtain ⟨-, front, hname, -⟩ := h
  intro heq
  have hlength := congrArg String.length (heq.symm.trans hname)
  simp at hlength

theorem Regroups.scope_ne (h : k.Regroups l) : k.scope ≠ l.scope := by
  obtain ⟨hne, front, -, hscope⟩ := h
  intro heq
  rw [heq] at hscope
  have hlength := congrArg String.length (hscope.trans (label_of_ne hne front))
  simp only [String.length_append] at hlength
  have hpoint : ".".length = 1 := rfl
  omega

theorem Regroups.mem_name (h : k.Regroups l) : '.' ∈ k.name.toList := by
  obtain ⟨-, front, hname, -⟩ := h
  rw [hname]
  simp

end CircuitName

theorem Series.mem_labels_calls {label label' : String} {o : CallOutcome} :
    ("circuit", label) ∈ (Series.calls label' o).labels ↔ label = label' := by
  simp [labels]

theorem Series.mem_labels_fallbacks {label label' : String} {o : FallbackOutcome} :
    ("circuit", label) ∈ (Series.fallbacks label' o).labels ↔ label = label' := by
  simp [labels]

/-! ## Series of one circuit -/

namespace Registry

variable {r : Registry} {k : CircuitName} {c : RegisteredCircuit}

/-- The circuit of a name has its name, in one place. -/
theorem exists_place_of_circuitNamed? (hr : r.roll.Nodup) (hc : r.circuitNamed? k = some c) :
    ∃ i : Nat, r.circuits.toList[i]? = some c ∧ c.name = k := by
  obtain ⟨h, hf, hplace⟩ := Option.bind_eq_some_iff.mp hc
  obtain ⟨c', hc', hname⟩ := exists_circuit_of_find? hr hf
  obtain rfl : c' = c := Option.some.inj (hc'.symm.trans hplace)
  exact ⟨h.index, by rwa [Array.getElem?_toList], hname⟩

/-- If no other registered name is written as `k` is, the circuit of `k` is the only one of its label. -/
theorem labelled_eq_singleton (hr : r.roll.Nodup) (hc : r.circuitNamed? k = some c)
    (halone : ∀ l ∈ r.roll, l ≠ k → l.label ≠ k.label) : r.labelled k.label = [c] := by
  obtain ⟨i, hi, hname⟩ := exists_place_of_circuitNamed? hr hc
  have hplace : ∀ {j : Nat} {d : RegisteredCircuit}, r.circuits.toList[j]? = some d → r.roll[j]? = some d.name :=
    fun hj => by rw [roll, List.getElem?_map, hj, Option.map_some]
  refine filter_eq_singleton hi (by simp [hname]) fun j d hj hlabel => ?_
  have hd : d.name = k := by
    by_contra hne
    exact halone d.name (List.mem_of_getElem? (hplace hj)) hne (of_decide_eq_true hlabel)
  obtain ⟨hlt, hjk⟩ := List.getElem?_eq_some_iff.mp (hplace hj)
  obtain ⟨hlt', hik⟩ := List.getElem?_eq_some_iff.mp (hplace hi)
  exact (List.Nodup.getElem_inj_iff hr).mp (hjk.trans (hd.trans (hname.symm.trans hik.symm)))

/-- How far the exported series of a registry keep its circuits apart. -/
structure Apart (r : Registry) : Prop where
  /-- Two registered names are written alike exactly if one of them regroups the other. -/
  label_eq_iff : ∀ k ∈ r.roll, ∀ l ∈ r.roll, k.label = l.label ↔ k = l ∨ k.Regroups l ∨ l.Regroups k
  /-- So two of one scope, or of one name, or without points, are written differently. -/
  label_ne : ∀ k ∈ r.roll, ∀ l ∈ r.roll, k ≠ l →
    k.scope = l.scope ∨ k.name = l.name ∨ '.' ∉ k.name.toList ∧ '.' ∉ l.name.toList → k.label ≠ l.label
  /-- A report through the handle of a name moves no series of another label. -/
  report_other : ∀ (k l : CircuitName) h (s : Series),
    r.find? k = some h → k.label ≠ l.label → ("circuit", l.label) ∈ s.labels →
    (∀ o t, (r.report h o t).exported.value s = r.exported.value s) ∧
    ∀ o t, (r.reportFallback h o t).exported.value s = r.exported.value s
  /-- It moves the series of all names that are written so. -/
  report_alike : ∀ (k l : CircuitName) h o t, r.find? k = some h → k.label = l.label →
    (r.report h o t).exported.value (.calls l.label o) = r.exported.value (.calls l.label o) + 1
  /-- The series of a name that no other is written as show the totals of its own circuit and one registration. -/
  own : ∀ k c, r.circuitNamed? k = some c → (∀ l ∈ r.roll, l ≠ k → l.label ≠ k.label) →
    (∀ o, r.exported.value (.calls k.label o) = c.callTotal o) ∧
    (∀ o, r.exported.value (.fallbacks k.label o) = c.fallbackTotal o) ∧
    r.exported.value (.registrations k.label) = 1

theorem Mirrored.apart (h : r.Mirrored) (hr : r.roll.Nodup) : r.Apart where
  label_eq_iff k _ l _ := CircuitName.label_eq_iff
  label_ne k _ l _ hne hkind heq := by
    have hregroups : k.Regroups l ∨ l.Regroups k := (CircuitName.label_eq_iff.mp heq).resolve_left hne
    rcases hkind with hscope | hname | ⟨hk, hl⟩
    · exact hregroups.elim (·.scope_ne hscope) (·.scope_ne hscope.symm)
    · exact hregroups.elim (·.name_ne hname) (·.name_ne hname.symm)
    · exact hregroups.elim (fun h => hk h.mem_name) fun h => hl h.mem_name
  report_other k l h s hf hne hs := by
    obtain rfl := ((find?_eq_some_iff hr).mp hf).1
    constructor
    · intro o t
      have hother : Series.calls h.name.label o ≠ s := by
        rintro rfl
        exact hne (Series.mem_labels_calls.mp hs).symm
      rw [value_report, if_neg hother, Nat.add_zero]
    · intro o t
      have hother : ¬ (r.tracksFallback h ∧ Series.fallbacks h.name.label o = s) := by
        rintro ⟨-, rfl⟩
        exact hne (Series.mem_labels_fallbacks.mp hs).symm
      rw [value_reportFallback, if_neg hother, Nat.add_zero]
  report_alike k l h o t hf heq := by
    obtain rfl := ((find?_eq_some_iff hr).mp hf).1
    rw [value_report, heq, if_pos rfl]
  own k c hc halone := by
    have hlabelled := labelled_eq_singleton hr hc halone
    refine ⟨fun o => ?_, fun o => ?_, ?_⟩
    · rw [h.value_eq, due, hlabelled, List.map_singleton, List.sum_singleton]
    · rw [h.value_eq, due, hlabelled, List.map_singleton, List.sum_singleton]
    · have hcount : r.roll.countP (·.label = k.label) = (r.labelled k.label).length := by
        rw [roll, List.countP_map, List.countP_eq_length_filter]
        rfl
      rw [h.value_eq, due, hcount, hlabelled, List.length_singleton]

end Registry

/-- **Labels keep circuits apart as far as they are different**, after whatever is done with a new registry. -/
theorem Engine.carryAll_apart {α : Type} {s : Settings} {e : Engine} (hnew : Registry.create s = .ok e.registry)
    {deeds : List (Deed α)} (held : e.HoldsDeeds deeds) : (e.carryAll deeds).registry.Apart := by
  have hend := carryAll_sound_mirrored hnew held
  exact hend.2.apart hend.1.nodup

namespace Merging

/-- A name with a point in the common scope. -/
def plain : CircuitName := ⟨"", "ops.db"⟩

/-- The same text, the front of which is the scope. -/
def inside : CircuitName := ⟨"ops", "db"⟩

/-- The same name in another scope. -/
def other : CircuitName := ⟨"eu", "db"⟩

/-- All three are registered, and a success is reported of the first. -/
def deeds : List (Deed Unit) :=
  [.ask (.register "ops.db" {}), .ask (.register "db" { scope := "ops" }), .ask (.register "db" { scope := "eu" }),
    .ask (.report ⟨plain, 0⟩ .success 0)]

/-- The registry after that. -/
def registry : Registry := ((Engine.start {}).carryAll deeds).registry

end Merging

/-- The series of the third name are its own. -/
theorem Engine.carryAll_apart_other : Registry.create {} = .ok (start {}).registry ∧
    (start {}).HoldsDeeds Merging.deeds ∧ Merging.other.label ≠ Merging.inside.label ∧
    Merging.registry.exported.value (.registrations Merging.other.label) = 1 := by
  have hcreate := create_start (s := {}) (by decide +kernel)
  have hheld : (start {}).HoldsDeeds Merging.deeds := by decide +kernel
  have hapart := carryAll_apart hcreate hheld
  have hfound : (Merging.registry.circuitNamed? Merging.other).isSome := by decide +kernel
  obtain ⟨c, hc⟩ := Option.isSome_iff_exists.mp hfound
  exact ⟨hcreate, hheld, by decide +kernel, (hapart.own Merging.other c hc (by decide +kernel)).2.2⟩

/-- **Scopes do not keep circuits apart**: two different names are registered, their labels are the same, the series of
the second show the success of the first, which its own circuit has not counted, and both registrations. -/
theorem Registry.labels_merged : Merging.plain ≠ Merging.inside ∧
    Merging.registry.find? Merging.plain = some ⟨Merging.plain, 0⟩ ∧
    Merging.registry.find? Merging.inside = some ⟨Merging.inside, 1⟩ ∧ Merging.plain.label = Merging.inside.label ∧
    Merging.registry.exported.value (.calls Merging.inside.label .success) = 1 ∧
    (Merging.registry.circuitNamed? Merging.inside).map (·.callTotal .success) = some 0 ∧
    Merging.registry.exported.value (.registrations Merging.inside.label) = 2 := by
  decide +kernel

end CallGuard
