import CallGuard.Proofs.Registry.Rush

/-!
# The exported number of circuits

Whoever puts a circuit in reads how many circuits there are, and exports that number in a later section. Between the two
others may put circuits in and export what they have read, so that the number that is exported last need not be the
number of circuits. `Rush.lastExport` is the number that a run exports last, with the number of circuits at that moment.

* **Invariant** (`Rush.Tracked`): since the last export no circuit was put in, or a client is still to export a number.
  Every move keeps it (`Rush.Tracked.step`).

**Main statement** (`Rush.run_tracked`): the exported number is never too large, and when no client is between putting a
circuit in and exporting, it is right exactly if the number that was exported last was right at that moment. It may be
wrong for good (`Rush.run_stale`).
-/

namespace CallGuard

/-- A client has put a circuit in and not exported the number of circuits yet. -/
def Client.isRegistering (c : Client) : Bool :=
  match c.phase with
  | .created _ | .counted _ | .measured .. => true
  | _ => false

namespace Rush

/-- The number of circuits. -/
def size (p : Rush) : Nat := p.engine.registry.size

/-- The exported number of circuits. -/
def shown (p : Rush) : Nat := p.engine.registry.exported.value .circuits

/-- No client is between putting a circuit in and exporting the number of circuits. -/
def Calm (p : Rush) : Prop := ∀ c ∈ p.clients, c.isRegistering = false

instance (p : Rush) : Decidable p.Calm := inferInstanceAs (Decidable (∀ c ∈ p.clients, _))

/-- The number that a move exports, and the number of circuits then. -/
def export? (p : Rush) : Move → Option (Nat × Nat)
  | .turn i => p.clients[i]?.bind fun c =>
    match c.phase with
    | .measured _ n => some (n, p.size)
    | _ => none
  | .apply _ | .wait _ => none

/-- The number that a run exports last, and the number of circuits then. -/
def lastExport (p : Rush) : List Move → Option (Nat × Nat)
  | [] => none
  | m :: moves => ((p.step m).lastExport moves).or (p.export? m)

/-- The number `last.1` was exported last, or was so at first, when there were `last.2` circuits. -/
structure Tracked (p : Rush) (last : Nat × Nat) : Prop where
  shown_eq : p.shown = last.1
  le : last.1 ≤ last.2
  le_size : last.2 ≤ p.size
  measured_le : ∀ c ∈ p.clients, ∀ h n, c.phase = .measured h n → n ≤ p.size
  /-- No circuit was put in since, or another number will be exported. -/
  behind : p.size = last.2 ∨ ∃ c ∈ p.clients, c.isRegistering = true

variable {p : Rush} {last : Nat × Nat} {i : Nat} {c c' : Client} {e' : Engine}

/-! ## Sections -/

theorem export?_turn (hi : p.clients[i]? = some c) :
    p.export? (.turn i) = match c.phase with
      | .measured _ n => some (n, p.size)
      | _ => none := by
  rw [export?, hi, Option.bind_some]

/-- A client that goes on registering is still to export, and so is any other. -/
theorem exists_registering_set (hi : p.clients[i]? = some c) (hc : c.isRegistering = true → c'.isRegistering = true)
    (h : ∃ d ∈ p.clients, d.isRegistering = true) : ∃ d ∈ p.clients.set i c', d.isRegistering = true := by
  obtain ⟨d, hd, hregistering⟩ := h
  by_cases hdc : d = c
  · subst hdc
    exact ⟨c', List.mem_set (List.getElem?_eq_some_iff.mp hi).1 c', hc hregistering⟩
  · exact ⟨d, mem_set_of_ne hi hd hdc, hregistering⟩

/-- A section that exports nothing keeps what is tracked, if its client still exports whatever it was to export. -/
theorem Tracked.keep (h : p.Tracked last) (hi : p.clients[i]? = some c)
    (hshown : e'.registry.exported.value .circuits = p.shown) (hsize : e'.registry.size = p.size)
    (hmeasured : ∀ h n, c'.phase = .measured h n → n ≤ p.size)
    (hc : c.isRegistering = true → c'.isRegistering = true) : Tracked ⟨e', p.clients.set i c'⟩ last where
  shown_eq := hshown.trans h.shown_eq
  le := h.le
  le_size := h.le_size.trans_eq hsize.symm
  measured_le := by
    rw [show size ⟨e', p.clients.set i c'⟩ = p.size from hsize]
    exact forall_mem_set h.measured_le hmeasured
  behind := by
    rcases h.behind with hsame | hsome
    · exact .inl (hsize.trans hsame)
    · exact .inr (exists_registering_set hi hc hsome)

theorem Tracked.turn (h : p.Tracked last) (hi : p.clients[i]? = some c) (hgoes : c.Goes p.engine c' e') :
    Tracked ⟨e', p.clients.set i c'⟩ ((p.export? (.turn i)).getD last) := by
  rw [export?_turn hi]
  cases hgoes with
  | finds _ hphase | misses hphase | loses _ hphase | refused _ hphase =>
    rw [hphase]
    exact h.keep hi rfl rfl nofun (by simp [Client.isRegistering, hphase])
  | creates hphase hf hv =>
    rw [hphase]
    have hsize : Registry.size (p.engine.registry.insert (c.circuit p.engine hv)) = p.size + 1 := Array.size_push ..
    have hmem := List.mem_set (List.getElem?_eq_some_iff.mp hi).1
      { c with phase := .created ⟨c.key, p.engine.registry.size⟩ }
    constructor
    case shown_eq => exact (Registry.value_insert ..).trans h.shown_eq
    case le => exact h.le
    case le_size => exact (Nat.le_succ_of_le h.le_size).trans_eq hsize.symm
    case measured_le =>
      refine forall_mem_set (fun d hd hh n hmeasured => ?_) nofun
      exact (Nat.le_succ_of_le (h.measured_le d hd hh n hmeasured)).trans_eq hsize.symm
    case behind => exact .inr ⟨_, hmem, rfl⟩
  | counts _ hphase =>
    rw [hphase]
    refine h.keep hi ?_ rfl nofun fun _ => rfl
    rw [Registry.value_countRegistration, if_neg nofun]
    rfl
  | measures _ hphase =>
    rw [hphase]
    refine h.keep hi rfl rfl (fun _ n hn => ?_) fun _ => rfl
    obtain ⟨-, rfl⟩ := Phase.measured.inj hn
    exact Nat.le_refl _
  | shows hh n hphase =>
    rw [hphase]
    constructor
    case shown_eq => exact (Registry.value_showSize ..).trans (if_pos rfl)
    case le => exact h.measured_le c (List.mem_of_getElem? hi) hh n hphase
    case le_size => exact Nat.le_refl _
    case measured_le => exact forall_mem_set h.measured_le nofun
    case behind => exact .inl rfl
  | reports hh x xs hphase =>
    rw [hphase]
    refine h.keep hi (Registry.value_record_circuits ..) ?_ nofun (by simp [Client.isRegistering, hphase])
    rw [← Registry.length_roll, Registry.roll_record, Registry.length_roll]
    rfl
  | rests hended =>
    have hnone : ∀ hh n, c.phase ≠ .measured hh n := fun hh n hphase => by
      rw [Client.Ended, hphase] at hended
      exact hended
    have hkept := h.keep hi rfl rfl (fun hh n hphase => absurd hphase (hnone hh n)) id
    split
    · rename_i hphase
      exact absurd hphase (hnone _ _)
    · exact hkept

/-! ## Runs -/

/-- **Every move** keeps what is tracked, or exports another number. -/
theorem Tracked.step (h : p.Tracked last) (m : Move) : (p.step m).Tracked ((p.export? m).getD last) := by
  have hdoes := p.does m
  generalize p.step m = q at hdoes
  cases hdoes with
  | turn hi hgoes => exact h.turn hi hgoes
  | nobody hi =>
    rw [export?, hi]
    exact h
  | apply s =>
    have hcircuits : (p.engine.perform (.apply s)).registry.circuits = p.engine.registry.circuits :=
      Engine.circuits_perform_of_quiet rfl rfl
    have hsize : size { p with engine := p.engine.perform (.apply s) } = p.size := by
      rw [size, Registry.size, hcircuits]
      rfl
    constructor
    case shown_eq =>
      rw [shown, Engine.exported_perform_apply]
      exact h.shown_eq
    case le => exact h.le
    case le_size => exact h.le_size.trans_eq hsize.symm
    case measured_le => exact fun d hd hh n hphase => (h.measured_le d hd hh n hphase).trans_eq hsize.symm
    case behind => exact h.behind.imp_left hsize.trans
  | wait ms => exact ⟨h.shown_eq, h.le, h.le_size, h.measured_le, h.behind⟩

theorem Tracked.run (h : p.Tracked last) (moves : List Move) :
    (p.run moves).Tracked ((p.lastExport moves).getD last) := by
  induction moves generalizing p last with
  | nil => exact h
  | cons m moves ih =>
    rw [lastExport, Option.getD_or]
    exact ih (h.step m)

/-- **The exported number of circuits** is never too large, and at a calm moment it is right exactly if the number that
was exported last was right when it was exported. -/
theorem run_tracked (hshown : p.shown = p.size) (hcalm : p.Calm) (moves : List Move) :
    (p.run moves).shown ≤ (p.run moves).size ∧
      ((p.run moves).Calm → ((p.run moves).shown = (p.run moves).size ↔
        ∀ n m, p.lastExport moves = some (n, m) → n = m)) := by
  have hstart : p.Tracked (p.size, p.size) := by
    refine ⟨hshown, Nat.le_refl _, Nat.le_refl _, fun c hc hh n hphase => ?_, .inl rfl⟩
    have hnone := hcalm c hc
    rw [Client.isRegistering, hphase] at hnone
    cases hnone
  have hrun := hstart.run moves
  refine ⟨hrun.shown_eq.trans_le (hrun.le.trans hrun.le_size), fun hend => ?_⟩
  have hsize := hrun.behind.resolve_right fun ⟨c, hc, hregistering⟩ => by
    rw [hend c hc] at hregistering
    cases hregistering
  rw [hrun.shown_eq, hsize]
  cases p.lastExport moves with
  | none => simp
  | some last => simp [Prod.ext_iff]

end Rush

namespace Overlap

/-- Two clients that register circuits of different names. -/
def rush : Rush where
  engine := .start {}
  clients := [⟨"a", {}, [], .fresh⟩, ⟨"b", {}, [], .fresh⟩]

/-- One registers after the other. -/
def inTurn : List Rush.Move := List.replicate 5 (.turn 0) ++ List.replicate 5 (.turn 1)

/-- The first reads that there is one circuit; the second registers and exports that there are two; then the first
exports what it has read. -/
def overtaken : List Rush.Move := List.replicate 4 (.turn 0) ++ List.replicate 5 (.turn 1) ++ [.turn 0]

end Overlap

/-- Where registrations do not overlap, the exported number is right. -/
theorem Rush.run_tracked_inTurn : Overlap.rush.shown = Overlap.rush.size ∧ Overlap.rush.Calm ∧
    (Overlap.rush.run Overlap.inTurn).Calm ∧ (Overlap.rush.run Overlap.inTurn).size = 2 ∧
    (Overlap.rush.run Overlap.inTurn).shown = (Overlap.rush.run Overlap.inTurn).size := by
  have hshown : Overlap.rush.shown = Overlap.rush.size := by decide +kernel
  have hcalm : Overlap.rush.Calm := by decide +kernel
  have hend : (Overlap.rush.run Overlap.inTurn).Calm := by decide +kernel
  refine ⟨hshown, hcalm, hend, by decide +kernel, ((run_tracked hshown hcalm Overlap.inTurn).2 hend).mpr ?_⟩
  have hlast : Overlap.rush.lastExport Overlap.inTurn = some (2, 2) := by decide +kernel
  intro n m hnm
  cases hlast.symm.trans hnm
  rfl

/-- **The exported number may stay wrong**: both clients have ended, there are two circuits, and one is exported. -/
theorem Rush.run_stale : Overlap.rush.shown = Overlap.rush.size ∧
    (∀ c ∈ (Overlap.rush.run Overlap.overtaken).clients, c.Ended) ∧
    (Overlap.rush.run Overlap.overtaken).size = 2 ∧ (Overlap.rush.run Overlap.overtaken).shown = 1 := by
  decide +kernel

end CallGuard
