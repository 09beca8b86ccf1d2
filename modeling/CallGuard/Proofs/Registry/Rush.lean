import CallGuard.Proofs.Registry.Exports

/-!
# Registrations that overlap

Clients of one registry register circuits and report through the handles that they get, all at the same time. A client
goes through sections, and between two of them anything may happen: it looks its name up; if the name was missing, it
looks again with the name locked, and then finds the circuit after all or makes it and puts it in; whoever put a circuit
in counts the registration, reads how many circuits there are, and exports that number, each in a section of its own;
and every report is a section. Meanwhile the settings may be replaced, and time passes.

**Main statements.** `Client.Goes` lists the ways in which a section can go, and every section goes in one of them
(`Client.goes`). A client that is left alone registers as `Registry.register` does (`Client.turns_register`). A client
that gets as many turns as it has sections left has ended (`Rush.ended_run`).
-/

namespace CallGuard

/-! ## The second look of a registration -/

/-- How the second look of a registration ends. -/
inductive Admission
  /-- Another has registered the name in the meantime. -/
  | found (h : Handle)
  | created (h : Handle)
  | refused (error : SettingsError)

namespace Registry

/-- The second look of a registration, with the name locked: find the circuit, or put a new one in. -/
def enter (r : Registry) (now : Int) (name : String) (reg : Registration) : Admission × Registry :=
  let name' : CircuitName := ⟨reg.scope, name⟩
  match r.find? name' with
  | some h => (.found h, r.note (.registrationLost name'.label))
  | none =>
    match RegisteredCircuit.create now name' (r.windowOf name reg) (r.fallbackOf name reg) with
    | .ok c => (.created ⟨name', r.size⟩, r.insert c)
    | .error error => (.refused error, r.note (.circuitRefused name'.label error))

/-- Count what is reported through a handle. -/
def record (r : Registry) (h : Handle) : Report → Registry
  | .call o t => r.report h o t
  | .fallback o t => r.reportFallback h o t

end Registry

/-! ## Clients -/

/-- How far a client has come. -/
inductive Phase
  | fresh
  /-- It has not found its name. -/
  | missed
  /-- It has put its circuit in. -/
  | created (h : Handle)
  /-- It has counted its registration. -/
  | counted (h : Handle)
  /-- It has read how many circuits there are. -/
  | measured (h : Handle) (n : Nat)
  /-- It has its handle. -/
  | holds (h : Handle)
  | refused (error : SettingsError)
deriving DecidableEq

/-- Who registers a circuit, and what it reports afterwards. -/
structure Client where
  name : String
  reg : Registration
  reports : List Report
  phase : Phase := .fresh

namespace Client

/-- The name that a client registers. -/
def key (c : Client) : CircuitName := ⟨c.reg.scope, c.name⟩

/-- What a client asks for. -/
def asks (c : Client) : String × Registration := (c.name, c.reg)

/-- The next section of a client. -/
def step (c : Client) (e : Engine) : Client × Engine :=
  match c.phase with
  | .fresh =>
    match e.registry.find? c.key with
    | some h => ({ c with phase := .holds h }, e)
    | none => ({ c with phase := .missed }, e)
  | .missed =>
    match e.registry.enter e.instant c.name c.reg with
    | (.found h, r) => ({ c with phase := .holds h }, { e with registry := r })
    | (.created h, r) => ({ c with phase := .created h }, { e with registry := r })
    | (.refused error, r) => ({ c with phase := .refused error }, { e with registry := r })
  | .created h => ({ c with phase := .counted h }, { e with registry := e.registry.countRegistration c.key.label })
  | .counted h => ({ c with phase := .measured h e.registry.size }, e)
  | .measured h n => ({ c with phase := .holds h }, { e with registry := e.registry.showSize n })
  | .holds h =>
    match c.reports with
    | [] => (c, e)
    | x :: xs => ({ c with reports := xs }, { e with registry := e.registry.record h x })
  | .refused _ => (c, e)

/-- The client has nothing left to do. -/
def Ended (c : Client) : Prop :=
  match c.phase with
  | .holds _ => c.reports = []
  | .refused _ => True
  | _ => False

instance : (c : Client) → Decidable c.Ended
  | ⟨_, _, reports, .holds _⟩ => inferInstanceAs (Decidable (reports = []))
  | ⟨_, _, _, .refused _⟩ => isTrue trivial
  | ⟨_, _, _, .fresh⟩ | ⟨_, _, _, .missed⟩ | ⟨_, _, _, .created _⟩ | ⟨_, _, _, .counted _⟩ | ⟨_, _, _, .measured ..⟩ =>
    isFalse id

/-- The sections that a client has left at most. -/
def left (c : Client) : Nat :=
  match c.phase with
  | .fresh => c.reports.length + 5
  | .missed => c.reports.length + 4
  | .created _ => c.reports.length + 3
  | .counted _ => c.reports.length + 2
  | .measured .. => c.reports.length + 1
  | .holds _ => c.reports.length
  | .refused _ => 0

variable {c c' : Client} {e e' : Engine}

/-- The circuit that a client puts in. -/
def circuit (c : Client) (e : Engine) (valid : (e.registry.windowOf c.name c.reg).Valid) : RegisteredCircuit :=
  .start e.instant c.key (e.registry.windowOf c.name c.reg) valid (e.registry.fallbackOf c.name c.reg)

/-- The ways in which a section can go. -/
inductive Goes (c : Client) (e : Engine) : Client → Engine → Prop
  | finds (h : Handle) (phase : c.phase = .fresh) (found : e.registry.find? c.key = some h) :
      Goes c e { c with phase := .holds h } e
  | misses (phase : c.phase = .fresh) (absent : e.registry.find? c.key = none) : Goes c e { c with phase := .missed } e
  | loses (h : Handle) (phase : c.phase = .missed) (found : e.registry.find? c.key = some h) :
      Goes c e { c with phase := .holds h } (e.note (.registrationLost c.key.label))
  | creates (phase : c.phase = .missed) (absent : e.registry.find? c.key = none)
      (valid : (e.registry.windowOf c.name c.reg).Valid) :
      Goes c e { c with phase := .created ⟨c.key, e.registry.size⟩ }
        { e with registry := e.registry.insert (c.circuit e valid) }
  | refused (error : SettingsError) (phase : c.phase = .missed) (absent : e.registry.find? c.key = none)
      (invalid : ¬ (e.registry.windowOf c.name c.reg).Valid) :
      Goes c e { c with phase := .refused error } (e.note (.circuitRefused c.key.label error))
  | counts (h : Handle) (phase : c.phase = .created h) :
      Goes c e { c with phase := .counted h } { e with registry := e.registry.countRegistration c.key.label }
  | measures (h : Handle) (phase : c.phase = .counted h) :
      Goes c e { c with phase := .measured h e.registry.size } e
  | shows (h : Handle) (n : Nat) (phase : c.phase = .measured h n) :
      Goes c e { c with phase := .holds h } { e with registry := e.registry.showSize n }
  | reports (h : Handle) (x : Report) (xs : List Report) (phase : c.phase = .holds h) (next : c.reports = x :: xs) :
      Goes c e { c with reports := xs } { e with registry := e.registry.record h x }
  | rests (ended : c.Ended) : Goes c e c e

/-- What a second look that puts a circuit in leads to. -/
theorem step_of_creates (hphase : c.phase = .missed) (hf : e.registry.find? c.key = none)
    (hv : (e.registry.windowOf c.name c.reg).Valid) :
    c.step e = ({ c with phase := .created ⟨c.key, e.registry.size⟩ },
      { e with registry := e.registry.insert (c.circuit e hv) }) := by
  have hf' : e.registry.find? ⟨c.reg.scope, c.name⟩ = none := hf
  simp only [step, hphase, Registry.enter, hf', RegisteredCircuit.create_of_valid hv, key, circuit]

theorem step_of_refused (hphase : c.phase = .missed) (hf : e.registry.find? c.key = none)
    (hv : ¬ (e.registry.windowOf c.name c.reg).Valid) :
    c.step e =
      ({ c with phase := .refused (.invalid ((e.registry.windowOf c.name c.reg).problems Window.commonScope)) },
        e.note (.circuitRefused c.key.label
          (.invalid ((e.registry.windowOf c.name c.reg).problems Window.commonScope)))) := by
  have hf' : e.registry.find? ⟨c.reg.scope, c.name⟩ = none := hf
  simp only [step, hphase, Registry.enter, hf', RegisteredCircuit.create_of_not_valid hv]
  rfl

/-- **Every section** goes in one of these ways. -/
theorem goes (c : Client) (e : Engine) : c.Goes e (c.step e).1 (c.step e).2 := by
  cases hphase : c.phase with
  | fresh =>
    cases hf : e.registry.find? c.key with
    | some h =>
      simp only [step, hphase, hf]
      exact .finds h hphase hf
    | none =>
      simp only [step, hphase, hf]
      exact .misses hphase hf
  | missed =>
    cases hf : e.registry.find? c.key with
    | some h =>
      have hf' : e.registry.find? ⟨c.reg.scope, c.name⟩ = some h := hf
      simp only [step, hphase, Registry.enter, hf']
      exact .loses h hphase hf
    | none =>
      by_cases hv : (e.registry.windowOf c.name c.reg).Valid
      · rw [step_of_creates hphase hf hv]
        exact .creates hphase hf hv
      · rw [step_of_refused hphase hf hv]
        exact .refused _ hphase hf hv
  | created h =>
    simp only [step, hphase]
    exact .counts h hphase
  | counted h =>
    simp only [step, hphase]
    exact .measures h hphase
  | measured h n =>
    simp only [step, hphase]
    exact .shows h n hphase
  | holds h =>
    cases hr : c.reports with
    | nil =>
      simp only [step, hphase, hr]
      exact .rests (by rw [Ended, hphase]; exact hr)
    | cons x xs =>
      have hstep : c.step e = ({ c with reports := xs }, { e with registry := e.registry.record h x }) := by
        simp only [step, hphase, hr]
      rw [hstep]
      exact .reports h x xs hphase hr
  | refused error =>
    simp only [step, hphase]
    exact .rests (by rw [Ended, hphase]; trivial)

/-! ## A client alone -/

/-- Sections of one client in a row. -/
def turns (c : Client) (e : Engine) : Nat → Client × Engine
  | 0 => (c, e)
  | n + 1 => (c.step e).1.turns (c.step e).2 n

/-- Where a registration that went through leaves its client. -/
def Phase.ofAnswer : Except SettingsError Handle → Phase
  | .ok h => .holds h
  | .error error => .refused error

/-- **A client that is left alone** registers its circuit as it is done at once. -/
theorem turns_register (hphase : c.phase = .fresh) : ∃ n,
    c.turns e n = ({ c with phase := Phase.ofAnswer (e.registry.register e.instant c.name c.reg).1 },
      { e with registry := (e.registry.register e.instant c.name c.reg).2 }) := by
  cases hf : e.registry.find? c.key with
  | some h =>
    refine ⟨1, ?_⟩
    rw [Registry.register_of_found hf]
    simp only [turns, step, hphase, hf]
    rfl
  | none =>
    have hmissed : c.step e = ({ c with phase := .missed }, e) := by simp only [step, hphase, hf]
    have hkey : e.registry.find? (Client.key { c with phase := .missed }) = none := hf
    by_cases hv : (e.registry.windowOf c.name c.reg).Valid
    · refine ⟨5, ?_⟩
      rw [Registry.register_of_valid hf hv, turns, hmissed, turns, step_of_creates rfl hkey hv]
      rfl
    · refine ⟨2, ?_⟩
      rw [Registry.register_of_not_valid hf hv, turns, hmissed, turns, step_of_refused rfl hkey hv]
      rfl

theorem Goes.left_le (h : c.Goes e c' e') : c'.left ≤ c.left - 1 := by
  cases h with
  | rests hended =>
    have hnone : c.left = 0 := by
      unfold Ended at hended
      unfold left
      split at hended
      · rename_i h
        rw [h, hended]
        rfl
      · rename_i h
        rw [h]
      · exact hended.elim
    omega
  | reports _ x xs hphase hnext => simp [left, hphase, hnext]
  | _ =>
    simp only [left, *]
    omega

theorem ended_of_left (h : c.left = 0) : c.Ended := by
  unfold left at h
  unfold Ended
  split at h <;> rename_i hphase
  case h_6 =>
    rw [hphase]
    exact List.length_eq_zero_iff.mp h
  case h_7 =>
    rw [hphase]
    trivial
  all_goals omega

end Client

/-! ## What a section leaves -/

namespace Registry

variable (r : Registry) (h : Handle) (x : Report)

theorem circuits_record : (r.record h x).circuits = r.circuits.modify h.index (·.record x) := by
  cases x with
  | call => rfl
  | fallback => exact circuits_reportFallback ..

theorem roll_record : (r.record h x).roll = r.roll := roll_of_record (circuits_record r h x)

theorem settings_record : (r.record h x).settings = r.settings := by
  cases x with
  | call => rfl
  | fallback => exact settings_reportFallback ..

/-- Reports do not move the series that count circuits. -/
theorem value_record {s : Series} (hcalls : ∀ label o, Series.calls label o ≠ s)
    (hfallbacks : ∀ label o, Series.fallbacks label o ≠ s) : (r.record h x).exported.value s = r.exported.value s := by
  cases x with
  | call o t => rw [record, value_report, if_neg (hcalls _ _), Nat.add_zero]
  | fallback o t => rw [record, value_reportFallback, if_neg fun hs => hfallbacks _ _ hs.2, Nat.add_zero]

theorem value_record_registrations (label : String) :
    (r.record h x).exported.value (.registrations label) = r.exported.value (.registrations label) :=
  value_record r h x (fun _ _ => nofun) (fun _ _ => nofun)

theorem value_record_circuits : (r.record h x).exported.value .circuits = r.exported.value .circuits :=
  value_record r h x (fun _ _ => nofun) (fun _ _ => nofun)

theorem roll_insert (c : RegisteredCircuit) : (r.insert c).roll = r.roll ++ [c.name] := by
  simp [roll, insert]

theorem circuit?_insert (c : RegisteredCircuit) : (r.insert c).circuit? ⟨k, r.size⟩ = some c :=
  Array.getElem?_push_size

end Registry

namespace Client

variable {c c' : Client} {e e' : Engine}

theorem Goes.asks_eq (h : c.Goes e c' e') : c'.asks = c.asks := by cases h <;> rfl

theorem Goes.settings_eq (h : c.Goes e c' e') : e'.registry.settings = e.registry.settings := by
  cases h with
  | reports => exact Registry.settings_record ..
  | _ => rfl

/-- A section registers the name of its client, or none. -/
theorem Goes.roll_eq (h : c.Goes e c' e') :
    e'.registry.roll = e.registry.roll ∨
      e.registry.find? c.key = none ∧ e'.registry.roll = e.registry.roll ++ [c.key] := by
  cases h with
  | creates hphase hf hv => exact .inr ⟨hf, Registry.roll_insert ..⟩
  | reports => exact .inl (Registry.roll_record ..)
  | _ => exact .inl rfl

theorem Goes.sound (h : c.Goes e c' e') (hsound : e.registry.Sound) : e'.registry.Sound where
  nodup := by
    rcases h.roll_eq with heq | ⟨hf, heq⟩
    · rw [heq]
      exact hsound.nodup
    · rw [heq, ← List.concat_eq_append]
      exact hsound.nodup.concat (Registry.find?_eq_none_iff.mp hf)
  valid := h.settings_eq.symm ▸ hsound.valid

end Client

/-! ## Rushes -/

/-- Clients of one engine. -/
structure Rush where
  engine : Engine
  clients : List Client

namespace Rush

/-- What may happen in a rush. -/
inductive Move
  /-- A client goes through its next section. -/
  | turn (i : Nat)
  /-- Settings are offered. -/
  | apply (s : Settings)
  /-- Time passes. -/
  | wait (ms : Nat)
deriving DecidableEq

/-- The rush after a move. -/
def step (p : Rush) : Move → Rush
  | .turn i =>
    match p.clients[i]? with
    | some c => ⟨(c.step p.engine).2, p.clients.set i (c.step p.engine).1⟩
    | none => p
  | .apply s => { p with engine := p.engine.perform (.apply s) }
  | .wait ms => { p with engine := p.engine.advance ms }

/-- The rush after a row of moves. -/
def run (p : Rush) (moves : List Move) : Rush := moves.foldl step p

/-- What a move can do. -/
inductive Does (p : Rush) : Move → Rush → Prop
  | turn {i : Nat} {c c' : Client} {e' : Engine} (here : p.clients[i]? = some c) (goes : c.Goes p.engine c' e') :
      Does p (.turn i) ⟨e', p.clients.set i c'⟩
  | nobody {i : Nat} (nobody : p.clients[i]? = none) : Does p (.turn i) p
  | apply (s : Settings) : Does p (.apply s) { p with engine := p.engine.perform (.apply s) }
  | wait (ms : Nat) : Does p (.wait ms) { p with engine := p.engine.advance ms }

theorem does (p : Rush) (m : Move) : p.Does m (p.step m) := by
  cases m with
  | turn i =>
    unfold step
    dsimp only
    split
    · rename_i c hi
      exact .turn hi (c.goes p.engine)
    · rename_i hi
      exact .nobody hi
  | apply s => exact .apply s
  | wait ms => exact .wait ms

/-- A client gets closer to its end by every turn, and no further from it by what others do. -/
theorem left_run {p : Rush} {moves : List Move} {i : Nat} {c : Client} (hi : p.clients[i]? = some c) :
    ∃ c', (p.run moves).clients[i]? = some c' ∧ c'.left ≤ c.left - moves.count (.turn i) := by
  induction moves generalizing p c with
  | nil => exact ⟨c, hi, Nat.le_refl _⟩
  | cons m moves ih =>
    obtain ⟨d, hd, hleft⟩ : ∃ d, (p.step m).clients[i]? = some d ∧ d.left ≤ c.left - if m = .turn i then 1 else 0 := by
      have hdoes := p.does m
      generalize p.step m = q at hdoes
      cases hdoes with
      | @turn j a a' e' hj hgoes =>
        by_cases hij : j = i
        · subst hij
          obtain rfl : a = c := Option.some.inj (hj.symm.trans hi)
          have hlt := (List.getElem?_eq_some_iff.mp hj).1
          exact ⟨a', List.getElem?_set_self hlt, by simpa using hgoes.left_le⟩
        · exact ⟨c, (List.getElem?_set_ne hij).trans hi, by simp [hij]⟩
      | @nobody j hj =>
        have hij : j ≠ i := fun hij => nomatch (hij ▸ hj).symm.trans hi
        exact ⟨c, hi, by simp [hij]⟩
      | apply | wait => exact ⟨c, hi, by simp⟩
    obtain ⟨c', hc', hrest⟩ := ih hd
    refine ⟨c', hc', ?_⟩
    rw [List.count_cons]
    simp only [beq_iff_eq]
    omega

/-- **A client that gets enough turns has ended.** -/
theorem ended_run {p : Rush} {moves : List Move} {i : Nat} {c : Client} (hi : p.clients[i]? = some c)
    (hturns : c.left ≤ moves.count (.turn i)) : ∃ c', (p.run moves).clients[i]? = some c' ∧ c'.Ended := by
  obtain ⟨c', hc', hleft⟩ := left_run hi
  exact ⟨c', hc', Client.ended_of_left (by omega)⟩

end Rush
end CallGuard
