import CallGuard.Proofs.Registry.Permanence
import CallGuard.Proofs.Registry.Rush

/-!
# One of many clients registers the circuit

Any number of clients register the same new name at the same time, each with what it asks for itself, and report through
the handles that they get. `Rush.creators` lists who puts a circuit in, and the engine on which that happens.

* **Invariant** (`Rush.Contested`): as long as the name is unclaimed, no client holds anything and nothing was reported
  (`Rush.Unclaimed`); once a client has claimed it, every handle leads to the circuit of that client, which has counted
  what the clients have reported so far, in whatever order (`Rush.Claimed`).
* **Steps** (`Rush.Contested.step`): every move keeps it.

**Main statement** (`Rush.run_contest`): when all clients have ended, one of them has put the one circuit in, which is
as the settings of that moment and its own registration settle it, all of them hold it, and every report was counted.
-/

namespace CallGuard

/-! ## Who puts a circuit in -/

/-- The next section of the client puts a circuit in. -/
def Client.Creates (c : Client) (e : Engine) : Prop :=
  c.phase = .missed ∧ e.registry.find? c.key = none ∧ (e.registry.windowOf c.name c.reg).Valid

instance (c : Client) (e : Engine) : Decidable (c.Creates e) := inferInstanceAs (Decidable (_ ∧ _))

namespace Rush

/-- The client that puts a circuit in by a move, and the engine at that moment. -/
def creator? (p : Rush) : Move → Option (Nat × Engine)
  | .turn i => p.clients[i]?.bind fun c => if c.Creates p.engine then some (i, p.engine) else none
  | .apply _ | .wait _ => none

/-- The clients that put a circuit in, in the order in which they do, each with the engine at that moment. -/
def creators (p : Rush) : List Move → List (Nat × Engine)
  | [] => []
  | m :: moves => (p.creator? m).toList ++ (p.step m).creators moves

end Rush

/-- A client has put its circuit in and not counted its registration yet. -/
def Client.isCreated (c : Client) : Bool :=
  match c.phase with
  | .created _ => true
  | _ => false

/-- A phase has no other handle than `h`, and is no refusal. -/
def Phase.Leads (h : Handle) : Phase → Prop
  | .fresh | .missed => True
  | .created h' | .counted h' | .measured h' _ | .holds h' => h' = h
  | .refused _ => False

/-! ## The invariant -/

namespace Rush

/-- The name `k` is not registered yet, and nothing was reported. -/
structure Unclaimed (p₀ : Rush) (k : CircuitName) (p : Rush) : Prop where
  absent : p.engine.registry.find? k = none
  phases : ∀ c ∈ p.clients, c.phase = .fresh ∨ c.phase = .missed
  reports : p.clients.map (·.reports) = p₀.clients.map (·.reports)
  size_eq : p.engine.registry.size = p₀.engine.registry.size
  registrations_eq :
    p.engine.registry.exported.value (.registrations k.label) =
      p₀.engine.registry.exported.value (.registrations k.label)

/-- The client `c` put the circuit of `k` in when the engine was `e`, and the circuit has counted the reports `xs`. -/
structure Claimed (p₀ : Rush) (k : CircuitName) (p : Rush) (e : Engine) (c : Client) (h : Handle) (xs : List Report) :
    Prop where
  valid : (e.registry.windowOf c.name c.reg).Valid
  found : p.engine.registry.find? k = some h
  circuit : p.engine.registry.circuit? h = some ((c.circuit e valid).recordAll xs)
  phases : ∀ d ∈ p.clients, d.phase.Leads h
  /-- What was counted and what the clients have still to report is what they had to report at first. -/
  reports : (xs ++ p.clients.flatMap (·.reports)).Perm (p₀.clients.flatMap (·.reports))
  size_eq : p.engine.registry.size = p₀.engine.registry.size + 1
  /-- The registration is counted, or a client is still to do it. -/
  registrations_eq :
    p.engine.registry.exported.value (.registrations k.label) + p.clients.countP Client.isCreated =
      p₀.engine.registry.exported.value (.registrations k.label) + 1

/-- What every move keeps of a rush for one name that began as `p₀`; `winners` are those who put a circuit in. -/
structure Contested (p₀ : Rush) (k : CircuitName) (winners : List (Nat × Engine)) (p : Rush) : Prop where
  sound : p.engine.registry.Sound
  asks_eq : p.clients.map Client.asks = p₀.clients.map Client.asks
  stand : winners = [] ∧ Unclaimed p₀ k p ∨ ∃ i e c h xs, winners = [(i, e)] ∧ p₀.clients[i]? = some c ∧
    Claimed p₀ k p e c h xs

variable {p₀ p : Rush} {k : CircuitName} {winners : List (Nat × Engine)}

/-- A client is who it was at first, but for how far it has come. -/
theorem Contested.exists_client (h : Contested p₀ k winners p) {i : Nat} {c : Client} (hi : p.clients[i]? = some c) :
    ∃ c₀, p₀.clients[i]? = some c₀ ∧ c₀.asks = c.asks := by
  have hasks : (p₀.clients.map Client.asks)[i]? = some c.asks := by
    rw [← h.asks_eq, List.getElem?_map, hi, Option.map_some]
  rwa [List.getElem?_map, Option.map_eq_some_iff] at hasks

/-! ## Before the name is claimed -/

theorem Unclaimed.congr (hu : Unclaimed p₀ k p) {q : Rush}
    (hcircuits : q.engine.registry.circuits = p.engine.registry.circuits)
    (hphases : ∀ c ∈ q.clients, c.phase = .fresh ∨ c.phase = .missed)
    (hreports : q.clients.map (·.reports) = p.clients.map (·.reports))
    (hvalue : q.engine.registry.exported.value (.registrations k.label) =
      p.engine.registry.exported.value (.registrations k.label)) :
    Unclaimed p₀ k q where
  absent := (Registry.find?_congr (Registry.roll_congr hcircuits) k).trans hu.absent
  phases := hphases
  reports := hreports.trans hu.reports
  size_eq := by rw [← hu.size_eq, Registry.size, Registry.size, hcircuits]
  registrations_eq := hvalue.trans hu.registrations_eq

section Turn

variable {i : Nat} {c c' : Client} {e' : Engine}

theorem creator?_turn (hi : p.clients[i]? = some c) :
    p.creator? (.turn i) = if c.Creates p.engine then some (i, p.engine) else none := by
  rw [creator?, hi, Option.bind_some]

theorem creator?_of_found (hi : p.clients[i]? = some c) {h : Handle} (hf : p.engine.registry.find? c.key = some h) :
    p.creator? (.turn i) = none := by
  rw [creator?_turn hi, if_neg]
  rintro ⟨-, habsent, -⟩
  exact nomatch habsent.symm.trans hf

/-- Whoever misses an unclaimed name twice claims it. -/
theorem Unclaimed.claim (hu : Unclaimed p₀ c.key p) (hsound : p.engine.registry.Sound) (hi : p.clients[i]? = some c)
    (hphase : c.phase = .missed) (hf : p.engine.registry.find? c.key = none)
    (hv : (p.engine.registry.windowOf c.name c.reg).Valid) {c₀ : Client} (hasks : c₀.asks = c.asks) :
    Claimed p₀ c.key
      ⟨{ p.engine with registry := p.engine.registry.insert (c.circuit p.engine hv) },
        p.clients.set i { c with phase := .created ⟨c.key, p.engine.registry.size⟩ }⟩
      p.engine c₀ ⟨c.key, p.engine.registry.size⟩ [] := by
  have hgoes : c.Goes p.engine _ _ := .creates hphase hf hv
  have hnodup := (hgoes.sound hsound).nodup
  obtain ⟨hname, hreg⟩ := Prod.mk.inj hasks
  have hvalid : (p.engine.registry.windowOf c₀.name c₀.reg).Valid := by rwa [hname, hreg]
  have hcircuit : c₀.circuit p.engine hvalid = c.circuit p.engine hv := by
    simp only [Client.circuit, Client.key, hname, hreg]
  constructor
  case valid => exact hvalid
  case found =>
    rw [Registry.find?_eq_some_iff hnodup, Registry.getElem?_roll]
    refine ⟨rfl, ?_⟩
    change (Registry.circuit? (p.engine.registry.insert _) ⟨c.key, p.engine.registry.size⟩).map (·.name) = _
    rw [Registry.circuit?_insert]
    rfl
  case circuit => rw [hcircuit, Registry.circuit?_insert]; rfl
  case phases =>
    refine forall_mem_set (fun d hd => ?_) rfl
    rcases hu.phases d hd with hfresh | hmissed
    · rw [hfresh]
      trivial
    · rw [hmissed]
      trivial
  case reports =>
    rw [List.nil_append, List.flatMap_def, List.flatMap_def, ← hu.reports]
    exact .of_eq (congrArg List.flatten (map_set_of_eq hi rfl))
  case size_eq =>
    rw [← hu.size_eq]
    exact Array.size_push ..
  case registrations_eq =>
    have hnone : p.clients.countP Client.isCreated = 0 := by
      rw [List.countP_eq_zero]
      intro d hd
      rcases hu.phases d hd with hfresh | hmissed
      · simp [Client.isCreated, hfresh]
      · simp [Client.isCreated, hmissed]
    have hrow := countP_set_add Client.isCreated hi { c with phase := .created ⟨c.key, p.engine.registry.size⟩ }
    have hc : c.isCreated = false := by rw [Client.isCreated, hphase]
    rw [hnone, hc] at hrow
    rw [Registry.value_insert, hu.registrations_eq]
    exact congrArg _ hrow

/-- Of an unclaimed name the next section of a client misses the circuit, or puts it in. -/
theorem Unclaimed.turn (hu : Unclaimed p₀ k p) (hsound : p.engine.registry.Sound) (hi : p.clients[i]? = some c)
    (hkey : c.key = k) (hgood : ¬ c.reg.AsksBadWindow) (hgoes : c.Goes p.engine c' e') :
    p.creator? (.turn i) = none ∧ Unclaimed p₀ k ⟨e', p.clients.set i c'⟩ ∨
      p.creator? (.turn i) = some (i, p.engine) ∧ ∀ c₀ : Client, c₀.asks = c.asks →
        Claimed p₀ k ⟨e', p.clients.set i c'⟩ p.engine c₀ ⟨k, p.engine.registry.size⟩ [] := by
  subst hkey
  have hmem := List.mem_of_getElem? hi
  have hnothing : ∀ {phase : Phase}, c.phase = phase → phase ≠ .fresh → phase ≠ .missed → False :=
    fun heq h₁ h₂ => (hu.phases c hmem).elim (fun h => h₁ (heq.symm.trans h)) fun h => h₂ (heq.symm.trans h)
  cases hgoes with
  | finds h _ hf | loses h _ hf => exact nomatch hu.absent.symm.trans hf
  | misses hphase =>
    left
    refine ⟨?_, hu.congr rfl ?_ (map_set_of_eq hi rfl) rfl⟩
    · rw [creator?_turn hi, if_neg]
      rintro ⟨hmissed, -⟩
      exact nomatch hmissed.symm.trans hphase
    · exact forall_mem_set hu.phases (.inr rfl)
  | creates hphase hf hv =>
    right
    refine ⟨by rw [creator?_turn hi, if_pos ⟨hphase, hf, hv⟩], fun c₀ hasks => ?_⟩
    exact hu.claim hsound hi hphase hf hv hasks
  | refused _ _ _ hv => exact absurd ((Registry.windowOf_valid_iff hsound.valid c.name c.reg).mpr hgood) hv
  | counts _ hphase | measures _ hphase | shows _ _ hphase | reports _ _ _ hphase =>
    exact (hnothing hphase nofun nofun).elim
  | rests hended =>
    unfold Client.Ended at hended
    rcases hu.phases c hmem with hphase | hphase <;> rw [hphase] at hended <;> exact hended.elim

/-! ## After the name was claimed -/

variable {e : Engine} {c₀ : Client} {h : Handle} {xs : List Report}

theorem Claimed.congr (hclaimed : Claimed p₀ k p e c₀ h xs) {q : Rush}
    (hcircuits : q.engine.registry.circuits = p.engine.registry.circuits) (hphases : ∀ d ∈ q.clients, d.phase.Leads h)
    (hreports : q.clients.map (·.reports) = p.clients.map (·.reports))
    (hcount : q.engine.registry.exported.value (.registrations k.label) + q.clients.countP Client.isCreated =
      p.engine.registry.exported.value (.registrations k.label) + p.clients.countP Client.isCreated) :
    Claimed p₀ k q e c₀ h xs where
  valid := hclaimed.valid
  found := (Registry.find?_congr (Registry.roll_congr hcircuits) k).trans hclaimed.found
  circuit := by rw [← hclaimed.circuit, Registry.circuit?, Registry.circuit?, hcircuits]
  phases := hphases
  reports := by
    rw [List.flatMap_def, hreports, ← List.flatMap_def]
    exact hclaimed.reports
  size_eq := by rw [← hclaimed.size_eq, Registry.size, Registry.size, hcircuits]
  registrations_eq := hcount.trans hclaimed.registrations_eq

/-- A section keeps the claim if it leaves the circuits and the reports, and counts no registration but its own. -/
theorem Claimed.keep (hclaimed : Claimed p₀ k p e c₀ h xs) (hi : p.clients[i]? = some c)
    (hcircuits : e'.registry.circuits = p.engine.registry.circuits) (hphase : c'.phase.Leads h)
    (hreports : c'.reports = c.reports)
    (hcount : e'.registry.exported.value (.registrations k.label) + c'.isCreated.toNat =
      p.engine.registry.exported.value (.registrations k.label) + c.isCreated.toNat) :
    Claimed p₀ k ⟨e', p.clients.set i c'⟩ e c₀ h xs := by
  refine hclaimed.congr hcircuits (forall_mem_set hclaimed.phases hphase) (map_set_of_eq hi hreports) ?_
  have hrow := countP_set_add Client.isCreated hi c'
  change e'.registry.exported.value _ + (p.clients.set i c').countP _ = _
  omega

/-- A report reaches the one circuit. -/
theorem Claimed.report (hclaimed : Claimed p₀ k p e c₀ h xs) (hi : p.clients[i]? = some c)
    (hphase : c.phase = .holds h) {x : Report} {rest : List Report} (hnext : c.reports = x :: rest) :
    Claimed p₀ k
      ⟨{ p.engine with registry := p.engine.registry.record h x }, p.clients.set i { c with reports := rest }⟩
      e c₀ h (xs ++ [x]) where
  valid := hclaimed.valid
  found := by rw [← hclaimed.found]; exact Registry.find?_congr (Registry.roll_record ..) k
  circuit := by
    rw [Registry.circuit?, Registry.circuits_record, Array.getElem?_modify, if_pos rfl,
      RegisteredCircuit.recordAll_append]
    exact congrArg (Option.map (·.record x)) hclaimed.circuit
  phases := forall_mem_set hclaimed.phases (hphase ▸ rfl)
  reports := by
    have hrow := flatMap_set_perm Client.reports hi { c with reports := rest }
    rw [hnext] at hrow
    have hmoved : (rest ++ (x :: (p.clients.set i { c with reports := rest }).flatMap Client.reports)).Perm
        (rest ++ p.clients.flatMap Client.reports) := List.perm_middle.trans hrow
    rw [List.append_assoc]
    exact (((List.perm_append_left_iff rest).mp hmoved).append_left xs).trans hclaimed.reports
  size_eq := by rw [← hclaimed.size_eq, ← Registry.length_roll, ← Registry.length_roll, Registry.roll_record]
  registrations_eq := by
    have hrow := countP_set_add Client.isCreated hi { c with reports := rest }
    have hsame : Client.isCreated { c with reports := rest } = c.isCreated := rfl
    rw [hsame] at hrow
    rw [Registry.value_record_registrations, ← hclaimed.registrations_eq]
    exact congrArg _ (Nat.add_right_cancel hrow)

/-- Of a claimed name the next section of a client puts nothing in. -/
theorem Claimed.turn (hclaimed : Claimed p₀ k p e c₀ h xs) (hi : p.clients[i]? = some c) (hkey : c.key = k)
    (hgoes : c.Goes p.engine c' e') :
    p.creator? (.turn i) = none ∧ ∃ ys, Claimed p₀ k ⟨e', p.clients.set i c'⟩ e c₀ h ys := by
  subst hkey
  refine ⟨creator?_of_found hi hclaimed.found, ?_⟩
  have hleads := hclaimed.phases c (List.mem_of_getElem? hi)
  cases hgoes with
  | finds h' hphase hf | loses h' hphase hf =>
    obtain rfl : h' = h := Option.some.inj (hf.symm.trans hclaimed.found)
    exact ⟨xs, hclaimed.keep hi rfl rfl rfl (by simp [Client.isCreated, hphase, Engine.note, Registry.note])⟩
  | misses _ hf | creates _ hf | refused _ _ hf => exact nomatch hf.symm.trans hclaimed.found
  | counts h' hphase =>
    rw [hphase] at hleads
    refine ⟨xs, hclaimed.keep hi rfl hleads rfl ?_⟩
    rw [Registry.value_countRegistration, if_pos rfl]
    simp [Client.isCreated, hphase]
  | measures h' hphase =>
    rw [hphase] at hleads
    exact ⟨xs, hclaimed.keep hi rfl hleads rfl (by simp [Client.isCreated, hphase])⟩
  | shows h' n hphase =>
    rw [hphase] at hleads
    refine ⟨xs, hclaimed.keep hi rfl hleads rfl ?_⟩
    rw [Registry.value_showSize, if_neg nofun]
    simp [Client.isCreated, hphase]
  | reports h' x rest hphase hnext =>
    rw [hphase] at hleads
    obtain rfl : h' = h := hleads
    exact ⟨_, hclaimed.report hi hphase hnext⟩
  | rests => exact ⟨xs, hclaimed.keep hi rfl hleads rfl rfl⟩

end Turn

/-! ## Runs -/

/-- Of all clients that began the same name is asked for, with windows that can be counted in. -/
def Asks (p₀ : Rush) (k : CircuitName) : Prop := ∀ c ∈ p₀.clients, c.key = k ∧ ¬ c.reg.AsksBadWindow

/-- Settings that are offered and time that passes leave the circuits, the clients and the series. -/
theorem Contested.quiet (h : Contested p₀ k winners p) {e : Engine} (hsound : e.registry.Sound)
    (hcircuits : e.registry.circuits = p.engine.registry.circuits)
    (hexported : e.registry.exported = p.engine.registry.exported) :
    Contested p₀ k winners { p with engine := e } where
  sound := hsound
  asks_eq := h.asks_eq
  stand := by
    rcases h.stand with ⟨hnone, hu⟩ | ⟨i, e₁, c, hd, xs, hone, hi, hclaimed⟩
    · exact .inl ⟨hnone, hu.congr hcircuits hu.phases rfl (by rw [hexported])⟩
    · exact .inr ⟨i, e₁, c, hd, xs, hone, hi, hclaimed.congr hcircuits hclaimed.phases rfl (by rw [hexported])⟩

/-- **A section** of a client keeps the invariant. -/
theorem Contested.turn (hasks : p₀.Asks k) (h : Contested p₀ k winners p) {i : Nat} {c c' : Client} {e' : Engine}
    (hi : p.clients[i]? = some c) (hgoes : c.Goes p.engine c' e') :
    Contested p₀ k (winners ++ (p.creator? (.turn i)).toList) ⟨e', p.clients.set i c'⟩ where
  sound := hgoes.sound h.sound
  asks_eq := (map_set_of_eq hi hgoes.asks_eq).trans h.asks_eq
  stand := by
    obtain ⟨c₀, hi₀, hsame⟩ := h.exists_client hi
    obtain ⟨hname, hreg⟩ := Prod.mk.inj hsame
    obtain ⟨hkey, hgood⟩ := hasks c₀ (List.mem_of_getElem? hi₀)
    rw [Client.key, hname, hreg] at hkey
    rw [hreg] at hgood
    rcases h.stand with ⟨hnone, hu⟩ | ⟨i₁, e₁, c₁, hd, xs, hone, hi₁, hclaimed⟩
    · rcases hu.turn h.sound hi hkey hgood hgoes with ⟨hcreator, hu'⟩ | ⟨hcreator, hclaimed⟩
      · rw [hcreator, hnone]
        exact .inl ⟨rfl, hu'⟩
      · rw [hcreator, hnone]
        exact .inr ⟨i, p.engine, c₀, _, [], rfl, hi₀, hclaimed c₀ hsame⟩
    · obtain ⟨hcreator, ys, hclaimed'⟩ := hclaimed.turn hi hkey hgoes
      rw [hcreator, hone]
      exact .inr ⟨i₁, e₁, c₁, hd, ys, rfl, hi₁, hclaimed'⟩

/-- **Every move** keeps the invariant. -/
theorem Contested.step (hasks : p₀.Asks k) (h : Contested p₀ k winners p) (m : Move) :
    Contested p₀ k (winners ++ (p.creator? m).toList) (p.step m) := by
  have hdoes := p.does m
  generalize p.step m = q at hdoes
  cases hdoes with
  | turn hi hgoes => exact h.turn hasks hi hgoes
  | nobody hi => simpa [creator?, hi] using h
  | apply s =>
    rw [creator?, Option.toList_none, List.append_nil]
    exact h.quiet (Engine.sound_perform h.sound _) (Engine.circuits_perform_of_quiet rfl rfl)
      (Engine.exported_perform_apply _ _)
  | wait ms =>
    rw [creator?, Option.toList_none, List.append_nil]
    exact h.quiet h.sound rfl rfl

theorem Contested.run (hasks : p₀.Asks k) (h : Contested p₀ k winners p) (moves : List Move) :
    Contested p₀ k (winners ++ p.creators moves) (p.run moves) := by
  induction moves generalizing winners p with
  | nil => simpa [creators, Rush.run] using h
  | cons m moves ih =>
    rw [creators, ← List.append_assoc]
    exact ih (h.step hasks m)

/-- Whoever puts a circuit in does so by a move of the run, and the engine is the one before that move. -/
theorem exists_of_mem_creators {moves : List Move} {i : Nat} {e : Engine} (h : (i, e) ∈ p.creators moves) :
    ∃ before after, moves = before ++ .turn i :: after ∧ e = (p.run before).engine := by
  induction moves generalizing p with
  | nil => cases h
  | cons m moves ih =>
    rcases List.mem_append.mp h with hnow | hlater
    · refine ⟨[], moves, ?_, ?_⟩
      all_goals
        cases m with
        | turn j =>
          simp only [creator?, Option.mem_toList, Option.bind_eq_some_iff] at hnow
          obtain ⟨c, -, hc⟩ := hnow
          split at hc <;> cases hc
          rfl
        | apply | wait => cases hnow
    · obtain ⟨before, after, rfl, he⟩ := ih hlater
      exact ⟨m :: before, after, rfl, he⟩

end Rush

/-! ## What the circuit has counted -/

namespace RegisteredCircuit

variable {b : RegisteredCircuit} {w : Window} {origin : Int} {xs : List Report}

/-- If all calls with an outcome ended in the queried bucket, the window shows all of them. -/
theorem Replays.rollingSum_calls (hb : b.Replays w origin xs) {o : CallOutcome} {q : Int}
    (h : ∀ t, .call o t ∈ xs →
      (b.calls.counter o.category).bucketId t = (b.calls.counter o.category).bucketId q) :
    (b.calls.counter o.category).rollingSum q = (b.calls.counter o.category).total := by
  refine Stats.rollingSum_run_of_one_bucket CallOutcome.classifier hb.calls_eq fun r hr hcategory => ?_
  obtain ⟨x, hx, hcall⟩ := List.mem_filterMap.mp hr
  cases x with
  | call o' t =>
    cases hcall
    obtain rfl : o' = o := CallOutcome.category_injective hcategory
    exact h t hx
  | fallback => cases hcall

/-- So it is with fallbacks, if they are counted. -/
theorem Replays.rollingSum_fallbacks (hb : b.Replays w origin xs) {f : FallbackStats} (hf : f ∈ b.fallbacks)
    {o : FallbackOutcome} {q : Int}
    (h : ∀ t, .fallback o t ∈ xs → (f.counter o.category).bucketId t = (f.counter o.category).bucketId q) :
    (f.counter o.category).rollingSum q = (f.counter o.category).total := by
  refine Stats.rollingSum_run_of_one_bucket FallbackOutcome.classifier (hb.fallbacks_eq f hf) fun r hr hcategory => ?_
  obtain ⟨x, hx, hfallback⟩ := List.mem_filterMap.mp hr
  cases x with
  | call => cases hfallback
  | fallback o' t =>
    cases hfallback
    obtain rfl : o' = o := FallbackOutcome.category_injective hcategory
    exact h t hx

end RegisteredCircuit

/-! ## The end of a contest -/

namespace Rush

/-- How a contest for the name `k` ends: client `i`, who is `c`, put the circuit in when the engine was `e`; it is found
by the handle `h`, and it is `b` in the end. -/
structure Won (p : Rush) (k : CircuitName) (moves : List Move) (i : Nat) (e : Engine) (c : Client) (h : Handle)
    (b : RegisteredCircuit) : Prop where
  winner : p.clients[i]? = some c
  /-- It is the only client that puts a circuit in, and does so once. -/
  creators_eq : p.creators moves = [(i, e)]
  moment : ∃ before after, moves = before ++ .turn i :: after ∧ e = (p.run before).engine
  /-- All clients hold the same circuit. -/
  holds : ∀ d ∈ (p.run moves).clients, d.phase = .holds h
  found : (p.run moves).engine.registry.find? k = some h
  circuit : (p.run moves).engine.registry.circuit? h = some b
  size_eq : (p.run moves).engine.registry.size = p.engine.registry.size + 1
  registrations_eq : (p.run moves).engine.registry.exported.value (.registrations k.label) =
    p.engine.registry.exported.value (.registrations k.label) + 1
  /-- Its window, and whether its fallbacks are counted, are the winner's, else those of the settings in force then. -/
  settled : b.Settled e.registry.settings c.name c.reg e.instant
  /-- Every report of every client was counted. -/
  calls : ∀ o, b.callTotal o = (p.clients.flatMap (·.reports)).countP (·.isCall o)
  fallbacks : b.fallbacks.isSome → ∀ o,
    b.fallbackTotal o = (p.clients.flatMap (·.reports)).countP (·.isFallback o)
  /-- If all reports that a counter has seen belong to one bucket, its window shows its total there. -/
  calls_rolling : ∀ o q,
    (∀ t, .call o t ∈ p.clients.flatMap (·.reports) →
      (b.calls.counter o.category).bucketId t = (b.calls.counter o.category).bucketId q) →
    (b.calls.counter o.category).rollingSum q = b.callTotal o
  fallbacks_rolling : ∀ f ∈ b.fallbacks, ∀ o q,
    (∀ t, .fallback o t ∈ p.clients.flatMap (·.reports) →
      (f.counter o.category).bucketId t = (f.counter o.category).bucketId q) →
    (f.counter o.category).rollingSum q = b.fallbackTotal o

variable {p p₀ : Rush} {k : CircuitName}

/-- A name that was asked for does not stay unclaimed. -/
theorem Unclaimed.not_ended (hu : Unclaimed p₀ k p) (hsome : p.clients ≠ []) : ¬ ∀ c ∈ p.clients, c.Ended := by
  obtain ⟨c, hc⟩ := List.exists_mem_of_ne_nil _ hsome
  intro hended
  have hc' := hended c hc
  unfold Client.Ended at hc'
  rcases hu.phases c hc with hphase | hphase <;> rw [hphase] at hc' <;> exact hc'.elim

/-- Where the phase leads to a handle, the client ends with it and has nothing left to report. -/
theorem holds_of_ended {c : Client} {h : Handle} (hleads : c.phase.Leads h) (hended : c.Ended) :
    c.phase = .holds h ∧ c.reports = [] := by
  unfold Client.Ended at hended
  split at hended
  · rename_i h' hphase
    rw [hphase] at hleads ⊢
    exact ⟨congrArg Phase.holds hleads, hended⟩
  · rename_i hphase
    rw [hphase] at hleads
    exact hleads.elim
  · exact hended.elim

/-- **One of many clients registers the circuit**, all of them get it, and no report is lost. -/
theorem run_contest (hsound : p.engine.registry.Sound) (habsent : p.engine.registry.find? k = none)
    (hsome : p.clients ≠ []) (hfresh : ∀ c ∈ p.clients, c.phase = .fresh) (hasks : p.Asks k) (moves : List Move)
    (hended : ∀ c ∈ (p.run moves).clients, c.Ended) : ∃ i e c h b, p.Won k moves i e c h b := by
  have hstart : Contested p k [] p :=
    ⟨hsound, rfl, .inl ⟨rfl, habsent, fun c hc => .inl (hfresh c hc), rfl, rfl, rfl⟩⟩
  have hrun := hstart.run hasks moves
  rw [List.nil_append] at hrun
  have hsome' : (p.run moves).clients ≠ [] := by
    intro hnone
    have hasks := hrun.asks_eq
    rw [hnone, List.map_nil, eq_comm, List.map_eq_nil_iff] at hasks
    exact hsome hasks
  rcases hrun.stand with ⟨-, hu⟩ | ⟨i, e, c, h, xs, hone, hi, hclaimed⟩
  · exact absurd hended (hu.not_ended hsome')
  have hheld : ∀ d ∈ (p.run moves).clients, d.phase = .holds h ∧ d.reports = [] :=
    fun d hd => holds_of_ended (hclaimed.phases d hd) (hended d hd)
  have hnothing : (p.run moves).clients.flatMap (·.reports) = [] :=
    List.flatMap_eq_nil_iff.mpr fun d hd => (hheld d hd).2
  have hperm : xs.Perm (p.clients.flatMap (·.reports)) := by
    have hreports := hclaimed.reports
    rwa [hnothing, List.append_nil] at hreports
  have hcounted : (p.run moves).clients.countP Client.isCreated = 0 := by
    rw [List.countP_eq_zero]
    intro d hd
    simp [Client.isCreated, (hheld d hd).1]
  have hreplays : ((c.circuit e hclaimed.valid).recordAll xs).Replays (e.registry.windowOf c.name c.reg) e.instant xs :=
    RegisteredCircuit.replays_start ..
  refine ⟨i, e, c, h, (c.circuit e hclaimed.valid).recordAll xs, ?_⟩
  constructor
  case winner => exact hi
  case creators_eq => exact hone
  case moment => exact exists_of_mem_creators (hone ▸ List.mem_singleton_self _)
  case holds => exact fun d hd => (hheld d hd).1
  case found => exact hclaimed.found
  case circuit => exact hclaimed.circuit
  case size_eq => exact hclaimed.size_eq
  case registrations_eq =>
    have hregistrations := hclaimed.registrations_eq
    rwa [hcounted, Nat.add_zero] at hregistrations
  case settled => exact (RegisteredCircuit.settled_start e.registry hclaimed.valid e.instant).recordAll xs
  case calls =>
    intro o
    rw [RegisteredCircuit.callTotal_recordAll, Client.circuit, RegisteredCircuit.callTotal_start, Nat.zero_add,
      hperm.countP_eq]
  case fallbacks =>
    intro htracked o
    rw [RegisteredCircuit.fallbacks_recordAll, Option.isSome_map] at htracked
    rw [RegisteredCircuit.fallbackTotal_recordAll _ _ htracked, Client.circuit, RegisteredCircuit.fallbackTotal_start,
      Nat.zero_add, hperm.countP_eq]
  case calls_rolling =>
    intro o q hq
    exact hreplays.rollingSum_calls fun t ht => hq t (hperm.mem_iff.mp ht)
  case fallbacks_rolling =>
    intro f hf o q hq
    have htotal : (f.counter o.category).total = ((c.circuit e hclaimed.valid).recordAll xs).fallbackTotal o := by
      rw [RegisteredCircuit.fallbackTotal, Option.mem_def.mp hf, Option.elim_some]
    rw [← htotal]
    exact hreplays.rollingSum_fallbacks hf fun t ht => hq t (hperm.mem_iff.mp ht)

end Rush

namespace Jostling

/-- Two clients of one name: the first asks for a window, the second for none and that no fallbacks be counted. -/
def rush : Rush where
  engine := .start {}
  clients := [⟨"db", { window := some { buckets := 2 } }, [.call .success 0, .fallback .failure 0], .fresh⟩,
    ⟨"db", { trackFallback := some false }, [.call .success 5, .call .timeout 7], .fresh⟩]

/-- Both look and miss; new settings are put in force; the second puts its circuit in, and the first finds it. -/
def moves : List Rush.Move :=
  [.turn 0, .turn 1, .apply { window := { buckets := 3 } }, .turn 1, .turn 0, .turn 0, .turn 1, .turn 0, .turn 1,
    .turn 1, .turn 1, .wait 3, .turn 1]

end Jostling

/-- The second client wins, its window is that of the new settings, and the successes of both are counted. -/
theorem Rush.run_contest_jostling : Jostling.rush.engine.registry.Sound ∧
    Jostling.rush.engine.registry.find? ⟨"", "db"⟩ = none ∧ Jostling.rush.clients ≠ [] ∧
    (∀ c ∈ Jostling.rush.clients, c.phase = .fresh) ∧ Jostling.rush.Asks ⟨"", "db"⟩ ∧
    (∀ c ∈ (Jostling.rush.run Jostling.moves).clients, c.Ended) ∧
    ∃ e c h b, Jostling.rush.Won ⟨"", "db"⟩ Jostling.moves 1 e c h b ∧ b.window = { buckets := 3 } ∧
      b.fallbacks.isSome = false ∧ b.callTotal .success = 2 := by
  have hsound : Jostling.rush.engine.registry.Sound :=
    Registry.sound_of_create (Engine.create_start (s := {}) (by decide +kernel))
  have habsent : Jostling.rush.engine.registry.find? ⟨"", "db"⟩ = none := by decide +kernel
  have hfresh : ∀ c ∈ Jostling.rush.clients, c.phase = .fresh := by decide +kernel
  have hasks : Jostling.rush.Asks ⟨"", "db"⟩ := by
    intro c hc
    rcases List.mem_pair.mp hc with rfl | rfl
    · refine ⟨rfl, ?_⟩
      rintro ⟨w, hw, hbad⟩
      cases hw
      exact absurd hbad (by decide)
    · refine ⟨rfl, ?_⟩
      rintro ⟨w, hw, -⟩
      cases hw
  have hended : ∀ c ∈ (Jostling.rush.run Jostling.moves).clients, c.Ended := by decide +kernel
  obtain ⟨i, e, c, h, b, hwon⟩ := run_contest hsound habsent nofun hfresh hasks Jostling.moves hended
  have hcreators : (Jostling.rush.creators Jostling.moves).map (fun x => (x.1, x.2.registry.settings)) =
      [(1, { window := { buckets := 3 } })] := by decide +kernel
  rw [hwon.creators_eq] at hcreators
  obtain ⟨rfl, hsettings⟩ := Prod.mk.inj (List.head_eq_of_cons_eq hcreators)
  obtain rfl := Option.some.inj hwon.winner
  refine ⟨hsound, habsent, nofun, hfresh, hasks, hended, e, _, h, b, hwon, ?_, hwon.settled.tracks_eq, ?_⟩
  · rw [hwon.settled.window_eq, hsettings]
    rfl
  · rw [hwon.calls]
    rfl

end CallGuard
