import CallGuard.Proofs.Execution.Pool
import CallGuard.Proofs.Execution.Twins
import CallGuard.Proofs.Registry.Exports

/-!
# Statistics never steer

Two engines do the same deeds, on registries that may have nothing in common: other windows, other settings, other
circuits, other reports so far, fallbacks that are counted in one and not in the other. Their scripts (`Engine.Twins`)
create circuits of the same names and the same limits, and whatever one calls the other calls through the circuit that
was created by the same deed.

* **Totals** (`Engine.callTotal_perform`): the lifetime totals of a name grow by the reports of that name and by nothing
  else, registrations included.
* **Registries** (`Registry.Abreast`): each finds its half of the circuits that were created, and the totals of both
  have grown alike.

**Main statement** (`Engine.unsteered_of_twins`): the answers are the same all the way, and after every deed the engines
are level: they agree in the clock, the signals and the permits of twins, and totals have grown alike since the
beginning.
-/

namespace CallGuard

variable {α : Type}

/-! ## Totals of a name -/

/-- How many calls on the circuit of a name ended with the outcome: none if there is no such circuit. -/
def Registry.callTotal (r : Registry) (k : CircuitName) (o : CallOutcome) : Nat :=
  (r.circuitNamed? k).elim 0 (·.callTotal o)

/-- **One operation** adds what it reports of the name to the totals. -/
theorem Engine.callTotal_perform {e : Engine} {op : Operation} (hr : e.registry.roll.Nodup) (hold : e.Holds op)
    (k : CircuitName) (o : CallOutcome) : (e.perform op).registry.callTotal k o =
      e.registry.callTotal k o + (op.reportOf k).toList.countP (·.isCall o) := by
  cases hc : e.registry.circuitNamed? k with
  | some c =>
    rw [Registry.callTotal, Registry.callTotal, circuitNamed?_perform_of_some hr hold hc, hc]
    exact c.callTotal_recordAll _ o
  | none =>
    have hk := (Registry.circuitNamed?_eq_none_iff hr).mp hc
    rw [Registry.callTotal, Registry.callTotal, circuitNamed?_perform_of_none hr hk, hold.reportOf_eq_none hk, hc]
    cases hnew : e.newcomer? k op with
    | none => rfl
    | some c =>
      obtain ⟨w, valid, track, rfl⟩ := newcomer?_eq_start hnew
      exact RegisteredCircuit.callTotal_start valid e.instant k track o

namespace Registry

variable {b₁ b₂ r r' r₁ r₂ r₁' r₂' : Registry}

theorem callTotal_congr (h : r'.circuits = r.circuits) : r'.callTotal = r.callTotal := by
  have hlookup : r'.circuit? = r.circuit? := by funext h'; rw [circuit?, circuit?, h]
  funext k o
  rw [callTotal, callTotal, circuitNamed?, circuitNamed?, find?_congr (roll_congr h), hlookup]

/-- The totals of calls are as many more than in `b₁` as they are more than in `b₂`. -/
def GrowAlike (b₁ b₂ r₁ r₂ : Registry) : Prop :=
  ∀ k o, ∃ n, r₁.callTotal k o = b₁.callTotal k o + n ∧ r₂.callTotal k o = b₂.callTotal k o + n

theorem GrowAlike.refl (b₁ b₂ : Registry) : GrowAlike b₁ b₂ b₁ b₂ := fun _ _ => ⟨0, rfl, rfl⟩

theorem GrowAlike.congr (h : GrowAlike b₁ b₂ r₁ r₂) (h₁ : r₁'.circuits = r₁.circuits)
    (h₂ : r₂'.circuits = r₂.circuits) : GrowAlike b₁ b₂ r₁' r₂' := by
  rwa [GrowAlike, callTotal_congr h₁, callTotal_congr h₂]

/-- The same reports keep totals growing alike. -/
theorem GrowAlike.perform {e₁ e₂ : Engine} {op₁ op₂ : Operation} (h : GrowAlike b₁ b₂ e₁.registry e₂.registry)
    (hr₁ : e₁.registry.roll.Nodup) (hr₂ : e₂.registry.roll.Nodup) (hold₁ : e₁.Holds op₁) (hold₂ : e₂.Holds op₂)
    (hsame : ∀ k, op₂.reportOf k = op₁.reportOf k) :
    GrowAlike b₁ b₂ (e₁.perform op₁).registry (e₂.perform op₂).registry := by
  intro k o
  obtain ⟨n, h₁, h₂⟩ := h k o
  rw [Engine.callTotal_perform hr₁ hold₁, Engine.callTotal_perform hr₂ hold₂, hsame, h₁, h₂, Nat.add_assoc,
    Nat.add_assoc]
  exact ⟨_, rfl, rfl⟩

/-! ## Registries abreast -/

/-- No name is listed twice, and each of the circuits is found for its name. -/
structure Serves (r : Registry) (circuits : List Circuit) : Prop where
  nodup : r.roll.Nodup
  found : ∀ c ∈ circuits, r.find? c.handle.name = some c.handle

variable {circuits : List Circuit}

theorem Serves.congr (h : r.Serves circuits) (hc : r'.circuits = r.circuits) : r'.Serves circuits where
  nodup := by rw [roll_congr hc]; exact h.nodup
  found c hmem := by rw [find?_congr (roll_congr hc)]; exact h.found c hmem

theorem Serves.perform {e : Engine} (h : e.registry.Serves circuits) (op : Operation) :
    (e.perform op).registry.Serves circuits where
  nodup := Engine.nodup_roll_perform h.nodup op
  found c hmem := Engine.find?_perform h.nodup (h.found c hmem) op

/-- Each registry serves its half of the pairs, and their totals have grown alike since `b₁` and `b₂`. -/
structure Abreast (b₁ b₂ : Registry) (pairs : List (Circuit × Circuit)) (r₁ r₂ : Registry) : Prop where
  serves₁ : r₁.Serves (pairs.map Prod.fst)
  serves₂ : r₂.Serves (pairs.map Prod.snd)
  growAlike : GrowAlike b₁ b₂ r₁ r₂

variable {pairs : List (Circuit × Circuit)}

theorem Abreast.congr (h : Abreast b₁ b₂ pairs r₁ r₂) (h₁ : r₁'.circuits = r₁.circuits)
    (h₂ : r₂'.circuits = r₂.circuits) : Abreast b₁ b₂ pairs r₁' r₂' :=
  ⟨h.serves₁.congr h₁, h.serves₂.congr h₂, h.growAlike.congr h₁ h₂⟩

theorem Abreast.perform {e₁ e₂ : Engine} {op₁ op₂ : Operation} (h : Abreast b₁ b₂ pairs e₁.registry e₂.registry)
    (hold₁ : e₁.Holds op₁) (hold₂ : e₂.Holds op₂) (hsame : ∀ k, op₂.reportOf k = op₁.reportOf k) :
    Abreast b₁ b₂ pairs (e₁.perform op₁).registry (e₂.perform op₂).registry :=
  ⟨h.serves₁.perform op₁, h.serves₂.perform op₂,
    h.growAlike.perform h.serves₁.nodup h.serves₂.nodup hold₁ hold₂ hsame⟩

/-- So does the same report to both halves of a pair. -/
theorem Abreast.record (e₁ e₂ : Engine) (op₁ op₂ : Operation) {c₁ c₂ : Circuit} {x : Report}
    (h : Abreast b₁ b₂ pairs e₁.registry e₂.registry) (hp : (c₁, c₂) ∈ pairs)
    (hname : c₂.handle.name = c₁.handle.name) (hx₁ : op₁.reports = some (c₁.handle, x))
    (hx₂ : op₂.reports = some (c₂.handle, x)) :
    Abreast b₁ b₂ pairs (e₁.perform op₁).registry (e₂.perform op₂).registry := by
  refine h.perform (fun p hmem => ?_) (fun p hmem => ?_) fun k => ?_
  · obtain rfl := Option.some.inj (hx₁.symm.trans hmem)
    exact h.serves₁.found c₁ (List.mem_map_of_mem hp)
  · obtain rfl := Option.some.inj (hx₂.symm.trans hmem)
    exact h.serves₂.found c₂ (List.mem_map_of_mem hp)
  · rw [Operation.reportOf_of_some hx₁, Operation.reportOf_of_some hx₂, hname]

end Registry

/-! ## Circuits of two engines -/

/-- Circuits with the same name and the same limits, and numbers that correspond. -/
structure Circuit.Twin (C : Comparison) (c₁ c₂ : Circuit) : Prop where
  same : C.Same c₁.id c₂.id
  limits_eq : c₂.limits = c₁.limits
  name_eq : c₂.handle.name = c₁.handle.name

namespace Comparison

variable {s₁ s₂ : Engine} {pairs : List (Circuit × Circuit)}

/-- Two engines are compared in what came since they were `s₁` and `s₂`: by the circuits that were created, and by how
the totals of calls have grown. -/
def since (s₁ s₂ : Engine) : Comparison := ⟨s₁.created, s₂.created, Registry.GrowAlike s₁.registry s₂.registry⟩

/-- Besides, each registry serves its half of the pairs. -/
def abreast (s₁ s₂ : Engine) (pairs : List (Circuit × Circuit)) : Comparison :=
  { since s₁ s₂ with registries := Registry.Abreast s₁.registry s₂.registry pairs }

/-- Reports to twins keep registries abreast. -/
theorem twinned_abreast (hpairs : ∀ p ∈ pairs, p.1.Twin (since s₁ s₂) p.2) :
    Twinned (fun c₁ c₂ => (c₁, c₂) ∈ pairs) (abreast s₁ s₂ pairs) where
  same hp := (hpairs _ hp).same
  limits_eq hp := (hpairs _ hp).limits_eq
  note _ _ h := Registry.Abreast.congr h rfl rfl
  report {r₁ r₂ c₁ c₂} o t hp h := Registry.Abreast.record { registry := r₁ } { registry := r₂ }
    (.report c₁.handle o t) (.report c₂.handle o t) h hp (hpairs _ hp).name_eq rfl rfl
  reportFallback {r₁ r₂ c₁ c₂} o t hp h := Registry.Abreast.record { registry := r₁ } { registry := r₂ }
    (.reportFallback c₁.handle o t) (.reportFallback c₂.handle o t) h hp (hpairs _ hp).name_eq rfl rfl

end Comparison

/-! ## Creating circuits -/

namespace Engine

variable {e e₁ e₂ : Engine} {name : String} {reg reg₁ reg₂ : Registration} {limits : Limits} {c c₁ c₂ : Circuit}

/-- What is known of a circuit that was created. -/
theorem of_createCircuit (h : (Operation.createCircuit name reg limits).creates? e = some c) :
    c.id = e.created ∧ c.limits = limits ∧ e.answer (.createCircuit name reg limits) = some c.handle ∧
      (e.perform (.createCircuit name reg limits)).created = e.created + 1 ∧
      (e.perform (.createCircuit name reg limits)).now = e.now := by
  simp only [Operation.creates?, createCircuit, answer, perform] at h ⊢
  split at h
  · cases h
    exact ⟨rfl, rfl, rfl, rfl, rfl⟩
  · cases h

/-- A circuit that was created is found for its name, and the others are found as before. -/
theorem serves_perform_createCircuit {circuits : List Circuit} (hserves : e.registry.Serves circuits)
    (h : (Operation.createCircuit name reg limits).creates? e = some c) : c.handle.name = ⟨reg.scope, name⟩ ∧
      (e.perform (.createCircuit name reg limits)).registry.Serves (c :: circuits) := by
  have hrest := hserves.perform (.createCircuit name reg limits)
  have hf := find?_of_answer hserves.nodup rfl (of_createCircuit h).2.2.1
  have hname : c.handle.name = ⟨reg.scope, name⟩ := ((Registry.find?_eq_some_iff hrest.nodup).mp hf).1
  refine ⟨hname, hrest.nodup, fun c' hc' => ?_⟩
  obtain rfl | hc' := List.mem_cons.mp hc'
  · rwa [hname]
  · exact hrest.found c' hc'

/-! ## Scripts -/

/-- Two engines do the same deeds, but for the windows of the circuits that they create and for whether fallbacks are
counted. The pairs are the circuits that both have created so far, of each deed that of the one and that of the other. -/
inductive Twins : List (Circuit × Circuit) → Engine → List (Deed α) → Engine → List (Deed α) → Prop
  | done (pairs : List (Circuit × Circuit)) (e₁ e₂ : Engine) : Twins pairs e₁ [] e₂ []
  /-- Both create a circuit. -/
  | create (name : String) (limits : Limits) {reg₁ reg₂ : Registration} {c₁ c₂ : Circuit}
      {pairs : List (Circuit × Circuit)} {e₁ e₂ : Engine} {ds₁ ds₂ : List (Deed α)} (scope_eq : reg₂.scope = reg₁.scope)
      (created₁ : (Operation.createCircuit name reg₁ limits).creates? e₁ = some c₁)
      (created₂ : (Operation.createCircuit name reg₂ limits).creates? e₂ = some c₂)
      (rest : Twins ((c₁, c₂) :: pairs) (e₁.perform (.createCircuit name reg₁ limits)) ds₁
        (e₂.perform (.createCircuit name reg₂ limits)) ds₂) :
      Twins pairs e₁ (.ask (.createCircuit name reg₁ limits) :: ds₁) e₂ (.ask (.createCircuit name reg₂ limits) :: ds₂)
  /-- Both run a group, one of them with the twins of the circuits of the other. -/
  | run {items₁ items₂ : List (Item α)} {pairs : List (Circuit × Circuit)} {e₁ e₂ : Engine} {ds₁ ds₂ : List (Deed α)}
      (items : List.Forall₂ (Item.Twin fun c₁ c₂ => (c₁, c₂) ∈ pairs) items₁ items₂)
      (rest : Twins pairs (e₁.run items₁).2 ds₁ (e₂.run items₂).2 ds₂) :
      Twins pairs e₁ (.run items₁ :: ds₁) e₂ (.run items₂ :: ds₂)
  /-- Both raise a signal. -/
  | cancel (signal : String) {pairs : List (Circuit × Circuit)} {e₁ e₂ : Engine} {ds₁ ds₂ : List (Deed α)}
      (rest : Twins pairs (e₁.cancel signal) ds₁ (e₂.cancel signal) ds₂) :
      Twins pairs e₁ (.cancel signal :: ds₁) e₂ (.cancel signal :: ds₂)
  /-- Time passes for both. -/
  | advance (ms : Nat) {pairs : List (Circuit × Circuit)} {e₁ e₂ : Engine} {ds₁ ds₂ : List (Deed α)}
      (rest : Twins pairs (e₁.advance ms) ds₁ (e₂.advance ms) ds₂) :
      Twins pairs e₁ (.ask (.advance ms) :: ds₁) e₂ (.ask (.advance ms) :: ds₂)

/-- The circuit that a deed creates. -/
def creates? (e : Engine) : Deed α → Option Circuit
  | .ask op => op.creates? e
  | _ => none

/-- What the tasks of a deed answer. -/
def replies (e : Engine) : Deed α → List (Option (Reply α))
  | .run items => (e.run items).1
  | _ => []

/-- The circuits that deeds create. -/
def creations (e : Engine) : List (Deed α) → List (Option Circuit)
  | [] => []
  | d :: ds => e.creates? d :: (e.carry d).creations ds

/-- What the tasks of each deed answer. -/
def answers (e : Engine) : List (Deed α) → List (List (Option (Reply α)))
  | [] => []
  | d :: ds => e.replies d :: (e.carry d).answers ds

/-- What two engines that do deeds have in common. -/
structure Unsteered (C : Comparison) (e₁ : Engine) (ds₁ : List (Deed α)) (e₂ : Engine) (ds₂ : List (Deed α)) :
    Prop where
  /-- The same deeds create circuits, and these are twins. -/
  creations : List.Forall₂ (Option.Rel (Circuit.Twin C)) (e₁.creations ds₁) (e₂.creations ds₂)
  /-- Every task is answered alike, if it is answered at all: a call with the same results at the same time, an
  observation with the same signal. -/
  answers : List.Forall₂ (List.Forall₂ (Option.Rel Reply.Twin)) (e₁.answers ds₁) (e₂.answers ds₂)
  /-- After any number of deeds the engines are level. -/
  level : ∀ n, Level C (e₁.carryAll (ds₁.take n)) (e₂.carryAll (ds₂.take n))

variable {C : Comparison} {s₁ s₂ : Engine} {pairs : List (Circuit × Circuit)} {ds₁ ds₂ : List (Deed α)}
  {d₁ d₂ : Deed α}

theorem Unsteered.nil (h : Level C e₁ e₂) : Unsteered C e₁ ([] : List (Deed α)) e₂ [] :=
  ⟨.nil, .nil, fun n => by cases n <;> exact h⟩

theorem Unsteered.cons (h : Level C e₁ e₂) (hcreates : Option.Rel (Circuit.Twin C) (e₁.creates? d₁) (e₂.creates? d₂))
    (hreplies : List.Forall₂ (Option.Rel Reply.Twin) (e₁.replies d₁) (e₂.replies d₂))
    (hrest : Unsteered C (e₁.carry d₁) ds₁ (e₂.carry d₂) ds₂) : Unsteered C e₁ (d₁ :: ds₁) e₂ (d₂ :: ds₂) where
  creations := .cons hcreates hrest.creations
  answers := .cons hreplies hrest.answers
  level n := by
    cases n with
    | zero => exact h
    | succ n => exact hrest.level n

namespace Level

/-- Another relation of the registries. -/
theorem relate (h : Level C e₁ e₂) {R : Registry → Registry → Prop} (hr : R e₁.registry e₂.registry) :
    Level { C with registries := R } e₁ e₂ :=
  ⟨h.now_eq, h.signals_eq, h.created, h.permits_eq, hr⟩

theorem since (h : Level (.abreast s₁ s₂ pairs) e₁ e₂) : Level (.since s₁ s₂) e₁ e₂ := h.relate h.registries.growAlike

/-- Both create a circuit: these are twins, and the engines stay level. -/
theorem createCircuit (h : Level (.abreast s₁ s₂ pairs) e₁ e₂) (hscope : reg₂.scope = reg₁.scope)
    (h₁ : (Operation.createCircuit name reg₁ limits).creates? e₁ = some c₁)
    (h₂ : (Operation.createCircuit name reg₂ limits).creates? e₂ = some c₂) : c₁.Twin (.since s₁ s₂) c₂ ∧
      Level (.abreast s₁ s₂ ((c₁, c₂) :: pairs)) (e₁.perform (.createCircuit name reg₁ limits))
        (e₂.perform (.createCircuit name reg₂ limits)) := by
  obtain ⟨hid₁, hlimits₁, -, hcreated₁, hnow₁⟩ := of_createCircuit h₁
  obtain ⟨hid₂, hlimits₂, -, hcreated₂, hnow₂⟩ := of_createCircuit h₂
  obtain ⟨hname₁, hserves₁⟩ := serves_perform_createCircuit h.registries.serves₁ h₁
  obtain ⟨hname₂, hserves₂⟩ := serves_perform_createCircuit h.registries.serves₂ h₂
  obtain ⟨n, hn₁, hn₂⟩ := h.created
  constructor
  · exact ⟨⟨n, hid₁.trans hn₁, hid₂.trans hn₂⟩, hlimits₂.trans hlimits₁.symm, by rw [hname₁, hname₂, hscope]⟩
  constructor
  case now_eq => rw [hnow₁, hnow₂, h.now_eq]
  case signals_eq => rw [signals_perform, signals_perform, h.signals_eq]
  case created => exact ⟨n + 1, hcreated₁.trans (congrArg (· + 1) hn₁), hcreated₂.trans (congrArg (· + 1) hn₂)⟩
  case permits_eq =>
    intro i₁ i₂ hi p
    rw [permits_perform, permits_perform]
    exact h.permits_eq hi p
  case registries =>
    exact ⟨hserves₁, hserves₂, h.registries.growAlike.perform h.registries.serves₁.nodup h.registries.serves₂.nodup
      (fun _ => nofun) (fun _ => nofun) fun _ => rfl⟩

end Level

/-- **Twins go on alike** from level engines whose registries stand abreast. -/
theorem Twins.unsteered (h : Twins pairs e₁ ds₁ e₂ ds₂) (hpairs : ∀ p ∈ pairs, p.1.Twin (.since s₁ s₂) p.2)
    (hlevel : Level (.abreast s₁ s₂ pairs) e₁ e₂) : Unsteered (.since s₁ s₂) e₁ ds₁ e₂ ds₂ := by
  induction h with
  | done => exact .nil hlevel.since
  | create name limits hscope h₁ h₂ _ ih =>
    obtain ⟨htwin, hnext⟩ := hlevel.createCircuit hscope h₁ h₂
    refine .cons hlevel.since ?_ .nil (ih (List.forall_mem_cons.mpr ⟨htwin, hpairs⟩) hnext)
    rw [creates?, creates?, h₁, h₂]
    exact .some htwin
  | run hitems _ ih =>
    obtain ⟨hreplies, hnext⟩ := even_run (Comparison.twinned_abreast hpairs) hitems hlevel
    exact .cons hlevel.since .none hreplies (ih hpairs hnext)
  | cancel signal _ ih => exact .cons hlevel.since .none .nil (ih hpairs (hlevel.cancel signal))
  | @advance ms pairs e₁ e₂ _ _ _ ih =>
    have hnext := hlevel.wake (e₁.now + ms)
    refine .cons hlevel.since .none .nil (ih hpairs ?_)
    rwa [Engine.advance, Engine.advance, hlevel.now_eq]

/-- **Statistics never steer.** Two engines with the same clock, the same signals and the same permits for circuits to
come do the same deeds, on any two registries. -/
theorem unsteered_of_twins (h₁ : e₁.registry.roll.Nodup) (h₂ : e₂.registry.roll.Nodup)
    (hlevel : Level { Comparison.since e₁ e₂ with registries := fun _ _ => True } e₁ e₂)
    (h : Twins [] e₁ ds₁ e₂ ds₂) : Unsteered (.since e₁ e₂) e₁ ds₁ e₂ ds₂ := by
  have habreast : Registry.Abreast e₁.registry e₂.registry [] e₁.registry e₂.registry :=
    ⟨⟨h₁, nofun⟩, ⟨h₂, nofun⟩, .refl _ _⟩
  exact h.unsteered nofun (hlevel.relate habreast)

end Engine

namespace Steering

/-- Limits that let one call in, and one fallback. -/
def limits : Limits := { maxCalls := some 1, maxFallbacks := some 1 }

/-- The name that both engines use. -/
def name : CircuitName := ⟨"", "db"⟩

/-- An engine with a past: another circuit, and the circuit of the name, which counts no fallbacks and has reports. -/
def seasoned : Engine :=
  (Engine.start { trackFallback := false }).performAll [.createCircuit "other" {} limits,
    .register "db" { window := some { buckets := 2 } }, .report ⟨name, 1⟩ .success 0,
    .reportFallback ⟨name, 1⟩ .failure 0]

/-- The circuit that the script creates in the engine with a past. -/
def circuit : Circuit := ⟨1, ⟨name, 1⟩, limits⟩

/-- The circuit that it creates in a new engine. -/
def twin : Circuit := ⟨0, ⟨name, 0⟩, limits⟩

/-- A call that waits until a signal is raised, one that is refused and whose fallback waits, and one that is refused
together with its fallback. -/
def items (c : Circuit) : List (Item Nat) :=
  [⟨0, .call ⟨c, { steps := [.signal "stop"] }, .wait 900 (.done (.ok (.plain 1))), none⟩⟩,
    ⟨100, .call ⟨c, {}, .hang, some (.wait 300 (.done (.ok (.plain 2))))⟩⟩,
    ⟨200, .call ⟨c, {}, .hang, some (.done (.ok (.plain 3)))⟩⟩,
    ⟨500, .cancel "stop"⟩]

/-- The circuit is created, the calls are made, and time passes. -/
def deeds (reg : Registration) (c : Circuit) : List (Deed Nat) :=
  [.ask (.createCircuit "db" reg limits), .run (items c), .cancel "other", .ask (.advance 700)]

/-- In the new engine the circuit has a window of its own. -/
def wider : Registration := { window := some { buckets := 3 } }

theorem twin_items :
    List.Forall₂ (Item.Twin fun c₁ c₂ => (c₁, c₂) ∈ [(circuit, twin)]) (items circuit) (items twin) := by
  have hc : (circuit, twin) ∈ [(circuit, twin)] := List.mem_singleton.mpr rfl
  exact .cons ⟨rfl, .call _ hc (.wait 900 (.done _)) .none⟩ <|
    .cons ⟨rfl, .call _ hc .hang (.some (.wait 300 (.done _)))⟩ <|
    .cons ⟨rfl, .call _ hc .hang (.some (.done _))⟩ <| .cons ⟨rfl, .cancel "stop"⟩ .nil

theorem twins_deeds : Engine.Twins [] seasoned (deeds {} circuit) (.start {}) (deeds wider twin) :=
  .create "db" limits rfl (by decide +kernel) (by decide +kernel) <| .run twin_items <| .cancel "other" <|
    .advance 700 <| .done _ _ _

theorem level_seasoned :
    Engine.Level { Comparison.since seasoned (.start {}) with registries := fun _ _ => True } seasoned
      (.start {}) := by
  refine ⟨by decide +kernel, ?_, ⟨0, rfl, rfl⟩, fun _ _ => ?_, trivial⟩
  · simp only [seasoned, Engine.performAll_cons, Engine.performAll_nil, Engine.signals_perform]
    rfl
  · simp only [seasoned, Engine.performAll_cons, Engine.performAll_nil, Engine.permits_perform]
    rfl

/-- Two of the calls are refused, and both engines count them; one of the engines had created a circuit before. -/
theorem unsteered_seasoned : seasoned.created = 1 ∧
    Engine.Unsteered (.since seasoned (.start {})) seasoned (deeds {} circuit) (.start {}) (deeds wider twin) ∧
    (seasoned.carryAll (deeds {} circuit)).registry.callTotal name .concurrencyRejected = 2 ∧
    ((Engine.start {}).carryAll (deeds wider twin)).registry.callTotal name .concurrencyRejected = 2 := by
  have hsame := Engine.unsteered_of_twins (by decide +kernel) (by decide +kernel) level_seasoned twins_deeds
  refine ⟨by decide +kernel, hsame, ?_, ?_⟩
  · decide +kernel
  · decide +kernel

end Steering
end CallGuard
