import CallGuard.Proofs.Execution.Permits
import CallGuard.Proofs.Execution.Refusals
import CallGuard.Proofs.Registry.Operations
import CallGuard.Proofs.Rows

/-!
# Calls that overlap

A `Pool` is any number of threads that act on one engine. At any moment a circuit may be created, a call begun, a signal
raised, a suspended call dropped, time may pass, and any thread may go through its next section (`Pool.Move`); a run is a
list of such moves.

**Main statement.** From a fresh engine on every run keeps the discipline of permits and signals
(`Pool.run_disciplined`): the limiters count exactly the calls in flight and let no more in than they may, a call is
refused exactly if they are full, and whatever was taken is given back.
-/

namespace CallGuard

variable {α : Type}

/-! ## Pools -/

/-- Threads that act on one engine, and the circuits that were created in it. -/
structure Pool (α : Type) where
  engine : Engine
  circuits : List Circuit := []
  threads : List (Thread α) := []

/-- The circuit that an operation creates. -/
def Operation.creates? (e : Engine) : Operation → Option Circuit
  | .createCircuit name reg limits => (e.createCircuit name reg limits).1.toOption
  | _ => none

/-- A thread whose call is dropped, if it was not begun or is suspended. -/
def Thread.dropped : Thread α → Thread α
  | ⟨.call .., []⟩ => ⟨.close .interrupted, []⟩
  | ⟨.answer (.suspended c), []⟩ => ⟨.abandon (.calling c.frame c.stage c.inner) .interrupted, []⟩
  | t => t

namespace Pool

/-- What may happen to a pool. -/
inductive Move (α : Type)
  /-- Something is asked of the registry, or time passes. -/
  | ask (op : Operation)
  /-- A signal is raised. -/
  | cancel (signal : String)
  /-- A guarded call is to be made, all of it on circuits that were created. -/
  | call (f : Frame) (work : Work α) (rescue : Option (Work α))
  /-- A thread goes through its next section. -/
  | turn (i : Nat)
  /-- The call of a thread is dropped. -/
  | drop (i : Nat)

/-- A thread is replaced. -/
def put (p : Pool α) (i : Nat) (t : Thread α) (e : Engine) : Pool α :=
  { p with engine := e, threads := p.threads.set i t }

/-- The pool after a move; a move of a thread that is not there, or to circuits that are not, does nothing. -/
def step (p : Pool α) : Move α → Pool α
  | .ask op => { p with engine := p.engine.perform op, circuits := p.circuits ++ (op.creates? p.engine).toList }
  | .cancel signal => { p with engine := p.engine.cancel signal }
  | .call f work rescue =>
    if ∀ c ∈ (Thread.ofCall f work rescue).circuits, c ∈ p.circuits then
      { p with threads := p.threads ++ [.ofCall f work rescue] }
    else p
  | .turn i =>
    match p.threads[i]? with
    | some t => p.put i (t.step p.engine).1 (t.step p.engine).2
    | none => p
  | .drop i =>
    match p.threads[i]? with
    | some t => p.put i t.dropped p.engine
    | none => p

/-- A run of a pool. -/
def run (p : Pool α) (moves : List (Move α)) : Pool α := moves.foldl step p

/-- A registry in which no circuit has limits yet, and no call was made. -/
def start (r : Registry) : Pool α := { engine := { registry := r } }

/-! ## What is counted -/

/-- The calls that hold a permit. -/
def holders (p : Pool α) : List (Holder α) := p.threads.flatMap Thread.holders

/-- The calls that wait for the signal of their context. -/
def waiters (p : Pool α) : List (Holder α) := p.threads.flatMap (·.control.resting)

/-- The number of calls on a circuit that are in a part. -/
def inFlight (p : Pool α) (c : Circuit) (part : Part) : Nat :=
  p.holders.countP fun h => h.frame.circuit = c ∧ h.stage.part = part

end Pool

/-- The call that a thread is about to begin, or that is between its parts. -/
def Control.between : Control α → List Frame
  | .call f .. | .decided f .. | .rescue f .. => [f]
  | _ => []

/-- The calls of a thread that have not ended, each once. -/
def Thread.calls (t : Thread α) : List Frame := t.control.between ++ t.holders.map (·.frame)

namespace Thread

/-- No poll of the thread has a call open: so if its call was not begun, is suspended, or is over. -/
def AtRest (t : Thread α) : Prop := t.opened = []

/-- The call of the thread has ended, or was dropped and is gone. -/
def Ended : Thread α → Prop
  | ⟨.answer (.finished _), []⟩ | ⟨.close _, []⟩ => True
  | _ => False

instance (t : Thread α) : Decidable t.Ended :=
  match t with
  | ⟨.answer (.finished _), []⟩ | ⟨.close _, []⟩ => isTrue trivial
  | ⟨.answer (.finished _), _ :: _⟩ | ⟨.close _, _ :: _⟩ | ⟨.answer (.suspended _), _⟩ | ⟨.call .., _⟩
  | ⟨.start .., _⟩ | ⟨.poll .., _⟩ | ⟨.settle _, _⟩ | ⟨.abandon .., _⟩ | ⟨.decided .., _⟩ | ⟨.rescue .., _⟩ => isFalse id

theorem atRest_of_ended {t : Thread α} (h : t.Ended) : t.AtRest := by
  unfold Ended at h
  split at h
  · rfl
  · rfl
  · exact h.elim

end Thread

/-- The discipline of permits and signals. -/
structure Pool.Disciplined (p : Pool α) : Prop where
  /-- A limiter counts the calls in flight. -/
  active_eq : ∀ c ∈ p.circuits, ∀ part, (p.engine.limiter c part).active = p.inFlight c part
  /-- No more are in flight than may be. -/
  bounded : ∀ c ∈ p.circuits, ∀ part m, c.maxOf part = some m → p.inFlight c part ≤ m
  /-- A call that has not ended holds one permit, or it is between its parts and holds none. -/
  one_permit : ∀ c ∈ p.circuits, (p.engine.limiter c .primary).active + (p.engine.limiter c .fallback).active +
      (p.threads.flatMap (·.control.between)).countP (·.circuit = c) =
    (p.threads.flatMap Thread.calls).countP (·.circuit = c)
  /-- A part is refused exactly if it asks for a permit when as many are in flight as may be. -/
  refuses_iff : ∀ t ∈ p.threads, ∀ part, t.Refuses p.engine part ↔
    ∃ f, t.control.asks? = some (f, part) ∧ f.circuit.maxOf part = some (p.inFlight f.circuit part)
  /-- A call on an open circuit takes no permit. -/
  open_takes_none : ∀ t ∈ p.threads, ∀ f work rescue, t.control = .call f work rescue →
    f.circuit.limits.forceOpen = true →
      (t.step p.engine).1 = ⟨.decided f (.error .shortCircuited) rescue, t.opened⟩ ∧
      (t.step p.engine).2.permits = p.engine.permits
  /-- When no poll is under way, those who wait for a signal are the calls in flight whose contexts carry it. -/
  waiting_eq : (∀ t ∈ p.threads, t.AtRest) → ∀ n, (p.engine.signals.get n).waiting =
    p.holders.countP (·.frame.context.signal = some n)
  /-- When every call has ended, every permit is back and nobody waits. -/
  ended : (∀ t ∈ p.threads, t.Ended) →
    (∀ c ∈ p.circuits, ∀ part, (p.engine.limiter c part).active = 0) ∧ ∀ n, (p.engine.signals.get n).waiting = 0

/-! ## Operations -/

namespace Engine

variable (e : Engine) (op : Operation)

theorem permits_perform : (e.perform op).permits = e.permits := by
  cases op with
  | createCircuit name reg limits => simp only [perform, createCircuit]; split <;> rfl
  | apply s => simp only [perform]; split <;> rfl
  | _ => rfl

theorem signals_perform : (e.perform op).signals = e.signals := by
  cases op with
  | createCircuit name reg limits => simp only [perform, createCircuit]; split <;> rfl
  | apply s => simp only [perform]; split <;> rfl
  | _ => rfl

theorem created_le_perform : e.created ≤ (e.perform op).created := by
  cases op with
  | createCircuit name reg limits =>
    simp only [perform, createCircuit]
    split
    · exact Nat.le_succ _
    · exact Nat.le_refl _
  | apply s => simp only [perform]; split <;> exact Nat.le_refl _
  | _ => exact Nat.le_refl _

variable {e op}

/-- A new circuit has a number that none had before. -/
theorem of_creates? {c : Circuit} (h : op.creates? e = some c) :
    c.id = e.created ∧ c.id < (e.perform op).created := by
  cases op with
  | createCircuit name reg limits =>
    simp only [Operation.creates?, createCircuit, perform] at h ⊢
    split at h
    · cases h
      exact ⟨rfl, Nat.lt_succ_self _⟩
    · cases h
  | _ => cases h

end Engine

namespace Thread

/-- What is dropped still has its permits and waits for its signals, until it has given them up. -/
theorem dropped_spec {t : Thread α} {e : Engine} (hp : t.control.Primary) :
    Does t e t.dropped e ∧ t.dropped.circuits ⊆ t.circuits ∧ t.dropped.control.Primary := by
  unfold dropped
  split
  · exact ⟨.goesOn rfl rfl rfl (fun _ => rfl) rfl, List.nil_subset _, trivial⟩
  · exact ⟨.goesOn rfl rfl rfl (fun _ => rfl) rfl, List.Subset.refl _, trivial⟩
  · exact ⟨.refl _ e, List.Subset.refl _, hp⟩

end Thread

/-! ## The invariant -/

/-- What every move of a pool keeps. -/
structure Pool.Sound (p : Pool α) : Prop where
  known : ∀ t ∈ p.threads, t.circuits ⊆ p.circuits
  created : ∀ c ∈ p.circuits, c.id < p.engine.created
  unique : ∀ c ∈ p.circuits, ∀ c' ∈ p.circuits, c.id = c'.id → c = c'
  permits : ∀ k, p.engine.permits.get k = p.holders.countP (·.key = k)
  bounded : ∀ c ∈ p.circuits, ∀ part m, c.maxOf part = some m → p.engine.permits.get (c.id, part) ≤ m
  waiting : ∀ n, (p.engine.signals.get n).waiting = p.waiters.countP (·.frame.context.signal = some n)
  primary : ∀ t ∈ p.threads, t.control.Primary

namespace Pool

variable {p : Pool α}

theorem sound_start (r : Registry) : (start r : Pool α).Sound where
  known := fun _ h => nomatch h
  created := fun _ h => nomatch h
  unique := fun _ h => nomatch h
  permits := fun _ => rfl
  bounded := fun _ h => nomatch h
  waiting := fun _ => rfl
  primary := fun _ h => nomatch h

namespace Sound

theorem mem_circuits (hp : p.Sound) {h : Holder α} (hmem : h ∈ p.holders) : h.frame.circuit ∈ p.circuits := by
  obtain ⟨t, ht, hh⟩ := List.mem_flatMap.mp hmem
  exact hp.known t ht (Thread.mem_circuits_of_mem_holders hh)

/-- A change of one thread in one of the ways of a section. -/
theorem put (hp : p.Sound) {i : Nat} {t t' : Thread α} {e' : Engine} (hi : p.threads[i]? = some t)
    (hd : Thread.Does t p.engine t' e') (hknown : t'.circuits ⊆ p.circuits) (hr : t'.control.Primary) :
    (p.put i t' e').Sound := by
  have hmem : t ∈ p.threads := List.mem_of_getElem? hi
  refine ⟨?known, ?created, hp.unique, ?permits, ?bounded, ?waiting, ?primary⟩
  case known =>
    intro s hs
    rcases List.mem_or_eq_of_mem_set hs with hs | rfl
    · exact hp.known s hs
    · exact hknown
  case created =>
    intro c h
    have hlt := hp.created c h
    rw [← hd.created_eq] at hlt
    exact hlt
  case permits =>
    intro k
    have hrow := countP_flatMap_set_add Thread.holders (·.key = k) hi t'
    have hle := countP_le_countP_flatMap Thread.holders (·.key = k) hmem
    have hold : p.engine.permits.get k = (p.threads.flatMap Thread.holders).countP (·.key = k) := hp.permits k
    have hadd := hd.permits_add k (by omega)
    change e'.permits.get k = ((p.threads.set i t').flatMap Thread.holders).countP (·.key = k)
    omega
  case bounded =>
    intro c h part m hm
    refine hd.permits_le hm ?_ (hp.bounded c h part m hm)
    intro h' hh' hid
    exact hp.unique _ (hknown (Thread.mem_circuits_of_mem_holders hh')) c h hid
  case waiting =>
    intro n
    have hrow := countP_flatMap_set_add (fun t : Thread α => t.control.resting) (·.frame.context.signal = some n) hi t'
    have hle := countP_le_countP_flatMap (fun t : Thread α => t.control.resting)
      (·.frame.context.signal = some n) hmem
    have hold : (p.engine.signals.get n).waiting =
        (p.threads.flatMap (·.control.resting)).countP (·.frame.context.signal = some n) := hp.waiting n
    have hadd := hd.waiting_add n (by omega)
    change (e'.signals.get n).waiting =
      ((p.threads.set i t').flatMap (·.control.resting)).countP (·.frame.context.signal = some n)
    omega
  case primary =>
    intro s hs
    rcases List.mem_or_eq_of_mem_set hs with hs | rfl
    · exact hp.primary s hs
    · exact hr

/-- A circuit that is created has a number of its own, under which no permit is held. -/
theorem ask (hp : p.Sound) (op : Operation) : (p.step (.ask op)).Sound := by
  have hcases : ∀ c ∈ p.circuits ++ (op.creates? p.engine).toList, c ∈ p.circuits ∨ op.creates? p.engine = some c :=
    fun c h => (List.mem_append.mp h).imp_right Option.mem_toList.mp
  refine ⟨?known, ?created, ?unique, ?permits, ?bounded, ?waiting, hp.primary⟩
  case known => exact fun t ht => List.subset_append_of_subset_left _ (hp.known t ht)
  case created =>
    intro c h
    rcases hcases c h with h | h
    · exact Nat.lt_of_lt_of_le (hp.created c h) (Engine.created_le_perform _ op)
    · exact (Engine.of_creates? h).2
  case unique =>
    intro c h c' h' hid
    rcases hcases c h with hc | hc <;> rcases hcases c' h' with hc' | hc'
    · exact hp.unique c hc c' hc' hid
    · have hlt := hp.created c hc
      have hnew := (Engine.of_creates? hc').1
      omega
    · have hlt := hp.created c' hc'
      have hnew := (Engine.of_creates? hc).1
      omega
    · exact Option.some.inj (hc.symm.trans hc')
  case permits => exact fun k => (congrArg (·.get k) (Engine.permits_perform _ op)).trans (hp.permits k)
  case bounded =>
    intro c h part m hm
    change (p.engine.perform op).permits.get (c.id, part) ≤ m
    rw [Engine.permits_perform]
    rcases hcases c h with hc | hc
    · exact hp.bounded c hc part m hm
    · have hnone : p.holders.countP (·.key = (c.id, part)) = 0 := by
        refine List.countP_eq_zero.mpr fun h hh hkey => ?_
        have hlt := hp.created _ (hp.mem_circuits hh)
        have hnew := (Engine.of_creates? hc).1
        obtain ⟨hid, -⟩ := Prod.mk.inj (of_decide_eq_true hkey)
        omega
      rw [hp.permits, hnone]
      exact Nat.zero_le m
  case waiting =>
    exact fun n => (congrArg (fun s : Signals => (s.get n).waiting) (Engine.signals_perform _ op)).trans (hp.waiting n)

/-- A thread that begins holds nothing. -/
theorem call (hp : p.Sound) (f : Frame) (work : Work α) (rescue : Option (Work α)) :
    (p.step (.call f work rescue)).Sound := by
  simp only [Pool.step]
  split
  · next hknown =>
    refine { hp with known := ?known, permits := ?permits, waiting := ?waiting, primary := ?primary }
    case known =>
      intro t ht
      rcases List.mem_append.mp ht with ht | ht
      · exact hp.known t ht
      · rw [List.mem_singleton.mp ht]
        exact hknown
    case permits =>
      intro k
      rw [hp.permits k]
      simp [holders, Thread.ofCall, Thread.holders, Control.resting]
    case waiting =>
      intro n
      rw [hp.waiting n]
      simp [waiters, Thread.ofCall, Control.resting]
    case primary =>
      intro t ht
      rcases List.mem_append.mp ht with ht | ht
      · exact hp.primary t ht
      · rw [List.mem_singleton.mp ht]
        trivial
  · exact hp

theorem step (hp : p.Sound) (m : Move α) : (p.step m).Sound := by
  cases m with
  | ask op => exact hp.ask op
  | cancel signal =>
    exact { hp with waiting := fun n => (Engine.waiting_cancel signal n).trans (hp.waiting n) }
  | call f work rescue => exact hp.call f work rescue
  | turn i =>
    simp only [Pool.step]
    cases hi : p.threads[i]? with
    | none => exact hp
    | some t =>
      have hmem := List.mem_of_getElem? hi
      have hsection := t.section_step p.engine
      have hknown := List.Subset.trans hsection.circuits_subset (hp.known t hmem)
      exact hp.put hi hsection.does hknown (hsection.primary (hp.primary t hmem))
  | drop i =>
    simp only [Pool.step]
    cases hi : p.threads[i]? with
    | none => exact hp
    | some t =>
      have hmem := List.mem_of_getElem? hi
      obtain ⟨hd, hc, hr⟩ := t.dropped_spec (e := p.engine) (hp.primary t hmem)
      exact hp.put hi hd (List.Subset.trans hc (hp.known t hmem)) hr

theorem run (hp : p.Sound) (moves : List (Move α)) : (p.run moves).Sound := by
  induction moves generalizing p with
  | nil => exact hp
  | cons m ms ih => exact ih (hp.step m)

/-! ## What the invariant says -/

/-- Circuits are told apart by their numbers. -/
theorem permits_eq_inFlight (hp : p.Sound) {c : Circuit} (hc : c ∈ p.circuits) (part : Part) :
    p.engine.permits.get (c.id, part) = p.inFlight c part := by
  rw [hp.permits, inFlight]
  refine List.countP_congr fun h hh => ?_
  simp only [decide_eq_true_eq, Holder.key, Prod.mk.injEq]
  refine and_congr_left fun _ => ⟨fun hid => hp.unique _ (hp.mem_circuits hh) c hc hid, fun heq => by rw [heq]⟩

theorem acquire?_eq_none_iff (hp : p.Sound) {c : Circuit} (hc : c ∈ p.circuits) (part : Part) :
    p.engine.acquire? c part = none ↔ c.maxOf part = some (p.inFlight c part) := by
  rw [Engine.acquire?_eq_none_iff, hp.permits_eq_inFlight hc]
  constructor
  · rintro ⟨m, hm, hle⟩
    have hbound := hp.bounded c hc part m hm
    rw [hp.permits_eq_inFlight hc] at hbound
    rw [hm, Nat.le_antisymm hbound hle]
  · exact fun hm => ⟨_, hm, Nat.le_refl _⟩

theorem mem_circuits_of_asks? (hp : p.Sound) {t : Thread α} (ht : t ∈ p.threads) {f : Frame} {part : Part}
    (hasks : t.control.asks? = some (f, part)) : f.circuit ∈ p.circuits := by
  refine hp.known t ht (List.mem_append_left _ ?_)
  cases hcontrol : t.control with
  | call f' work rescue =>
    rw [hcontrol, Control.asks?] at hasks
    split at hasks
    · cases hasks
    · cases hasks
      exact List.mem_cons_self
  | rescue f' cause work =>
    rw [hcontrol] at hasks
    cases hasks
    exact List.mem_cons_self
  | _ => rw [hcontrol] at hasks; cases hasks

/-- A call is in one part, or in the other. -/
theorem countP_parts (hs : List (Holder α)) (c : Circuit) :
    hs.countP (fun h => h.frame.circuit = c ∧ h.stage.part = .primary) +
      hs.countP (fun h => h.frame.circuit = c ∧ h.stage.part = .fallback) =
        (hs.map (·.frame)).countP (·.circuit = c) := by
  induction hs with
  | nil => rfl
  | cons h hs ih =>
    simp only [List.map_cons, List.countP_cons, decide_eq_true_eq]
    cases h.stage.part with
    | primary =>
      simp only [and_true, reduceCtorEq, and_false, if_false]
      omega
    | fallback =>
      simp only [and_true, reduceCtorEq, and_false, if_false]
      omega

/-- A call that has not ended is in a part, or between its parts. -/
theorem countP_calls (t : Thread α) (c : Circuit) :
    t.holders.countP (fun h => h.frame.circuit = c ∧ h.stage.part = .primary) +
        t.holders.countP (fun h => h.frame.circuit = c ∧ h.stage.part = .fallback) +
        t.control.between.countP (·.circuit = c) = t.calls.countP (·.circuit = c) := by
  rw [countP_parts, Thread.calls, List.countP_append, Nat.add_comm]

theorem inFlight_add (p : Pool α) (c : Circuit) :
    p.inFlight c .primary + p.inFlight c .fallback +
        (p.threads.flatMap (·.control.between)).countP (·.circuit = c) =
      (p.threads.flatMap Thread.calls).countP (·.circuit = c) := by
  unfold inFlight holders
  induction p.threads with
  | nil => rfl
  | cons t ts ih =>
    have ht := countP_calls t c
    simp only [List.flatMap_cons, List.countP_append]
    omega

/-- At rest a thread has no call that holds a permit and does not wait. -/
theorem holders_eq_waiters (h : ∀ t ∈ p.threads, t.AtRest) : p.holders = p.waiters := by
  unfold holders waiters
  refine List.flatMap_congr fun t ht => ?_
  rw [Thread.holders, h t ht, List.append_nil]

/-- What has ended holds nothing. -/
theorem holders_of_ended (h : ∀ t ∈ p.threads, t.Ended) : p.holders = [] ∧ p.waiters = [] := by
  have hthread : ∀ t : Thread α, t.Ended → t.holders = [] ∧ t.control.resting = [] := by
    intro t ht
    unfold Thread.Ended at ht
    split at ht
    · exact ⟨rfl, rfl⟩
    · exact ⟨rfl, rfl⟩
    · exact ht.elim
  exact ⟨List.flatMap_eq_nil_iff.mpr fun t ht => (hthread t (h t ht)).1,
    List.flatMap_eq_nil_iff.mpr fun t ht => (hthread t (h t ht)).2⟩

theorem disciplined (hp : p.Sound) : p.Disciplined where
  active_eq := fun c hc part => hp.permits_eq_inFlight hc part
  bounded := by
    intro c hc part m hm
    rw [← hp.permits_eq_inFlight hc]
    exact hp.bounded c hc part m hm
  one_permit := by
    intro c hc
    have hprimary := hp.permits_eq_inFlight hc .primary
    have hfallback := hp.permits_eq_inFlight hc .fallback
    have hadd := inFlight_add p c
    simp only [Engine.limiter]
    omega
  refuses_iff := by
    intro t ht part
    rw [Thread.refuses_iff (hp.primary t ht)]
    exact exists_congr fun f => and_congr_right fun hasks =>
      hp.acquire?_eq_none_iff (hp.mem_circuits_of_asks? ht hasks) part
  open_takes_none := by
    rintro ⟨control, hs⟩ - f work rescue rfl hopen
    rw [Thread.step_call_of_open hopen]
    exact ⟨rfl, rfl⟩
  waiting_eq := by
    intro hrest n
    rw [hp.waiting, holders_eq_waiters hrest]
  ended := by
    intro hended
    obtain ⟨hholders, hwaiters⟩ := holders_of_ended hended
    refine ⟨fun c hc part => ?_, fun n => ?_⟩
    · change p.engine.permits.get (c.id, part) = 0
      rw [hp.permits, hholders]
      rfl
    · rw [hp.waiting, hwaiters]
      rfl

end Sound

/-- **Discipline.** Whatever calls overlap on whatever circuits, and however their sections, cancels, drops and the
passing of time are mixed, permits and signals are in order after every move. -/
theorem run_disciplined (r : Registry) (moves : List (Move α)) : ((start r).run moves).Disciplined :=
  ((sound_start r).run moves).disciplined

/-! ### Two calls for one permit -/

namespace Overlap

/-- A circuit with one permit for each part. -/
def circuit : Circuit := ⟨0, ⟨⟨"", "db"⟩, 0⟩, { maxCalls := some 1, maxFallbacks := some 1 }⟩

/-- Calls on it under a signal. -/
def frame : Frame := ⟨circuit, { signal := some "stop" }⟩

/-- A call waits in its primary part, and another one is about to begin. -/
def begun : List (Move Nat) :=
  [.ask (.createCircuit "db" {} circuit.limits), .call frame .hang none] ++ List.replicate 3 (.turn 0) ++
    [.call frame (.done (.ok (.plain 1))) (some .hang)]

/-- The other one is refused, and waits in its fallback. -/
def rescued : List (Move Nat) := begun ++ List.replicate 5 (.turn 1)

/-- Both are dropped. -/
def dropped : List (Move Nat) :=
  rescued ++ [.drop 0, .drop 1] ++ List.replicate 3 (.turn 0) ++ List.replicate 3 (.turn 1)

/-- A new pool. -/
def pool : Pool Nat := start { settings := {} }

end Overlap

/-- While the first call holds the permit the second one is refused; then each holds one permit, of its own part, and
both wait for the signal; when they are dropped both permits are back and nobody waits. -/
theorem run_disciplined_overlap :
    ((Overlap.pool.run Overlap.begun).inFlight Overlap.circuit .primary = 1 ∧
      ((Overlap.pool.run Overlap.begun).engine.limiter Overlap.circuit .primary).active = 1 ∧
      ∃ t ∈ (Overlap.pool.run Overlap.begun).threads, t.Refuses (Overlap.pool.run Overlap.begun).engine .primary) ∧
    ((∀ part, ((Overlap.pool.run Overlap.rescued).engine.limiter Overlap.circuit part).active = 1) ∧
      ((Overlap.pool.run Overlap.rescued).engine.signals.get "stop").waiting = 2) ∧
    (∀ part, ((Overlap.pool.run Overlap.dropped).engine.limiter Overlap.circuit part).active = 0) ∧
      ((Overlap.pool.run Overlap.dropped).engine.signals.get "stop").waiting = 0 := by
  refine ⟨?_, ?_, ?_⟩
  · have hd : (Overlap.pool.run Overlap.begun).Disciplined := run_disciplined _ _
    have hcircuit : Overlap.circuit ∈ (Overlap.pool.run Overlap.begun).circuits := by decide +kernel
    have hflight : (Overlap.pool.run Overlap.begun).inFlight Overlap.circuit .primary = 1 := by decide +kernel
    have hasking : ∃ t ∈ (Overlap.pool.run Overlap.begun).threads,
        t.control.asks? = some (Overlap.frame, .primary) := by decide +kernel
    obtain ⟨t, ht, hasks⟩ := hasking
    refine ⟨hflight, (hd.active_eq _ hcircuit .primary).trans hflight, t, ht, ?_⟩
    exact (hd.refuses_iff t ht .primary).mpr ⟨Overlap.frame, hasks, congrArg some hflight.symm⟩
  · have hd : (Overlap.pool.run Overlap.rescued).Disciplined := run_disciplined _ _
    have hcircuit : Overlap.circuit ∈ (Overlap.pool.run Overlap.rescued).circuits := by decide +kernel
    have hempty : ∀ t ∈ (Overlap.pool.run Overlap.rescued).threads, t.opened.isEmpty = true := by decide +kernel
    have hrest : ∀ t ∈ (Overlap.pool.run Overlap.rescued).threads, t.AtRest :=
      fun t ht => List.isEmpty_iff.mp (hempty t ht)
    refine ⟨fun part => ?_, ?_⟩
    · rw [hd.active_eq _ hcircuit part]
      cases part <;> decide +kernel
    · rw [hd.waiting_eq hrest]
      decide +kernel
  · have hd : (Overlap.pool.run Overlap.dropped).Disciplined := run_disciplined _ _
    have hcircuit : Overlap.circuit ∈ (Overlap.pool.run Overlap.dropped).circuits := by decide +kernel
    have hended : ∀ t ∈ (Overlap.pool.run Overlap.dropped).threads, t.Ended := by decide +kernel
    obtain ⟨hback, hnobody⟩ := hd.ended hended
    exact ⟨hback _ hcircuit, hnobody "stop"⟩

/-! ## Polls are runs -/

section Polls

variable {i : Nat} {t t' : Thread α} {e' : Engine}

theorem step_turn (hi : p.threads[i]? = some t) :
    p.step (.turn i) = p.put i (t.step p.engine).1 (t.step p.engine).2 := by
  simp only [step, hi]

theorem getElem?_put (hi : p.threads[i]? = some t) : (p.put i t' e').threads[i]? = some t' :=
  List.getElem?_set_self (List.getElem?_eq_some_iff.mp hi).1

theorem put_self (hi : p.threads[i]? = some t) : p.put i t p.engine = p := by
  obtain ⟨hlt, rfl⟩ := List.getElem?_eq_some_iff.mp hi
  simp only [put, List.set_getElem_self]

theorem put_put (t t' : Thread α) (e e' : Engine) : (p.put i t e).put i t' e' = p.put i t' e' := by
  simp only [put, List.set_set]

/-- Sections of one thread in a row are a run of the pool. -/
theorem run_turns (hi : p.threads[i]? = some t) (h : Thread.Turns (t, p.engine) (t', e')) :
    ∃ n, p.run (List.replicate n (.turn i)) = p.put i t' e' := by
  generalize hs : (t, p.engine) = s at h
  induction h using Relation.ReflTransGen.head_induction_on generalizing p t with
  | refl =>
    obtain ⟨rfl, rfl⟩ := Prod.mk.inj hs
    exact ⟨0, (put_self hi).symm⟩
  | head hstep _ ih =>
    subst hs
    subst hstep
    obtain ⟨n, hn⟩ := ih (p := p.put i (t.step p.engine).1 (t.step p.engine).2) (getElem?_put hi) rfl
    refine ⟨n + 1, ?_⟩
    rw [List.replicate_succ, run, List.foldl_cons, step_turn hi]
    exact hn.trans (put_put ..)

/-- To begin a call, as the library does, is a run. -/
theorem run_start {c : Call α} {x : Context} (hi : p.threads[i]? = some (.ofCall ⟨c.circuit, x⟩ c.work c.rescue)) :
    ∃ n, p.run (List.replicate n (.turn i)) = p.put i (.ofProgress (c.start x p.engine).1) (c.start x p.engine).2 :=
  run_turns hi (c.turns_start x p.engine)

/-- To go on with a suspended call is a run. -/
theorem run_poll {c : InFlight α} (hi : p.threads[i]? = some (.ofProgress (.suspended c))) :
    ∃ n, p.run (List.replicate n (.turn i)) = p.put i (.ofProgress (c.poll p.engine).1) (c.poll p.engine).2 :=
  run_turns hi (c.turns_poll p.engine)

end Polls
end Pool
end CallGuard
