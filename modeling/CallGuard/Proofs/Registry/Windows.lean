import CallGuard.Proofs.Execution.Chronicle
import CallGuard.Proofs.Registry.Deeds
import CallGuard.Proofs.Rolling.Orderly

/-!
# What the window of a circuit shows

The clock never goes back, so what guarded calls report reaches every counter in order, however the calls overlap and
whatever else is done in between: no event is too old for the ring when it comes, and none runs ahead of a query at the
present. A circuit that hears of calls only through their own reports therefore shows in its window exactly what the
chronicle says of the last buckets, and in its totals all of it.

* **Moments** (`Engine.Moment`): deeds have been done one after the other, or a run is under way in the midst of a round.
* **Invariant** (`Engine.Tracks`): the counters of a place are those of the beginning, fed with the instants of the entries
  of the chronicle, which are in order and not later than now.

**Main statement** (`Engine.reading_of_moment`): at every moment after a circuit was registered its snapshot shows, for
each outcome, how many parts of calls ended so in the last buckets up to the present one, and how many at all.
-/

namespace CallGuard

open Rolling

variable {α : Type}

/-! ## Entries of one outcome -/

namespace Entry

/-- The primary part of a call on circuit `i` ended with the outcome `o`. -/
def isCall (i : Nat) (o : CallOutcome) : Entry → Bool
  | call h o' => h.index = i ∧ o' = o
  | fallback .. => false

/-- The fallback of a call on circuit `i` ended with the outcome `o`. -/
def isFallback (i : Nat) (o : FallbackOutcome) : Entry → Bool
  | call .. => false
  | fallback h o' => h.index = i ∧ o' = o

theorem countsCall_category (i : Nat) (o : CallOutcome) : countsCall i o.category = isCall i o := by
  funext x
  cases x with
  | call h o' =>
    have hiff : o'.category = o.category ↔ o' = o := ⟨CallOutcome.category_injective, fun h => by rw [h]⟩
    simp only [countsCall, isCall, hiff]
  | fallback => rfl

theorem countsFallback_category (i : Nat) (o : FallbackOutcome) : countsFallback i o.category = isFallback i o := by
  funext x
  cases x with
  | call => rfl
  | fallback h o' =>
    have hiff : o'.category = o.category ↔ o' = o := ⟨FallbackOutcome.category_injective, fun h => by rw [h]⟩
    simp only [countsFallback, isFallback, hiff]

end Entry

/-! ## Moments -/

/-- What is entered while a deed is done, with the milliseconds in which it is. -/
def Engine.chronicleOf (e : Engine) : Deed α → List (Nat × Entry)
  | .run items => (e.rounds items).flatMap Round.whole
  | _ => []

/-- What is entered while deeds are done one after the other. -/
def Engine.chronicle (e : Engine) : List (Deed α) → List (Nat × Entry)
  | [] => []
  | d :: deeds => e.chronicleOf d ++ (e.carry d).chronicle deeds

/-- In the course of the deeds there is a moment at which the engine is `e'` and the chronicle has come to `log`. -/
inductive Engine.Moment (e : Engine) : List (Deed α) → Engine → List (Nat × Entry) → Prop
  /-- The deeds are done. -/
  | done (deeds : List (Deed α)) : Moment e deeds (e.carryAll deeds) (e.chronicle deeds)
  /-- The last deed is a run, and in one of its rounds the task at position `k` is next. -/
  | during (deeds : List (Deed α)) (items : List (Item α)) {before after : List (Round α)} {c : Round α}
    (rounds : (e.carryAll deeds).rounds items = before ++ c :: after) (k : Nat) :
    Moment e (deeds ++ [.run items]) (c.polled k) (e.chronicle deeds ++ before.flatMap Round.whole ++ c.chronicle k)

/-! ## The instants of a chronicle -/

/-- The instants of the entries that are wanted. -/
def stamps (wanted : Entry → Bool) (log : List (Nat × Entry)) : List Int :=
  (log.filter fun x => wanted x.2).map fun x => ((x.1 * Duration.perMilli : Nat) : Int)

theorem stamps_append (wanted : Entry → Bool) (log log' : List (Nat × Entry)) :
    stamps wanted (log ++ log') = stamps wanted log ++ stamps wanted log' := by
  rw [stamps, List.filter_append, List.map_append, stamps, stamps]

/-- Entries of one instant differ in nothing that is counted. -/
theorem stamps_of_now (wanted : Entry → Bool) (e : Engine) (l : List Entry) :
    stamps wanted (l.map fun x => (e.now, x)) = List.replicate (l.countP wanted) e.instant := by
  rw [List.eq_replicate_iff]
  constructor
  · rw [stamps, List.length_map, List.filter_map, List.length_map, List.countP_eq_length_filter]
    rfl
  · intro t ht
    obtain ⟨x, hx, rfl⟩ := List.mem_map.mp ht
    obtain ⟨y, -, rfl⟩ := List.mem_map.mp (List.mem_of_mem_filter hx)
    rfl

namespace Rolling.Counter

theorem run_append (c : Counter) (ts us : List Int) : c.run (ts ++ us) = (c.run ts).run us := List.foldl_append ..

theorem incrementMany_eq_run (c : Counter) (t : Int) (n : Nat) : c.incrementMany t n = c.run (List.replicate n t) := by
  induction n generalizing c with
  | zero => rfl
  | succ n ih => rw [incrementMany, ih, List.replicate_succ, run_cons]

/-- Entries of the present come after those before them. -/
theorem map_run_stamps (c? : Option Counter) (wanted : Entry → Bool) (log : List (Nat × Entry)) (e : Engine)
    (l : List Entry) :
    (c?.map (·.run (stamps wanted log))).map (·.incrementMany e.instant (l.countP wanted)) =
      c?.map (·.run (stamps wanted (log ++ l.map fun x => (e.now, x)))) := by
  rw [Option.map_map, stamps_append, stamps_of_now]
  congr 1
  funext c
  rw [Function.comp_apply, incrementMany_eq_run, run_append]

end Rolling.Counter

/-! ## The invariant -/

/-- The counters of circuit `i` are those of `e₀` after the entries of `log`, which came in order and not after `e`. -/
structure Engine.Tracks (e₀ : Engine) (i : Nat) (e : Engine) (log : List (Nat × Entry)) : Prop where
  present : i < e₀.registry.size
  calls : ∀ k, e.callCounter? i k = (e₀.callCounter? i k).map (·.run (stamps (Entry.countsCall i k) log))
  fallbacks : ∀ k, e.fallbackCounter? i k =
    (e₀.fallbackCounter? i k).map (·.run (stamps (Entry.countsFallback i k) log))
  sorted : log.Pairwise fun x y => x.1 ≤ y.1
  past : ∀ x ∈ log, x.1 ≤ e.now

namespace Engine

theorem now_le_perform (e : Engine) (op : Operation) : e.now ≤ (e.perform op).now := by
  cases op with
  | register | report | reportFallback | applyAll => exact Nat.le_refl _
  | createCircuit name reg limits =>
    rw [perform, createCircuit]
    split <;> exact Nat.le_refl _
  | apply s =>
    rw [perform]
    split <;> exact Nat.le_refl _
  | advance ms => exact Nat.le_add_right ..

namespace Tracks

variable {e₀ e e' : Engine} {i : Nat} {log : List (Nat × Entry)} {l : List Entry}

theorem start (h : i < e₀.registry.size) : Tracks e₀ i e₀ [] where
  present := h
  calls _ := (Option.map_id' ..).symm
  fallbacks _ := (Option.map_id' ..).symm
  sorted := List.Pairwise.nil
  past _ h := absurd h List.not_mem_nil

/-- The circuit of the place is there. -/
theorem exists_circuit (h : Tracks e₀ i e log) : ∃ c, e.registry.circuits[i]? = some c := by
  have hcalls := h.calls .successes
  rw [callCounter?, callCounter?, Array.getElem?_eq_getElem h.present, Option.map_some, Option.map_some,
    Option.map_eq_some_iff] at hcalls
  exact hcalls.imp fun _ hc => hc.1

/-- **Accounted polls** add to the chronicle what they enter. -/
theorem accounts (h : Tracks e₀ i e log) (ha : Accounts e e' l) :
    Tracks e₀ i e' (log ++ l.map fun x => (e.now, x)) where
  present := h.present
  calls k := by rw [ha.calls, h.calls, Counter.map_run_stamps]
  fallbacks k := by rw [ha.fallbacks, h.fallbacks, Counter.map_run_stamps]
  sorted := by
    refine List.pairwise_append.mpr ⟨h.sorted, ?_, ?_⟩
    · exact List.pairwise_map.mpr (List.pairwise_of_forall fun _ _ => Nat.le_refl _)
    · intro x hx y hy
      obtain ⟨z, -, rfl⟩ := List.mem_map.mp hy
      exact h.past x hx
  past x hx := by
    rw [ha.now_eq]
    rcases List.mem_append.mp hx with hx | hx
    · exact h.past x hx
    · obtain ⟨z, -, rfl⟩ := List.mem_map.mp hx
      exact Nat.le_refl _

/-- What leaves the circuit alone, and the clock where it is or later, adds nothing. -/
theorem quiet (h : Tracks e₀ i e log) (hc : e'.registry.circuits[i]? = e.registry.circuits[i]?)
    (hn : e.now ≤ e'.now) : Tracks e₀ i e' log where
  present := h.present
  calls k := by
    rw [callCounter?, hc]
    exact h.calls k
  fallbacks k := by
    rw [fallbackCounter?, hc]
    exact h.fallbacks k
  sorted := h.sorted
  past x hx := Nat.le_trans (h.past x hx) hn

theorem rounds {rounds : List (Round α)} (h : Tracks e₀ i e log) (hr : e.Leads rounds e') :
    Tracks e₀ i e' (log ++ rounds.flatMap Round.whole) :=
  hr.keeps (fun ha h => h.accounts ha) (fun hn h => h.quiet rfl hn) h

/-- **A deed** that reports nothing of the circuit by hand adds what it enters. -/
theorem carry (h : Tracks e₀ i e log) {d : Deed α} (own : ∀ op, d = .ask op → op.reportAt i = none) :
    Tracks e₀ i (e.carry d) (log ++ e.chronicleOf d) := by
  cases d with
  | ask op =>
    obtain ⟨c, hc⟩ := h.exists_circuit
    change Tracks e₀ i (e.perform op) (log ++ [])
    rw [List.append_nil]
    refine h.quiet ?_ (e.now_le_perform op)
    rw [getElem?_perform hc, own op rfl, hc]
    rfl
  | cancel signal =>
    change Tracks e₀ i (e.cancel signal) (log ++ [])
    rw [List.append_nil]
    exact h.quiet rfl (Nat.le_refl _)
  | run items => exact h.rounds (e.leads_run items)

theorem carryAll (h : Tracks e₀ i e log) {deeds : List (Deed α)}
    (own : ∀ op, .ask op ∈ deeds → op.reportAt i = none) : Tracks e₀ i (e.carryAll deeds) (log ++ e.chronicle deeds) := by
  induction deeds generalizing e log with
  | nil => rwa [chronicle, List.append_nil]
  | cons d deeds ih =>
    have hfirst := h.carry fun op hop => own op (hop ▸ List.mem_cons_self)
    have hrest := ih hfirst fun op hop => own op (List.mem_cons_of_mem d hop)
    rwa [List.append_assoc] at hrest

/-- **At every moment** the counters of the circuit are fed with the chronicle until then. -/
theorem moment {deeds : List (Deed α)} (h : i < e.registry.size)
    (own : ∀ op, .ask op ∈ deeds → op.reportAt i = none) (hm : e.Moment deeds e' log) : Tracks e i e' log := by
  cases hm with
  | done => exact (start h).carryAll own
  | during deeds items hrounds k =>
    have hdone := (start h).carryAll fun op hop => own op (List.mem_append_left _ hop)
    have hbefore := hdone.rounds ((leads_run _ items).to_round hrounds)
    exact hbefore.accounts (Task.accounts_pollAll _ _)

/-- Counters that have seen nothing at the beginning have seen the chronicle since. -/
theorem replay {origin : Int} {name : CircuitName} {w : Window} {valid : w.Valid} {track : Bool}
    {c : RegisteredCircuit} (h : Tracks e₀ i e log)
    (hstart : e₀.registry.circuits[i]? = some (.start origin name w valid track))
    (hc : e.registry.circuits[i]? = some c) :
    (∀ k, c.calls.counter k = (Counter.start w valid origin).run (stamps (Entry.countsCall i k) log)) ∧
      c.fallbacks.isSome = track ∧ ∀ f ∈ c.fallbacks, ∀ k,
        f.counter k = (Counter.start w valid origin).run (stamps (Entry.countsFallback i k) log) := by
  have hfallbacks : ∀ k, c.fallbacks.map (·.counter k) = if track then
      some ((Counter.start w valid origin).run (stamps (Entry.countsFallback i k) log)) else none := fun k => by
    have hcounter := h.fallbacks k
    rw [fallbackCounter?, fallbackCounter?, hc, hstart, Option.bind_some, Option.bind_some,
      RegisteredCircuit.start] at hcounter
    rw [hcounter]
    cases track with
    | true =>
      rw [if_pos rfl, if_pos rfl, Option.map_some, Option.map_some, Stats.counter_start]
    | false => rfl
  refine ⟨fun k => ?_, ?_, fun f hf k => ?_⟩
  · have hcounter := h.calls k
    rw [callCounter?, callCounter?, hc, hstart] at hcounter
    rw [← Stats.counter_start w valid origin k]
    exact Option.some.inj hcounter
  · have hsome := congrArg Option.isSome (hfallbacks .successes)
    rw [Option.isSome_map] at hsome
    cases track <;> exact hsome
  · have hcounter := hfallbacks k
    rw [Option.mem_def.mp hf] at hcounter
    cases track with
    | true => exact Option.some.inj hcounter
    | false => cases hcounter

end Tracks
end Engine

/-! ## The last buckets -/

/-- Of buckets that are aligned to `origin`, the one of the millisecond `t` is among the last ones up to that of `now`. -/
def Window.covers (w : Window) (origin now t : Nat) : Bool :=
  (t - origin) / w.bucketMs.toNat ≤ (now - origin) / w.bucketMs.toNat ∧
    (now - origin) / w.bucketMs.toNat < (t - origin) / w.bucketMs.toNat + w.buckets.toNat

namespace Rolling.Counter

variable {w : Window} {valid : w.Valid} {origin now : Nat} {log : List (Nat × Entry)} {wanted : Entry → Bool}

theorem bucketId_start {t : Nat} (ht : t ≤ now) (ids : (now - origin) / w.bucketMs.toNat < UInt64.size) :
    (start w valid ((origin * Duration.perMilli : Nat) : Int)).bucketId ((t * Duration.perMilli : Nat) : Int) =
      (t - origin) / w.bucketMs.toNat := by
  have helapsed : (((t * Duration.perMilli : Nat) : Int) - ((origin * Duration.perMilli : Nat) : Int)).toNat =
      (t - origin) * Duration.perMilli := by
    rw [Nat.sub_mul]
    omega
  have hdiv : (t - origin) * Duration.perMilli / w.bucketNanos = (t - origin) / w.bucketMs.toNat :=
    Nat.mul_div_mul_right _ _ (by decide)
  have hle : (t - origin) / w.bucketMs.toNat ≤ (now - origin) / w.bucketMs.toNat :=
    Nat.div_le_div_right (Nat.sub_le_sub_right ht origin)
  rw [bucketId, elapsed, start, helapsed, hdiv, Nat.mod_eq_of_lt (Nat.lt_of_le_of_lt hle ids)]

/-- A counter that is fed in order shows what the chronicle says of the last buckets, and in its total all of it. -/
theorem reading_run_stamps (sorted : log.Pairwise fun x y => x.1 ≤ y.1) (past : ∀ x ∈ log, x.1 ≤ now)
    (ids : (now - origin) / w.bucketMs.toNat < UInt64.size) :
    ((start w valid ((origin * Duration.perMilli : Nat) : Int)).run (stamps wanted log)).reading
        ((now * Duration.perMilli : Nat) : Int) =
      ⟨log.countP fun x => wanted x.2 && w.covers origin now x.1, log.countP fun x => wanted x.2⟩ := by
  have hid : ∀ x ∈ log, (start w valid ((origin * Duration.perMilli : Nat) : Int)).bucketId
      ((x.1 * Duration.perMilli : Nat) : Int) = (x.1 - origin) / w.bucketMs.toNat := fun x hx =>
    bucketId_start (past x hx) ids
  have hpast : ∀ x ∈ log, (x.1 - origin) / w.bucketMs.toNat ≤ (now - origin) / w.bucketMs.toNat := fun x hx =>
    Nat.div_le_div_right (Nat.sub_le_sub_right (past x hx) origin)
  have htotal := (run_eq (start w valid ((origin * Duration.perMilli : Nat) : Int)) (stamps wanted log)).2.2
  rw [reading, htotal, rollingSum_run_of_sorted, bucketId_start (Nat.le_refl now) ids]
  · congr 1
    · rw [stamps, List.countP_map, List.countP_filter]
      refine List.countP_congr fun x hx => ?_
      rw [Function.comp_apply, hid x hx, Window.covers, Bool.and_comm]
      simp only [hpast x hx, true_and]
    · rw [stamps, List.length_map, ← List.countP_eq_length_filter]
      exact Nat.zero_add _
  · rw [stamps, List.map_map, List.pairwise_map]
    refine (sorted.filter _).imp_of_mem fun {x y} hx hy hxy => ?_
    rw [Function.comp_apply, Function.comp_apply, hid x (List.mem_of_mem_filter hx), hid y (List.mem_of_mem_filter hy)]
    exact Nat.div_le_div_right (Nat.sub_le_sub_right hxy origin)
  · intro t ht
    obtain ⟨x, hx, rfl⟩ := List.mem_map.mp ht
    rw [hid x (List.mem_of_mem_filter hx), bucketId_start (Nat.le_refl now) ids]
    exact hpast x (List.mem_of_mem_filter hx)

end Rolling.Counter

namespace Engine

variable {e e' : Engine} {op : Operation} {name : String} {reg : Registration} {h : Handle}
  {deeds : List (Deed α)} {log : List (Nat × Entry)}

/-- A registration that is granted for a new name puts counters that have seen nothing at the place of its handle. -/
theorem circuits_of_answer (asks : op.asks = some (name, reg)) (fresh : e.registry.find? ⟨reg.scope, name⟩ = none)
    (answer : e.answer op = some h) : ∃ valid : (e.registry.windowOf name reg).Valid,
      (e.perform op).registry.circuits[h.index]? = some (.start e.instant ⟨reg.scope, name⟩
        (e.registry.windowOf name reg) valid (e.registry.fallbackOf name reg)) := by
  cases e.does op with
  | adds name' reg' asks' _ valid answer' circuits =>
    rw [asks] at asks'
    cases asks'
    rw [answer] at answer'
    cases answer'
    exact ⟨valid, by rw [circuits, Registry.size, Array.getElem?_push_size]⟩
  | records _ _ _ answer' _ =>
    rw [answer'] at answer
    cases answer
  | leaves _ answer' _ =>
    obtain ⟨k, hk, hfound⟩ := answer' h answer
    rw [Operation.name?, asks] at hk
    cases hk
    rw [fresh] at hfound
    cases hfound

/-- **Nothing is lost from a window.** Let a registration of a new name be granted, and then deeds be done none of which
reports of the circuit by hand. At every moment in their course, as long as the buckets since the registration can be
counted in 64 bits, a snapshot of the circuit at that instant shows for each outcome how many primary parts of calls
ended so in the last buckets of its window, which are aligned to the registration, and how many did at all; likewise for
its fallbacks, if it counts them. -/
theorem reading_of_moment (asks : op.asks = some (name, reg)) (fresh : e.registry.find? ⟨reg.scope, name⟩ = none)
    (answer : e.answer op = some h) (own : ∀ op', .ask op' ∈ deeds → op'.reportAt h.index = none)
    (moment : (e.perform op).Moment deeds e' log)
    (ids : (e'.now - e.now) / (e.registry.windowOf name reg).bucketMs.toNat < UInt64.size) :
    ∃ c, e'.registry.circuit? h = some c ∧
      (∀ o, (c.calls.reading e'.instant).counter o.category =
        ⟨log.countP fun x => x.2.isCall h.index o && (e.registry.windowOf name reg).covers e.now e'.now x.1,
          log.countP fun x => x.2.isCall h.index o⟩) ∧
      (c.fallbacks.isSome = e.registry.fallbackOf name reg) ∧
      ∀ f ∈ c.fallbacks, ∀ o, (f.reading e'.instant).counter o.category =
        ⟨log.countP fun x => x.2.isFallback h.index o && (e.registry.windowOf name reg).covers e.now e'.now x.1,
          log.countP fun x => x.2.isFallback h.index o⟩ := by
  obtain ⟨valid, hstart⟩ := circuits_of_answer asks fresh answer
  have htracks := Tracks.moment (Array.getElem?_eq_some_iff.mp hstart).1 own moment
  obtain ⟨c, hc⟩ := htracks.exists_circuit
  have hshows : ∀ wanted, ((Counter.start (e.registry.windowOf name reg) valid e.instant).run
      (stamps wanted log)).reading e'.instant =
      ⟨log.countP fun x => wanted x.2 && (e.registry.windowOf name reg).covers e.now e'.now x.1,
        log.countP fun x => wanted x.2⟩ := fun wanted =>
    Counter.reading_run_stamps htracks.sorted htracks.past ids
  obtain ⟨hcalls, htrack, hfallbacks⟩ := htracks.replay hstart hc
  refine ⟨c, hc, fun o => ?_, htrack, fun f hf o => ?_⟩
  · change (c.calls.counter o.category).reading e'.instant = _
    rw [hcalls, hshows, Entry.countsCall_category]
  · change (f.counter o.category).reading e'.instant = _
    rw [hfallbacks f hf, hshows, Entry.countsFallback_category]

end Engine

namespace Remembering

/-- A circuit with one permit and a window of two seconds. -/
def circuit : Circuit := ⟨0, ⟨⟨"", "db"⟩, 0⟩, { maxCalls := some 1 }⟩

/-- The registration of the circuit. -/
def registration : Operation := .createCircuit "db" { window := some { buckets := 2 } } circuit.limits

/-- While a call waits a second one is refused and answered by its fallback; a third one comes later, and then time
passes. -/
def deeds : List (Deed Nat) :=
  [.run [⟨0, .call ⟨circuit, {}, .wait 900 (.done (.ok (.plain 1))), none⟩⟩,
      ⟨100, .call ⟨circuit, {}, .hang, some (.done (.ok (.plain 2)))⟩⟩,
      ⟨1500, .call ⟨circuit, {}, .done (.ok (.plain 3)), none⟩⟩],
    .ask (.advance 700)]

end Remembering

/-- Of two successes one is still in the window, the refused call and its fallback are not. -/
theorem Engine.reading_of_moment_remembering :
    let e := (start {}).perform Remembering.registration
    ∃ c, (e.carryAll Remembering.deeds).registry.circuit? Remembering.circuit.handle = some c ∧
      (c.calls.reading (e.carryAll Remembering.deeds).instant).counter .successes = ⟨1, 2⟩ ∧
      (c.calls.reading (e.carryAll Remembering.deeds).instant).counter .concurrencyRejections = ⟨0, 1⟩ ∧
      ∀ f ∈ c.fallbacks, (f.reading (e.carryAll Remembering.deeds).instant).counter .successes = ⟨0, 1⟩ := by
  intro e
  have own : ∀ op, .ask op ∈ Remembering.deeds → op.reportAt Remembering.circuit.handle.index = none := by
    intro op hop
    obtain ⟨-, ⟨⟩⟩ | hop := List.mem_cons.mp hop
    obtain rfl := Deed.ask.inj (List.mem_singleton.mp hop)
    rfl
  have asks : Remembering.registration.asks = some ("db", { window := some { buckets := 2 } }) := rfl
  have answer : (start {}).answer Remembering.registration = some Remembering.circuit.handle := by decide +kernel
  obtain ⟨c, hc, hcalls, -, hfallbacks⟩ := reading_of_moment asks (by decide +kernel) answer own
    (.done Remembering.deeds) (by decide +kernel)
  refine ⟨c, hc, (hcalls .success).trans ?_, (hcalls .concurrencyRejected).trans ?_, fun f hf =>
    (hfallbacks f hf .success).trans ?_⟩
  · decide +kernel
  · decide +kernel
  · decide +kernel

end CallGuard
