import Mathlib.Data.List.Dedup
import Mathlib.Data.Finset.Card
import CallGuard.Proofs.Registry.Histories
import CallGuard.Proofs.Registry.Names

/-!
# The first registration of a name wins

The first registration of a name that is granted settles the circuit (`RegisteredCircuit.Settled`): its window and
whether its fallbacks are counted, each of them from what the caller asks for, else from the override for circuits of
that name in any scope, else from the common settings of that moment, and the instant at which all its counters start.
Reports keep that (`Settled.recordAll`), and every other operation leaves the circuit as it is.

**Main statement** (`Engine.run_firstWins`): after any history of a new registry exactly the granted names are found,
each in one circuit that is as its first registration settled it, whatever came later.
-/

namespace CallGuard

open Rolling

/-! ## Counters of one window and one origin -/

namespace Stats

variable {κ : Type} [Category κ] {s : Stats κ} {w : Window} {origin : Int}

/-- All counters of a family have the window `w` and start at `origin`. -/
def StartAt (s : Stats κ) (w : Window) (origin : Int) : Prop :=
  ∀ k, (s.counter k).window = w ∧ (s.counter k).origin = origin

theorem startAt_start (valid : w.Valid) (origin : Int) : (start w valid origin : Stats κ).StartAt w origin := by
  intro k
  rw [counter_start]
  exact ⟨rfl, rfl⟩

theorem StartAt.record [DecidableEq κ] (h : s.StartAt w origin) (k : κ) (t : Int) :
    (s.record k t).StartAt w origin := by
  intro l
  rw [counter_record]
  split
  · rw [Counter.window_increment, Counter.origin_increment]
    exact h l
  · exact h l

end Stats

/-! ## What a registration settles -/

/-- The circuit is as a registration of `name` under the settings `s` makes it, with counters that start at `origin`. -/
structure RegisteredCircuit.Settled (c : RegisteredCircuit) (s : Settings) (name : String) (reg : Registration)
    (origin : Int) : Prop where
  name_eq : c.name = ⟨reg.scope, name⟩
  /-- The window is the caller's, else the override's for the name in any scope, else the common one. -/
  window_eq : c.window = (reg.window.or ((s.override? name).bind (·.window))).getD s.window
  /-- Whether fallbacks are counted is settled in the same way, apart from the window. -/
  tracks_eq : c.fallbacks.isSome =
    (reg.trackFallback.or ((s.override? name).bind (·.trackFallback))).getD s.trackFallback
  calls_startAt : c.calls.StartAt c.window origin
  fallbacks_startAt : ∀ f ∈ c.fallbacks, f.StartAt c.window origin

namespace RegisteredCircuit

variable {c : RegisteredCircuit} {s : Settings} {name : String} {reg : Registration} {origin : Int}

theorem settled_start (r : Registry) (valid : (r.windowOf name reg).Valid) (origin : Int) :
    (start origin ⟨reg.scope, name⟩ (r.windowOf name reg) valid (r.fallbackOf name reg)).Settled r.settings name reg
      origin where
  name_eq := rfl
  window_eq := by
    change reg.window.getD (r.settings.windowFor name) = _
    rw [Settings.windowFor]
    cases reg.window <;> rfl
  tracks_eq := by
    have htracks : (start origin ⟨reg.scope, name⟩ (r.windowOf name reg) valid
        (r.fallbackOf name reg)).fallbacks.isSome = r.fallbackOf name reg := by
      unfold start
      cases r.fallbackOf name reg <;> rfl
    rw [htracks, Registry.fallbackOf, Settings.fallbackFor]
    cases reg.trackFallback <;> rfl
  calls_startAt := Stats.startAt_start valid origin
  fallbacks_startAt := by
    intro f hf
    unfold start at hf
    split at hf
    · cases hf
      exact Stats.startAt_start valid origin
    · cases hf

/-- A report keeps what was settled. -/
theorem Settled.record (h : c.Settled s name reg origin) (x : Report) : (c.record x).Settled s name reg origin := by
  obtain ⟨hname, hwindow, htracks, hcalls, hfallbacks⟩ := h
  cases x with
  | call o t => exact ⟨hname, hwindow, htracks, hcalls.record o.category t, hfallbacks⟩
  | fallback o t =>
    refine ⟨hname, hwindow, ?_, hcalls, ?_⟩
    · rw [← htracks, RegisteredCircuit.record, Option.isSome_map]
    · intro f hf
      obtain ⟨f, hmem, rfl⟩ := Option.map_eq_some_iff.mp hf
      exact (hfallbacks f hmem).record o.category t

theorem Settled.recordAll (h : c.Settled s name reg origin) (reports : List Report) :
    (c.recordAll reports).Settled s name reg origin := by
  induction reports generalizing c with
  | nil => exact h
  | cons x reports ih => exact ih (h.record x)

end RegisteredCircuit

namespace Engine

variable {e : Engine} {op : Operation} {name : String} {reg : Registration} {h : Handle}

/-- A registration that is granted for a new name puts a settled circuit into the place of its handle. -/
theorem exists_settled_of_answer (ha : op.asks = some (name, reg))
    (hnew : (⟨reg.scope, name⟩ : CircuitName) ∉ e.registry.roll) (hanswer : e.answer op = some h) :
    ∃ c, (e.perform op).registry.circuits[h.index]? = some c ∧
      c.Settled e.registry.settings name reg e.instant := by
  have hname : op.name? = some ⟨reg.scope, name⟩ := by rw [Operation.name?, ha]; rfl
  rcases e.does op with ⟨name', reg', ha', hf, hv, hadded, hc⟩ | ⟨h', x, hx, hnone, hc⟩ | ⟨hx, hfound, hc⟩
  · rw [ha] at ha'
    cases ha'
    rw [hadded] at hanswer
    cases hanswer
    refine ⟨_, ?_, RegisteredCircuit.settled_start e.registry hv e.instant⟩
    rw [hc, Registry.size, Array.getElem?_push_size]
  · rw [hnone] at hanswer
    cases hanswer
  · obtain ⟨k, hk, hf⟩ := hfound h hanswer
    rw [hname] at hk
    cases hk
    exact absurd (Registry.isSome_find?_iff.mp (by rw [hf]; rfl)) hnew

/-! ## The first registration -/

/-- After the history `before` the operation is the first one that is granted the name it asks to register. -/
structure Founds (e : Engine) (before : List Operation) (op : Operation) (name : String) (reg : Registration)
    (h : Handle) : Prop where
  asks : op.asks = some (name, reg)
  fresh : (⟨reg.scope, name⟩ : CircuitName) ∉ e.granted before
  answer : (e.performAll before).answer op = some h

/-- Every name that is granted is granted a first time. -/
theorem exists_founds {ops : List Operation} {k : CircuitName} (hk : k ∈ e.granted ops) :
    ∃ before op later name reg h, ops = before ++ op :: later ∧ k = ⟨reg.scope, name⟩ ∧
      e.Founds before op name reg h := by
  induction ops generalizing e with
  | nil => cases hk
  | cons op ops ih =>
    -- either `op` is the first to be granted the name, or the first one comes later
    by_cases hnow : op.name? = some k ∧ (e.answer op).isSome
    · obtain ⟨⟨name, reg⟩, ha, rfl⟩ := Option.map_eq_some_iff.mp hnow.1
      obtain ⟨h, hanswer⟩ := Option.isSome_iff_exists.mp hnow.2
      exact ⟨[], op, ops, name, reg, h, rfl, rfl, ha, List.not_mem_nil, hanswer⟩
    · have hhead : k ∉ if (e.answer op).isSome then op.name?.toList else [] := by
        intro hmem
        split at hmem
        · exact hnow ⟨Option.mem_toList.mp hmem, by assumption⟩
        · cases hmem
      obtain ⟨before, op', later, name, reg, h, rfl, rfl, hfounds⟩ := ih ((List.mem_append.mp hk).resolve_left hhead)
      refine ⟨op :: before, op', later, name, reg, h, rfl, rfl, hfounds.asks, ?_, hfounds.answer⟩
      rw [granted, List.mem_append]
      exact not_or.mpr ⟨hhead, hfounds.fresh⟩

/-! ## All histories of a new registry -/

/-- What holds of the circuits of a registry after a history. -/
structure FirstWins (e : Engine) (ops : List Operation) : Prop where
  /-- A name is found exactly if a registration of it was granted. -/
  found_iff : ∀ k, ((e.performAll ops).registry.find? k).isSome ↔ k ∈ e.granted ops
  /-- There are as many circuits as names, and as distinct names that were granted. -/
  size_eq : (e.performAll ops).registry.size = (e.performAll ops).registry.names.length ∧
    (e.performAll ops).registry.size = (e.granted ops).toFinset.card
  /-- The names are listed in strictly increasing order, byte by byte. -/
  increasing : (e.performAll ops).registry.names.Pairwise CircuitName.Before
  /-- That list does not depend on the order of registration: any history that grants these names has it. -/
  order_free : ∀ (s' : Settings) (e' : Engine) (ops' : List Operation), Registry.create s' = .ok e'.registry →
    (∀ k, k ∈ e'.granted ops' ↔ k ∈ e.granted ops) →
      (e'.performAll ops').registry.names = (e.performAll ops).registry.names
  /-- Whatever handle was handed out for a name is the one that is found at last, and leads to a circuit. -/
  one_instance : ∀ k h, e.Obtained k h ops →
    (e.performAll ops).registry.find? k = some h ∧ ∃ c, (e.performAll ops).registry.circuit? h = some c ∧ c.name = k
  /-- Every granted name has a first registration that was granted. -/
  founded : ∀ k ∈ e.granted ops, ∃ before op later name reg h, ops = before ++ op :: later ∧ k = ⟨reg.scope, name⟩ ∧
    e.Founds before op name reg h
  /-- The circuit is as that one settled it. -/
  settled : ∀ before op later name reg h, ops = before ++ op :: later → e.Founds before op name reg h →
    ∃ c, (e.performAll ops).registry.circuit? h = some c ∧
      c.Settled (e.performAll before).registry.settings name reg (e.performAll before).instant
  /-- An operation that reports nothing leaves every circuit just as it is. -/
  kept : ∀ op, op.reports = none → ∀ h c, (e.performAll ops).registry.circuit? h = some c →
    (e.performAll (ops ++ [op])).registry.circuit? h = some c

theorem nodup_roll_of_new (hnew : e.registry.roll = []) (ops : List Operation) :
    (e.performAll ops).registry.roll.Nodup :=
  nodup_roll_performAll (by rw [hnew]; exact List.nodup_nil) ops

theorem mem_roll_of_new (hnew : e.registry.roll = []) (ops : List Operation) {k : CircuitName} :
    k ∈ (e.performAll ops).registry.roll ↔ k ∈ e.granted ops := by
  rw [mem_roll_performAll, hnew]
  simp

/-- **The first registration of a name wins, for ever.** -/
theorem run_firstWins {s : Settings} (hnew : Registry.create s = .ok e.registry) (ops : List Operation) :
    e.FirstWins ops := by
  have hroll := Registry.roll_of_create hnew
  have hnodup := nodup_roll_of_new hroll ops
  constructor
  case found_iff =>
    intro k
    rw [Registry.isSome_find?_iff, mem_roll_of_new hroll]
  case size_eq =>
    have hperm := CircuitName.sort_perm (e.performAll ops).registry.roll
    have hset : (e.performAll ops).registry.roll.toFinset = (e.granted ops).toFinset := by
      ext k
      rw [List.mem_toFinset, List.mem_toFinset, mem_roll_of_new hroll]
    constructor
    · rw [← Registry.length_roll]
      exact hperm.length_eq.symm
    · rw [← hset, List.toFinset_card_of_nodup hnodup, Registry.length_roll]
  case increasing => exact CircuitName.pairwise_before_sort hnodup
  case order_free =>
    intro s' e' ops' hnew' hsame
    have hroll' := Registry.roll_of_create hnew'
    refine CircuitName.sort_congr ((List.perm_ext_iff_of_nodup (nodup_roll_of_new hroll' ops') hnodup).mpr ?_)
    intro k
    rw [mem_roll_of_new hroll', mem_roll_of_new hroll, hsame]
  case one_instance =>
    intro k h hobtained
    have hf := hobtained.find?_eq (by rw [hroll]; exact List.nodup_nil)
    exact ⟨hf, Registry.exists_circuit_of_find? hnodup hf⟩
  case founded => exact fun k hk => exists_founds hk
  case settled =>
    intro before op later name reg h hops hfounds
    subst hops
    obtain ⟨c, hc, hsettled⟩ := exists_settled_of_answer hfounds.asks
      (fun hmem => hfounds.fresh ((mem_roll_of_new hroll before).mp hmem)) hfounds.answer
    rw [performAll_append, performAll_cons]
    exact ⟨_, getElem?_performAll hc later, hsettled.recordAll _⟩
  case kept =>
    intro op hx h c hc
    rw [performAll_append, performAll_cons, performAll_nil]
    have hkept := getElem?_perform hc op
    rw [Operation.reportAt_of_none hx] at hkept
    exact hkept

end Engine

namespace Reregistration

/-- A circuit with a window of its own. -/
def first : Operation := .register "db" { window := some { buckets := 2 } }

/-- Settings of other windows that count no fallbacks, and registrations of the same name: with limits and yet another
window, with a bad window, and in another scope. -/
def later : List Operation :=
  [.apply { window := { buckets := 3 }, trackFallback := false },
    .createCircuit "db" { window := some { buckets := 5 }, trackFallback := some false } {},
    .register "db" { window := some { buckets := 0 } },
    .register "db" { scope := "eu" }]

end Reregistration

/-- The window is the one that was asked for first, and fallbacks are counted as they were at first. -/
theorem Engine.run_firstWins_later : Registry.create {} = .ok (start {}).registry ∧
    ∃ c, ((start {}).performAll (Reregistration.first :: Reregistration.later)).registry.circuit? ⟨⟨"", "db"⟩, 0⟩ =
        some c ∧
      c.window = { buckets := 2 } ∧ c.fallbacks.isSome = true ∧ c.calls.StartAt { buckets := 2 } 0 := by
  have hcreate := create_start (s := {}) (by decide +kernel)
  obtain ⟨c, hc, hsettled⟩ := (run_firstWins hcreate (Reregistration.first :: Reregistration.later)).settled
    [] Reregistration.first Reregistration.later "db" { window := some { buckets := 2 } } ⟨⟨"", "db"⟩, 0⟩ rfl
    ⟨rfl, List.not_mem_nil, by decide +kernel⟩
  have hwindow : c.window = { buckets := 2 } := hsettled.window_eq
  exact ⟨hcreate, c, hc, hwindow, hsettled.tracks_eq, hwindow ▸ hsettled.calls_startAt⟩

end CallGuard
