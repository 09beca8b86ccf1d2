import Mathlib.Logic.Function.Basic
import CallGuard.Proofs.Rolling.Orderly
import CallGuard.Proofs.Stats.Independence

/-!
# A snapshot that is taken while records come in

`Stats.reading` shows a family of counters at one moment. Whoever takes a snapshot has to read counter after counter, and
those of the real failures and the successes more than once, while others may go on recording. A `Viewing` is a snapshot
half taken: a schedule decides at each point whether the next read is made or a record comes in.

* **Moments** (`Viewing.Keeps`): every read of a viewing shows the family after some number of the records, and later
  reads come after more of them. A step of the schedule keeps that (`Viewing.Keeps.step`).
* **Alone** (`Viewing.reading_alone`): without a record in between the snapshot is `Stats.reading`.

**Main statement** (`Viewing.run_pieced`): whatever the schedule, a snapshot is put together from the figures of such
moments. Its derived figures agree with their parts if no success and no real failure came in while they were read, and
they are no more than their parts if nothing came in that belongs to a later bucket than the snapshot asks for.
Otherwise the errors may exceed the attempts, and neither figure need be that of its parts (`Viewing.run_torn`).
-/

namespace CallGuard

open Rolling

/-! ## Reads -/

/-- One read of a snapshot. -/
inductive Look (κ : Type)
  /-- The real failures, for the errors. -/
  | errors
  /-- The successes, for the legitimate attempts. -/
  | passes
  /-- The real failures, for the legitimate attempts. -/
  | failures
  /-- The window of a counter. -/
  | rolling (k : κ)
  /-- The lifetime total of a counter. -/
  | total (k : κ)
deriving DecidableEq

/-- The derived figures agree with the counters that they are derived from. -/
structure StatsReading.Agrees {κ : Type} [Category κ] (r : StatsReading κ) : Prop where
  errors_eq : r.errors = (r.counter Category.failures).rolling
  attempts_eq : r.legitimateAttempts = (r.counter Category.successes).rolling + (r.counter Category.failures).rolling
  errors_le : r.errors ≤ r.legitimateAttempts

namespace Look

variable {κ : Type}

/-- The reads of a snapshot of the counters `ks`, in their order. -/
def order (ks : List κ) : List (Look κ) :=
  .errors :: .passes :: .failures :: ks.flatMap fun k => [.rolling k, .total k]

theorem rolling_mem_order {ks : List κ} {k : κ} (h : k ∈ ks) : .rolling k ∈ order ks := by
  simpa [order] using h

theorem mem_order {ks : List κ} (h : ∀ k, k ∈ ks) (l : Look κ) : l ∈ order ks := by
  cases l <;> simp [order, h]

theorem nodup_order {ks : List κ} (h : ks.Nodup) : (order ks).Nodup := by
  have hcounters : (ks.flatMap fun k => [Look.rolling k, .total k]).Nodup := by
    rw [List.nodup_flatMap]
    refine ⟨fun k _ => by simp, h.imp fun {a b} hab => ?_⟩
    simpa [Function.onFun, List.Disjoint] using hab
  simp [order, hcounters]

/-- The snapshot with the given figures. -/
def reading (seen : Look κ → Nat) : StatsReading κ where
  errors := seen .errors
  legitimateAttempts := seen .passes + seen .failures
  counter k := ⟨seen (.rolling k), seen (.total k)⟩

variable [Category κ]

/-- What a read shows. -/
def figure (l : Look κ) (s : Stats κ) (t : Int) : Nat :=
  match l with
  | .errors | .failures => (s.counter Category.failures).rollingSum t
  | .passes => (s.counter Category.successes).rollingSum t
  | .rolling k => (s.counter k).rollingSum t
  | .total k => (s.counter k).total

/-- All reads at one moment are what the family shows then. -/
theorem reading_figure (s : Stats κ) (t : Int) : reading (fun l => l.figure s t) = s.reading t := rfl

end Look

/-- A snapshot of `stats` at `instant` that has the reads `pending` before it. -/
structure Viewing (κ : Type) [Category κ] where
  stats : Stats κ
  instant : Int
  pending : List (Look κ)
  seen : Look κ → Nat

/-- What a schedule lets happen next. -/
inductive Move (ω : Type)
  /-- The snapshot makes its next read. -/
  | look
  /-- An outcome is recorded at `u`. -/
  | record (o : ω) (u : Int)

/-- The records of a schedule. -/
def Move.records {ω : Type} (schedule : List (Move ω)) : List (ω × Int) :=
  schedule.filterMap fun
    | .look => none
    | .record o u => some (o, u)

theorem Move.records_cons {ω : Type} (m : Move ω) (schedule : List (Move ω)) :
    records (m :: schedule) = records [m] ++ records schedule := List.filterMap_append (l := [m]) ..

/-! ## Records and what a counter shows -/

namespace Stats

variable {ω κ : Type} [Category κ] [DecidableEq κ] {f : Classifier ω κ} {s : Stats κ} {k : κ} {t : Int}
  {records past : List (ω × Int)}

theorem run_append (s : Stats κ) (past records : List (ω × Int)) :
    s.run f (past ++ records) = (s.run f past).run f records := List.foldl_append ..

/-- Records of other categories leave a counter as it is. -/
theorem counter_run_append_of_ne (h : ∀ x ∈ records, f.category x.1 ≠ k) :
    (s.run f (past ++ records)).counter k = (s.run f past).counter k := by
  have hnone : instants (f.category · = k) records = [] := by
    rw [instants, List.filter_eq_nil_iff.mpr fun x hx => by simpa using h x hx, List.map_nil]
  rw [run_append, counter_run, hnone]
  rfl

/-- Records that are not of a later bucket than `t` take nothing from the window of `t`. -/
theorem rollingSum_le_run_append
    (h : ∀ x ∈ records, f.category x.1 = k → (s.counter k).bucketId x.2 ≤ (s.counter k).bucketId t) :
    ((s.run f past).counter k).rollingSum t ≤ ((s.run f (past ++ records)).counter k).rollingSum t := by
  rw [run_append, counter_run _ (s.run f past)]
  refine Counter.rollingSum_le_run fun u hu => ?_
  obtain ⟨x, hx, rfl⟩ := List.mem_map.mp hu
  obtain ⟨hmem, hwanted⟩ := List.mem_filter.mp hx
  rw [counter_run, (Counter.run_eq _ _).1]
  exact h x hmem (of_decide_eq_true hwanted)

end Stats

namespace Viewing

variable {ω κ : Type} [Category κ] [DecidableEq κ] (f : Classifier ω κ)

/-- A snapshot at `t` with nothing read. -/
def start (s : Stats κ) (t : Int) : Viewing κ := ⟨s, t, Look.order f.all, fun _ => 0⟩

/-- One move of the schedule. -/
def step (v : Viewing κ) : Move ω → Viewing κ
  | .look =>
    match v.pending with
    | [] => v
    | l :: ls => { v with pending := ls, seen := Function.update v.seen l (l.figure v.stats v.instant) }
  | .record o u => { v with stats := v.stats.record (f.category o) u }

/-- A whole schedule. -/
def run (v : Viewing κ) (schedule : List (Move ω)) : Viewing κ := schedule.foldl (step f) v

/-- What the snapshot shows, once it is taken. -/
def reading (v : Viewing κ) : StatsReading κ := Look.reading v.seen

variable {f} {s : Stats κ} {t : Int} {v : Viewing κ} {done : List (Look κ)} {records : List (ω × Int)}
  {moment : Look κ → Nat}

theorem step_look_of_pending {l : Look κ} {ls : List (Look κ)} (h : v.pending = l :: ls) :
    v.step f .look = { v with pending := ls, seen := Function.update v.seen l (l.figure v.stats v.instant) } := by
  rw [step, h]

theorem run_cons (v : Viewing κ) (m : Move ω) (schedule : List (Move ω)) :
    v.run f (m :: schedule) = (v.step f m).run f schedule := List.foldl_cons ..

theorem instant_step (v : Viewing κ) (m : Move ω) : (v.step f m).instant = v.instant := by
  unfold step
  split
  · split <;> rfl
  · rfl

theorem instant_run (v : Viewing κ) (schedule : List (Move ω)) : (v.run f schedule).instant = v.instant := by
  induction schedule generalizing v with
  | nil => rfl
  | cons m schedule ih => rw [run_cons, ih, instant_step]

theorem length_pending_step_look (v : Viewing κ) : (v.step f .look).pending.length = v.pending.length - 1 := by
  cases hp : v.pending with
  | nil => rw [step, hp, hp]; rfl
  | cons l ls => rw [step_look_of_pending hp]; rfl

/-- As many looks as there are reads finish a snapshot. -/
theorem finished_of_looks (v : Viewing κ) : (v.run f (List.replicate v.pending.length .look)).pending = [] := by
  obtain ⟨n, hn⟩ : ∃ n, v.pending.length = n := ⟨_, rfl⟩
  induction n generalizing v with
  | zero =>
    rw [hn]
    exact List.length_eq_zero_iff.mp hn
  | succ n ih =>
    have hnext : (v.step f .look).pending.length = n := by rw [length_pending_step_look, hn, Nat.add_sub_cancel]
    rw [hn, List.replicate_succ, run_cons, ← hnext]
    exact ih _ hnext

/-! ## Every read has its moment -/

/-- The reads `done` of a viewing show the family `s` after `moment` of the records that came in, each of them. -/
structure Keeps (f : Classifier ω κ) (v : Viewing κ) (s : Stats κ) (records : List (ω × Int)) (done : List (Look κ))
    (moment : Look κ → Nat) : Prop where
  stats_eq : v.stats = s.run f records
  seen_eq : ∀ l ∈ done, v.seen l = l.figure (s.run f (records.take (moment l))) v.instant
  ordered : done.Pairwise fun l m => moment l ≤ moment m
  bounded : ∀ l, moment l ≤ records.length
  distinct : (done ++ v.pending).Nodup

theorem Keeps.record (h : v.Keeps f s records done moment) (o : ω) (u : Int) :
    (v.step f (.record o u)).Keeps f s (records ++ [(o, u)]) done moment where
  stats_eq := by
    rw [step, h.stats_eq, Stats.run_append]
    rfl
  seen_eq l hl := by
    rw [List.take_append_of_le_length (h.bounded l)]
    exact h.seen_eq l hl
  ordered := h.ordered
  bounded l := by
    rw [List.length_append]
    exact Nat.le_add_right_of_le (h.bounded l)
  distinct := h.distinct

/-- A read is made of the family as all records so far have left it. -/
theorem Keeps.look (h : v.Keeps f s records done moment) {l : Look κ} {ls : List (Look κ)} (hl : v.pending = l :: ls) :
    (v.step f .look).Keeps f s records (done ++ [l]) (Function.update moment l records.length) := by
  have hdistinct := h.distinct
  rw [hl, List.append_cons] at hdistinct
  have hnew : ∀ m ∈ done, m ≠ l := fun m hm hml => by
    have := List.nodup_append.mp hdistinct.of_append_left
    exact this.2.2 m hm l (List.mem_singleton_self l) hml
  rw [step_look_of_pending hl]
  refine ⟨h.stats_eq, ?_, ?_, ?_, hdistinct⟩
  · intro m hm
    rcases List.mem_append.mp hm with hm | hm
    · simp only [Function.update_of_ne (hnew m hm)]
      exact h.seen_eq m hm
    · obtain rfl := List.mem_singleton.mp hm
      simp only [Function.update_self, List.take_length, h.stats_eq]
  · rw [List.pairwise_append]
    refine ⟨h.ordered.imp_of_mem fun {m n} hm hn hmn => ?_, List.pairwise_singleton .., ?_⟩
    · rwa [Function.update_of_ne (hnew m hm), Function.update_of_ne (hnew n hn)]
    · intro m hm n hn
      obtain rfl := List.mem_singleton.mp hn
      rw [Function.update_of_ne (hnew m hm), Function.update_self]
      exact h.bounded m
  · intro m
    rw [Function.update_apply]
    split
    · exact Nat.le_refl _
    · exact h.bounded m

/-- **One move** keeps the moments of the reads that are made. -/
theorem Keeps.step (h : v.Keeps f s records done moment) (m : Move ω) :
    ∃ done' moment', (v.step f m).Keeps f s (records ++ Move.records [m]) done' moment' ∧
      done' ++ (v.step f m).pending = done ++ v.pending := by
  cases m with
  | record o u => exact ⟨done, moment, h.record o u, rfl⟩
  | look =>
    change ∃ done' moment', (v.step f .look).Keeps f s (records ++ []) done' moment' ∧ _
    rw [List.append_nil]
    cases hp : v.pending with
    | nil =>
      have hstep : v.step f .look = v := by rw [Viewing.step, hp]
      rw [hstep, hp]
      exact ⟨done, moment, h, rfl⟩
    | cons l ls =>
      refine ⟨_, _, h.look hp, ?_⟩
      rw [step_look_of_pending hp, ← List.append_cons]

/-- **A whole schedule** keeps them. -/
theorem Keeps.run (h : v.Keeps f s records done moment) (schedule : List (Move ω)) :
    ∃ done' moment', (v.run f schedule).Keeps f s (records ++ Move.records schedule) done' moment' ∧
      done' ++ (v.run f schedule).pending = done ++ v.pending := by
  induction schedule generalizing v records done moment with
  | nil => exact ⟨done, moment, by rwa [Move.records, List.filterMap_nil, List.append_nil], rfl⟩
  | cons m schedule ih =>
    obtain ⟨done₁, moment₁, h₁, heq₁⟩ := h.step m
    obtain ⟨done₂, moment₂, h₂, heq₂⟩ := ih h₁
    refine ⟨done₂, moment₂, ?_, heq₂.trans heq₁⟩
    rwa [List.append_assoc, ← Move.records_cons] at h₂

end Viewing

/-! ## What a snapshot is put together from -/

variable {ω κ : Type} [Category κ] [DecidableEq κ] {f : Classifier ω κ} {s : Stats κ} {t : Int}
  {records : List (ω × Int)} {moment : Look κ → Nat}

theorem Classifier.mem_all (f : Classifier ω κ) (k : κ) : k ∈ f.all :=
  List.count_pos_iff.mp (by rw [f.count_all]; exact Nat.one_pos)

theorem Classifier.nodup_all (f : Classifier ω κ) : f.all.Nodup :=
  List.nodup_iff_count_le_one.mpr fun k => Nat.le_of_eq (f.count_all k)

/-- The records that came in while the derived figures and their parts were read. -/
def Look.meanwhile (moment : Look κ → Nat) (records : List (ω × Int)) : List (ω × Int) :=
  (records.take (max (moment (.rolling Category.successes)) (moment (.rolling Category.failures)))).drop
    (moment .errors)

namespace StatsReading

/-- The snapshot `r` at `t` shows with each figure the family `s` after `moment` of the records that came in. -/
structure Pieced (r : StatsReading κ) (f : Classifier ω κ) (s : Stats κ) (t : Int) (records : List (ω × Int))
    (moment : Look κ → Nat) : Prop where
  ordered : (Look.order f.all).Pairwise fun l m => moment l ≤ moment m
  bounded : ∀ l, moment l ≤ records.length
  reading_eq : r = Look.reading fun l => l.figure (s.run f (records.take (moment l))) t

namespace Pieced

variable {r : StatsReading κ} {l m : Look κ} {k : κ}

theorem errors_le (h : r.Pieced f s t records moment) (l : Look κ) : moment .errors ≤ moment l := by
  rcases List.mem_cons.mp (Look.mem_order f.mem_all l) with rfl | hl
  · exact Nat.le_refl _
  · exact List.rel_of_pairwise_cons h.ordered hl

theorem passes_le (h : r.Pieced f s t records moment) (k : κ) : moment .passes ≤ moment (.rolling k) := by
  have hk : .rolling k ∈ Look.order f.all := Look.rolling_mem_order (f.mem_all k)
  have hrest := (List.pairwise_cons.mp h.ordered).2
  exact List.rel_of_pairwise_cons hrest (by simpa [Look.order] using hk)

theorem failures_le (h : r.Pieced f s t records moment) (k : κ) : moment .failures ≤ moment (.rolling k) := by
  have hk : .rolling k ∈ Look.order f.all := Look.rolling_mem_order (f.mem_all k)
  have hrest := (List.pairwise_cons.mp (List.pairwise_cons.mp h.ordered).2).2
  exact List.rel_of_pairwise_cons hrest (by simpa [Look.order] using hk)

/-- What came in between two of these reads came in meanwhile. -/
theorem exists_between (h : r.Pieced f s t records moment) (hlm : moment l ≤ moment m)
    (hm : moment m ≤ max (moment (.rolling Category.successes)) (moment (.rolling Category.failures))) :
    ∃ mid, records.take (moment m) = records.take (moment l) ++ mid ∧ mid ⊆ Look.meanwhile moment records := by
  refine ⟨(records.take (moment m)).drop (moment l), ?_, ?_⟩
  · have hsplit := List.take_append_drop (moment l) (records.take (moment m))
    rw [List.take_take, Nat.min_eq_left hlm] at hsplit
    exact hsplit.symm
  · have hlonger := (List.take_prefix_take_left (l := records) hm).drop (moment l)
    exact List.Subset.trans hlonger.subset (List.drop_subset_drop_left _ (h.errors_le l))

/-- Without a success or a real failure meanwhile the counters of both are the same at these reads. -/
theorem counter_eq (h : r.Pieced f s t records moment) (hlm : moment l ≤ moment m)
    (hm : moment m ≤ max (moment (.rolling Category.successes)) (moment (.rolling Category.failures)))
    (quiet : ∀ x ∈ Look.meanwhile moment records, f.isLegitimate x.1 = false)
    (hk : k = Category.successes ∨ k = Category.failures) :
    (s.run f (records.take (moment m))).counter k = (s.run f (records.take (moment l))).counter k := by
  obtain ⟨mid, heq, hmid⟩ := h.exists_between hlm hm
  rw [heq]
  refine Stats.counter_run_append_of_ne fun x hx hcategory => ?_
  have hlegitimate := (f.isLegitimate_iff x.1).mpr <| hk.imp
    (fun hk => (f.category_eq_successes x.1).mp (hcategory.trans hk))
    (fun hk => (f.category_eq_failures x.1).mp (hcategory.trans hk))
  exact absurd hlegitimate (by simp [quiet x (hmid hx)])

/-- If nothing meanwhile belongs to a later bucket than `t`, a later read does not show less. -/
theorem rollingSum_le (h : r.Pieced f s t records moment) (hlm : moment l ≤ moment m)
    (hm : moment m ≤ max (moment (.rolling Category.successes)) (moment (.rolling Category.failures)))
    (timely : ∀ x ∈ Look.meanwhile moment records, ∀ k, (s.counter k).bucketId x.2 ≤ (s.counter k).bucketId t) (k : κ) :
    ((s.run f (records.take (moment l))).counter k).rollingSum t ≤
      ((s.run f (records.take (moment m))).counter k).rollingSum t := by
  obtain ⟨mid, heq, hmid⟩ := h.exists_between hlm hm
  rw [heq]
  exact Stats.rollingSum_le_run_append fun x hx _ => timely x (hmid hx) k

/-- **Without a success or a real failure meanwhile** the derived figures are those of their parts. -/
theorem agrees (h : r.Pieced f s t records moment)
    (quiet : ∀ x ∈ Look.meanwhile moment records, f.isLegitimate x.1 = false) : r.Agrees := by
  have hpasses := h.counter_eq (h.passes_le Category.successes) (Nat.le_max_left ..) quiet (.inl rfl)
  have hfailures := h.counter_eq (h.failures_le Category.failures) (Nat.le_max_right ..) quiet (.inr rfl)
  have herrors := h.counter_eq (h.errors_le (.rolling Category.failures)) (Nat.le_max_right ..) quiet (.inr rfl)
  rw [h.reading_eq]
  refine ⟨?_, ?_, ?_⟩
  · simp only [Look.reading, Look.figure, herrors]
  · simp only [Look.reading, Look.figure, hpasses, hfailures]
  · simp only [Look.reading, Look.figure, ← herrors, hfailures]
    exact Nat.le_add_left ..

/-- **If nothing meanwhile belongs to a later bucket than `t`**, the derived figures may only be too small. -/
theorem errors_le_attempts (h : r.Pieced f s t records moment)
    (timely : ∀ x ∈ Look.meanwhile moment records, ∀ k, (s.counter k).bucketId x.2 ≤ (s.counter k).bucketId t) :
    r.errors ≤ (r.counter Category.failures).rolling ∧ r.errors ≤ r.legitimateAttempts ∧
      r.legitimateAttempts ≤ (r.counter Category.successes).rolling + (r.counter Category.failures).rolling := by
  have hpasses := h.rollingSum_le (h.passes_le Category.successes) (Nat.le_max_left ..) timely Category.successes
  have hfailures := h.rollingSum_le (h.failures_le Category.failures) (Nat.le_max_right ..) timely Category.failures
  have herrors := h.rollingSum_le (h.errors_le .failures)
    (Nat.le_trans (h.failures_le Category.failures) (Nat.le_max_right ..)) timely Category.failures
  rw [h.reading_eq]
  exact ⟨Nat.le_trans herrors hfailures, Nat.le_add_left_of_le herrors, Nat.add_le_add hpasses hfailures⟩

end Pieced
end StatsReading

namespace Viewing

variable {schedule : List (Move ω)}

theorem pieced_of_finished (finished : ((start f s t).run f schedule).pending = []) :
    ∃ moment, (((start f s t).run f schedule).reading).Pieced f s t (Move.records schedule) moment := by
  have hstart : (start f s t).Keeps f s [] [] fun _ => 0 := by
    refine ⟨rfl, fun _ h => absurd h List.not_mem_nil, List.Pairwise.nil, fun _ => Nat.le_refl 0, ?_⟩
    exact Look.nodup_order f.nodup_all
  obtain ⟨done, moment, hkeeps, hdone⟩ := hstart.run schedule
  rw [finished, List.append_nil] at hdone
  change done = Look.order f.all at hdone
  subst hdone
  refine ⟨moment, hkeeps.ordered, hkeeps.bounded, ?_⟩
  rw [reading]
  congr 1
  funext l
  exact (hkeeps.seen_eq l (Look.mem_order f.mem_all l)).trans (by rw [instant_run]; rfl)

/-- **A snapshot that is alone** is what the family shows. -/
theorem reading_alone (s : Stats κ) (t : Int) :
    ((start f s t).run f (List.replicate (Look.order f.all).length .look)).reading = s.reading t := by
  obtain ⟨moment, hpieced⟩ := pieced_of_finished (finished_of_looks (start f s t))
  have hnone : ∀ n, Move.records (List.replicate n (Move.look : Move ω)) = [] := fun n => by
    rw [Move.records, List.filterMap_replicate_of_none rfl]
  have hreading := hpieced.reading_eq
  simp only [hnone, List.take_nil] at hreading
  exact hreading.trans (Look.reading_figure s t)

/-- **What a snapshot is, whatever comes in while it is taken.** Each figure of a snapshot at `t` is that of the family
after some number of the records of the schedule, no more for an earlier read than for a later one. If none of the records
that came in while the derived figures and their parts were read is a success or a real failure, the derived figures agree
with their parts. If none of them belongs to a later bucket than `t`, the derived figures are no more than their parts,
and the errors are no more than the attempts. -/
theorem run_pieced {v : Viewing κ} (hv : v = (start f s t).run f schedule) (finished : v.pending = []) :
    ∃ moment, v.reading.Pieced f s t (Move.records schedule) moment ∧
      ((∀ x ∈ Look.meanwhile moment (Move.records schedule), f.isLegitimate x.1 = false) → v.reading.Agrees) ∧
      ((∀ x ∈ Look.meanwhile moment (Move.records schedule), ∀ k,
          (s.counter k).bucketId x.2 ≤ (s.counter k).bucketId t) →
        v.reading.errors ≤ (v.reading.counter Category.failures).rolling ∧
          v.reading.errors ≤ v.reading.legitimateAttempts ∧
          v.reading.legitimateAttempts ≤
            (v.reading.counter Category.successes).rolling + (v.reading.counter Category.failures).rolling) := by
  subst hv
  obtain ⟨moment, hpieced⟩ := pieced_of_finished finished
  exact ⟨moment, hpieced, hpieced.agrees, hpieced.errors_le_attempts⟩

/-- A snapshot at 0 of the calls of a new circuit, while one success comes in. -/
theorem run_pieced_busy :
    let s : CallStats := Stats.start {} (by decide) 0
    let v := (start CallOutcome.classifier s 0).run CallOutcome.classifier
      (.look :: .record .success 0 :: List.replicate 16 .look)
    v.pending = [] ∧ v.reading.errors ≤ v.reading.legitimateAttempts := by
  intro s v
  have finished : v.pending = [] := by decide +kernel
  obtain ⟨moment, -, -, hle⟩ := run_pieced (f := CallOutcome.classifier) (s := s) (t := 0) rfl finished
  refine ⟨finished, (hle fun x hx k => ?_).2.1⟩
  have hmem : x ∈ [(CallOutcome.success, (0 : Int))] := List.mem_of_mem_take (List.mem_of_mem_drop hx)
  obtain rfl := List.mem_singleton.mp hmem
  exact Nat.le_refl _

/-- A snapshot is taken in the last millisecond of a window with one real failure at its start. The errors are read, a
real failure of the next millisecond opens a bucket and clears the oldest one, the attempts are read, and a success comes
in before the counters are. No derived figure is that of its parts, and there is an error but no attempt. -/
theorem run_torn :
    let s : CallStats := (Stats.start {} (by decide) 0 : CallStats).record .failures 0
    let v := (start CallOutcome.classifier s 9999500000).run CallOutcome.classifier
      (.look :: .record .failure 10000000000 :: .look :: .look :: .record .success 9999900000 ::
        List.replicate 14 .look)
    v.pending = [] ∧ v.reading.errors = 1 ∧ v.reading.legitimateAttempts = 0 ∧
      v.reading.counter .successes = ⟨1, 1⟩ ∧ v.reading.counter .failures = ⟨0, 2⟩ := by
  decide +kernel

end Viewing
end CallGuard
