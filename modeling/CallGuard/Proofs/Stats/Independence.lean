import Mathlib.Data.List.Fold
import Mathlib.Data.List.MinMax
import CallGuard.Proofs.Rolling.History
import CallGuard.Stats

/-!
# A family of counters is a product

A record is an outcome and the instant at which it is counted. A family of counters files every record in the counter
of its outcome (`Classifier`). The counters share nothing but their window and their origin, so each of them is in the
state of a lone counter that was fed the records of its own category (`Stats.counter_run`), whatever the others were
fed and however far ahead or behind.

**Main statement** (`Stats.create_isProduct`): of every valid window the families for calls and for fallbacks can be
made, and both are products of lone counters. So their totals add up to the number of records, and what is neither a
success nor a real failure can be struck from a history without a change of the errors and the legitimate attempts.
-/

namespace CallGuard

open Rolling

/-! ## What a lone counter shows -/

namespace Rolling.Counter

/-- The number of the events `ts` that a counter shows at `q`: of those that were not older than the open bucket when
they came, the ones whose bucket lies both in the queried window and in the ring. -/
def shown (c : Counter) (ts : List Int) (q : Int) : Nat :=
  (Finset.univ.filter fun i : Fin ts.length =>
    peak c.bucketId (ts.take i) ≤ c.bucketId (ts.get i) ∧
      max (peak c.bucketId ts) (c.bucketId q) - (c.window.buckets.toNat - 1) ≤ c.bucketId (ts.get i) ∧
      c.bucketId (ts.get i) ≤ min (peak c.bucketId ts) (c.bucketId q)).card

/-- A counter that has seen nothing else shows the events that are to be shown. -/
theorem rollingSum_run_start {w : Window} (valid : w.Valid) (origin : Int) (ts : List Int) (q : Int) :
    ((start w valid origin).run ts).rollingSum q = (start w valid origin).shown ts q := by
  rw [rollingSum, (run_eq _ ts).1, (shows_run_start valid origin ts).sum_eq, Ring.oldest, Ring.newest, head_run_start,
    size_run_start]
  exact card_arrivals _ _ ts 0

/-- Of events that all belong to the queried bucket a counter shows every one. -/
theorem shown_of_one_bucket {c : Counter} {ts : List Int} {q : Int} (h : ∀ t ∈ ts, c.bucketId t = c.bucketId q) :
    c.shown ts q = ts.length := by
  have hpeak : ∀ us : List Int, peak c.bucketId us = (us.map c.bucketId).foldr max ⊥ := fun us =>
    List.foldl_eq_foldr ..
  have hle : ∀ us : List Int, us ⊆ ts → peak c.bucketId us ≤ c.bucketId q := fun us hus => by
    rw [hpeak]
    refine List.max_le_of_forall_le _ _ fun b hb => ?_
    obtain ⟨t, ht, rfl⟩ := List.mem_map.mp hb
    exact Nat.le_of_eq (h t (hus ht))
  have hall : ∀ i : Fin ts.length, peak c.bucketId (ts.take i) ≤ c.bucketId (ts.get i) ∧
      max (peak c.bucketId ts) (c.bucketId q) - (c.window.buckets.toNat - 1) ≤ c.bucketId (ts.get i) ∧
      c.bucketId (ts.get i) ≤ min (peak c.bucketId ts) (c.bucketId q) := fun i => by
    have hi : c.bucketId (ts.get i) = c.bucketId q := h _ (List.get_mem ts i)
    have hreached : c.bucketId (ts.get i) ≤ peak c.bucketId ts := by
      rw [hpeak]
      exact List.le_max_of_le (List.mem_map_of_mem (List.get_mem ts i)) (Nat.le_refl _)
    have htaken := hle _ (List.take_subset i ts)
    have hreach := hle ts (List.Subset.refl ts)
    omega
  rw [shown, Finset.filter_true_of_mem fun i _ => hall i, Finset.card_univ, Fintype.card_fin]

end Rolling.Counter

/-! ## Records and their categories -/

/-- How outcomes are filed: each in one counter, the successes and the real failures in counters of their own. -/
structure Classifier (ω κ : Type) [Category κ] [DecidableEq κ] where
  category : ω → κ
  /-- The counters in their fixed order. -/
  all : List κ
  isLegitimate : ω → Bool
  success : ω
  failure : ω
  count_all : ∀ k, all.count k = 1
  category_eq_successes : ∀ o, category o = Category.successes ↔ o = success
  category_eq_failures : ∀ o, category o = Category.failures ↔ o = failure
  isLegitimate_iff : ∀ o, isLegitimate o = true ↔ o = success ∨ o = failure

/-- How the outcomes of calls are filed. -/
def CallOutcome.classifier : Classifier CallOutcome CallCategory where
  category := category
  all := CallCategory.all
  isLegitimate := isLegitimate
  success := .success
  failure := .failure
  count_all k := by cases k <;> rfl
  category_eq_successes o := by cases o <;> decide
  category_eq_failures o := by cases o <;> decide
  isLegitimate_iff o := by cases o <;> decide

/-- How the outcomes of fallbacks are filed. -/
def FallbackOutcome.classifier : Classifier FallbackOutcome FallbackCategory where
  category := category
  all := FallbackCategory.all
  isLegitimate := isLegitimate
  success := .success
  failure := .failure
  count_all k := by cases k <;> rfl
  category_eq_successes o := by cases o <;> decide
  category_eq_failures o := by cases o <;> decide
  isLegitimate_iff o := by cases o <;> decide

section Records

variable {ω κ : Type}

/-- The instants of the records whose outcome is as wanted, in their order. -/
def instants (wanted : ω → Prop) [DecidablePred wanted] (records : List (ω × Int)) : List Int :=
  (records.filter fun r => decide (wanted r.1)).map (·.2)

theorem instants_cons (wanted : ω → Prop) [DecidablePred wanted] (r : ω × Int) (records : List (ω × Int)) :
    instants wanted (r :: records) =
      if wanted r.1 then r.2 :: instants wanted records else instants wanted records := by
  by_cases h : wanted r.1 <;> simp [instants, h]

theorem instants_congr {p q : ω → Prop} [DecidablePred p] [DecidablePred q] (h : ∀ o, p o ↔ q o)
    (records : List (ω × Int)) : instants p records = instants q records := by
  have hpq : (fun r : ω × Int => decide (p r.1)) = fun r => decide (q r.1) := by
    funext r
    exact decide_eq_decide.mpr (h r.1)
  rw [instants, instants, hpq]

/-- Of records that are kept anyway none is lost. -/
theorem instants_filter {wanted : ω → Prop} [DecidablePred wanted] {keep : ω → Bool}
    (h : ∀ o, wanted o → keep o = true) (records : List (ω × Int)) :
    instants wanted (records.filter fun r => keep r.1) = instants wanted records := by
  rw [instants, instants, List.filter_filter]
  congr 1
  refine List.filter_congr fun r _ => ?_
  by_cases hw : wanted r.1
  · simp [hw, h r.1 hw]
  · simp [hw]

variable [Category κ] [DecidableEq κ]

/-- The records of successes and real failures. -/
def Classifier.legitimate (f : Classifier ω κ) (records : List (ω × Int)) : List (ω × Int) :=
  records.filter fun r => f.isLegitimate r.1

omit [Category κ] in
theorem sum_map_ite_eq_count (l : List κ) (a : κ) : (l.map fun k => if a = k then 1 else 0).sum = l.count a := by
  induction l with
  | nil => rfl
  | cons b l ih =>
    rw [List.map_cons, List.sum_cons, ih, List.count_cons, Nat.add_comm]
    simp only [beq_iff_eq, eq_comm (a := a)]

/-- Every record is filed in one counter. -/
theorem Classifier.sum_length_instants (f : Classifier ω κ) (records : List (ω × Int)) :
    (f.all.map fun k => (instants (f.category · = k) records).length).sum = records.length := by
  induction records with
  | nil => simp [instants]
  | cons r records ih =>
    have hone : ∀ k, (instants (f.category · = k) (r :: records)).length =
        (if f.category r.1 = k then 1 else 0) + (instants (f.category · = k) records).length := fun k => by
      rw [instants_cons]
      split
      · rw [List.length_cons, Nat.add_comm]
      · rw [Nat.zero_add]
    simp only [hone, List.sum_map_add, sum_map_ite_eq_count, f.count_all, ih, List.length_cons]
    omega

/-! ## Runs of a family -/

namespace Stats

/-- Count records one after the other, each in the counter of its outcome. -/
def run (f : Classifier ω κ) (s : Stats κ) (records : List (ω × Int)) : Stats κ :=
  records.foldl (fun s r => s.record (f.category r.1) r.2) s

variable (f : Classifier ω κ)

theorem run_cons (s : Stats κ) (r : ω × Int) (records : List (ω × Int)) :
    s.run f (r :: records) = (s.record (f.category r.1) r.2).run f records := List.foldl_cons ..

/-- **Projection**: a counter of the family has seen the records of its category and no others. -/
theorem counter_run (s : Stats κ) (records : List (ω × Int)) (k : κ) :
    (s.run f records).counter k = (s.counter k).run (instants (f.category · = k) records) := by
  induction records generalizing s with
  | nil => rfl
  | cons r records ih =>
    rw [run_cons, ih, counter_record, instants_cons]
    split
    · rw [Counter.run_cons]
    · rfl

/-- **One bucket**: if all records of a category belong to the queried bucket, its counter shows its total. -/
theorem rollingSum_run_of_one_bucket {w : Window} {valid : w.Valid} {origin : Int} {s : Stats κ}
    {records : List (ω × Int)} (hs : s = (start w valid origin).run f records) {k : κ} {q : Int}
    (h : ∀ r ∈ records, f.category r.1 = k → (s.counter k).bucketId r.2 = (s.counter k).bucketId q) :
    (s.counter k).rollingSum q = (s.counter k).total := by
  have hcounter : s.counter k = (Counter.start w valid origin).run (instants (f.category · = k) records) := by
    rw [hs, counter_run, counter_start]
  rw [hcounter, Counter.rollingSum_run_start, Counter.total_run_start, Counter.shown_of_one_bucket]
  intro t ht
  obtain ⟨r, hr, rfl⟩ := List.mem_map.mp ht
  obtain ⟨hmem, hwanted⟩ := List.mem_filter.mp hr
  have hbucket := h r hmem (of_decide_eq_true hwanted)
  rwa [hcounter, (Counter.run_eq _ _).1] at hbucket

theorem counter_run_successes (s : Stats κ) (records : List (ω × Int)) [DecidableEq ω] :
    (s.run f records).counter Category.successes =
      (s.counter Category.successes).run (instants (· = f.success) records) := by
  rw [counter_run, instants_congr f.category_eq_successes]

theorem counter_run_failures (s : Stats κ) (records : List (ω × Int)) [DecidableEq ω] :
    (s.run f records).counter Category.failures =
      (s.counter Category.failures).run (instants (· = f.failure) records) := by
  rw [counter_run, instants_congr f.category_eq_failures]

/-- A family of counters is a product of lone counters `c`. -/
structure IsProduct [DecidableEq ω] (s : Stats κ) (c : Counter) : Prop where
  /-- Every counter is in the state of a lone one that was fed the records of its category. -/
  counter_eq : ∀ records k, (s.run f records).counter k = c.run (instants (f.category · = k) records)
  /-- Every record reaches one total. -/
  sum_totals : ∀ records, (f.all.map fun k => ((s.run f records).counter k).total).sum = records.length
  /-- The errors do not depend on what is neither a success nor a real failure. -/
  errors_legitimate : ∀ records t, (s.run f records).errors t = (s.run f (f.legitimate records)).errors t
  /-- Nor do the legitimate attempts. -/
  attempts_legitimate : ∀ records t,
    (s.run f records).legitimateAttempts t = (s.run f (f.legitimate records)).legitimateAttempts t
  /-- The errors are the real failures that a lone counter shows. -/
  errors_eq : ∀ records t, (s.run f records).errors t = c.shown (instants (· = f.failure) (f.legitimate records)) t
  /-- The legitimate attempts are the successes and the real failures that two lone counters show. -/
  attempts_eq : ∀ records t, (s.run f records).legitimateAttempts t =
    c.shown (instants (· = f.success) (f.legitimate records)) t +
      c.shown (instants (· = f.failure) (f.legitimate records)) t

theorem isProduct_start [DecidableEq ω] {w : Window} (valid : w.Valid) (origin : Int) :
    (start w valid origin : Stats κ).IsProduct f (Counter.start w valid origin) := by
  have hsuccess : ∀ records, instants (· = f.success) (f.legitimate records) = instants (· = f.success) records :=
    instants_filter fun o ho => (f.isLegitimate_iff o).mpr (.inl ho)
  have hfailure : ∀ records, instants (· = f.failure) (f.legitimate records) = instants (· = f.failure) records :=
    instants_filter fun o ho => (f.isLegitimate_iff o).mpr (.inr ho)
  have herrors : ∀ records t, (run f (start w valid origin) records).errors t =
      (Counter.start w valid origin).shown (instants (· = f.failure) records) t := fun records t => by
    rw [errors, counter_run_failures, counter_start, Counter.rollingSum_run_start]
  have hattempts : ∀ records t, (run f (start w valid origin) records).legitimateAttempts t =
      (Counter.start w valid origin).shown (instants (· = f.success) records) t +
        (Counter.start w valid origin).shown (instants (· = f.failure) records) t := fun records t => by
    rw [legitimateAttempts, counter_run_successes, counter_run_failures, counter_start, counter_start,
      Counter.rollingSum_run_start, Counter.rollingSum_run_start]
  constructor
  case counter_eq =>
    intro records k
    rw [counter_run, counter_start]
  case sum_totals =>
    intro records
    simp only [counter_run, counter_start, Counter.total_run_start]
    exact f.sum_length_instants records
  case errors_legitimate =>
    intro records t
    rw [herrors, herrors, hfailure]
  case attempts_legitimate =>
    intro records t
    rw [hattempts, hattempts, hsuccess, hfailure]
  case errors_eq =>
    intro records t
    rw [herrors, hfailure]
  case attempts_eq =>
    intro records t
    rw [hattempts, hsuccess, hfailure]

end Stats

end Records

/-- **The counters of a circuit are independent.** Of an accepted window and any origin the families for calls and for
fallbacks can be made, and both are products of lone counters of that window and origin. -/
theorem Stats.create_isProduct {w : Window} (accepted : w.problems Window.commonScope = []) (origin : Int) :
    ∃ c, Counter.create w origin = .ok c ∧
      (∃ s : CallStats, Stats.create w origin = .ok s ∧ s.IsProduct CallOutcome.classifier c) ∧
      (∃ s : FallbackStats, Stats.create w origin = .ok s ∧ s.IsProduct FallbackOutcome.classifier c) := by
  have valid := Window.problems_eq_nil_iff.mp accepted
  refine ⟨.start w valid origin, Counter.create_of_valid valid origin, ?_, ?_⟩
  · exact ⟨.start w valid origin, Stats.create_of_valid valid origin, isProduct_start _ valid origin⟩
  · exact ⟨.start w valid origin, Stats.create_of_valid valid origin, isProduct_start _ valid origin⟩

/-- Calls on two buckets of a millisecond: a timeout far ahead and a late interrupt stand between the legitimate ones. -/
def Stats.noisyCalls : List (CallOutcome × Int) :=
  [(.failure, 0), (.timeout, 9000000), (.success, 1500000), (.interrupt, -5), (.failure, 1000000), (.badRequest, 7000000)]

/-- Neither the timeout nor the interrupt or the bad request moves the errors and the attempts of that window. -/
theorem Stats.create_isProduct_noisyCalls : (⟨1, 2⟩ : Window).problems Window.commonScope = [] ∧
    ∃ s : CallStats, Stats.create ⟨1, 2⟩ 0 = .ok s ∧
      (s.run CallOutcome.classifier noisyCalls).errors 1200000 = 2 ∧
        (s.run CallOutcome.classifier noisyCalls).legitimateAttempts 1200000 = 3 := by
  obtain ⟨c, hc, ⟨s, hs, hproduct⟩, -⟩ := Stats.create_isProduct (w := ⟨1, 2⟩) (by decide) 0
  obtain rfl := Except.ok.inj (hc.symm.trans (Counter.create_of_valid (by decide) 0))
  refine ⟨by decide, s, hs, ?_, ?_⟩
  · rw [hproduct.errors_eq]
    decide +kernel
  · rw [hproduct.attempts_eq]
    decide +kernel

end CallGuard
