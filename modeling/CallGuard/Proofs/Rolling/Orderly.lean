import CallGuard.Proofs.Rolling.History

/-!
# Counters that are fed in order

A counter forgets in two ways: an event of an old bucket never reaches its ring, and an event of a new bucket clears the
slots that it passes. Neither happens to what a query at `q` counts as long as no event runs ahead of it.

* **Growth** (`Counter.rollingSum_le_increment`): an event that is not of a later bucket than `q` takes nothing from the
  window of `q`.
* **Order** (`Counter.rollingSum_run_of_sorted`): if the buckets of the events never go back and none is later than that
  of `q`, the window of `q` holds every event of its buckets.
-/

namespace CallGuard.Rolling

namespace Ring

variable {r s : Ring} {id b q lo n : Nat}

/-! ## Growth -/

theorem sumFrom_le_sumFrom (h : ∀ b, lo ≤ b → b < lo + n → r.count b ≤ s.count b) : r.sumFrom lo n ≤ s.sumFrom lo n := by
  induction n with
  | zero => exact Nat.le_refl _
  | succ n ih =>
    rw [sumFrom, sumFrom]
    exact Nat.add_le_add (ih fun b h₁ h₂ => h b h₁ (by omega)) (h (lo + n) (by omega) (by omega))

theorem sumFrom_mono {m : Nat} (h : n ≤ m) : r.sumFrom lo n ≤ r.sumFrom lo m := by
  induction h with
  | refl => exact Nat.le_refl _
  | step _ ih => exact Nat.le_trans ih (Nat.le_add_right ..)

/-- **An event that does not run ahead of the query** takes nothing from the window. -/
theorem sum_le_sum_add (h : id ≤ max r.head q) : r.sum q ≤ (r.add id).sum q := by
  have hpos : 0 < r.size := r.slots_pos
  have holdest : (r.add id).oldest q = r.oldest q := by
    rw [oldest, oldest, head_add, size_add]
    omega
  have hnewest : r.newest q ≤ (r.add id).newest q := by
    rw [newest, newest, head_add]
    omega
  rw [sum, sum, holdest]
  refine Nat.le_trans (sumFrom_le_sumFrom ?_) (sumFrom_mono (Nat.sub_le_sub_right (Nat.succ_le_succ hnewest) _))
  intro b hlo hhi
  rw [oldest] at hlo hhi
  rw [newest] at hhi
  exact count_le_add (by omega) (by rw [head_add]; omega)

/-! ## Order -/

/-- Events whose buckets never go back all arrive in time. -/
theorem arrivals_of_sorted {head : Nat} {ids : List Nat} (h : (head :: ids).Pairwise (· ≤ ·)) :
    arrivals head ids = ids := by
  induction ids generalizing head with
  | nil => rfl
  | cons id ids ih =>
    obtain ⟨hhead, hids⟩ := List.pairwise_cons.mp h
    rw [arrivals, if_pos (hhead id List.mem_cons_self), ih hids]

end Ring

namespace Counter

/-- An event that is not of a later bucket than the query takes nothing from the window. -/
theorem rollingSum_le_increment {c : Counter} {t u : Int} (h : c.bucketId u ≤ c.bucketId t) :
    c.rollingSum t ≤ (c.increment u).rollingSum t := by
  rw [rollingSum, rollingSum, ring_increment, bucketId_increment]
  exact Ring.sum_le_sum_add (Nat.le_trans h (Nat.le_max_right ..))

theorem rollingSum_le_run {c : Counter} {t : Int} {us : List Int} (h : ∀ u ∈ us, c.bucketId u ≤ c.bucketId t) :
    c.rollingSum t ≤ (c.run us).rollingSum t := by
  induction us generalizing c with
  | nil => exact Nat.le_refl _
  | cons u us ih =>
    rw [run_cons]
    refine Nat.le_trans (rollingSum_le_increment (h u List.mem_cons_self)) (ih ?_)
    intro v hv
    rw [bucketId_increment]
    exact h v (List.mem_cons_of_mem u hv)

/-- **Nothing is lost in order.** A counter whose events never go back in buckets, and do not run ahead of the query,
shows exactly the events of the last buckets up to that of the query. -/
theorem rollingSum_run_of_sorted {w : Window} {valid : w.Valid} {origin : Int} {ts : List Int} {q : Int}
    (sorted : (ts.map (start w valid origin).bucketId).Pairwise (· ≤ ·))
    (past : ∀ t ∈ ts, (start w valid origin).bucketId t ≤ (start w valid origin).bucketId q) :
    ((start w valid origin).run ts).rollingSum q = ts.countP fun t =>
      decide ((start w valid origin).bucketId q < (start w valid origin).bucketId t + w.buckets.toNat) := by
  have hpos := valid.buckets_pos
  have hsize := size_run_start valid origin ts
  have harrive := Ring.arrivals_of_sorted (List.pairwise_cons.mpr ⟨fun _ _ => Nat.zero_le _, sorted⟩)
  have hshows : ((start w valid origin).run ts).ring.Shows (ts.map (start w valid origin).bucketId) := by
    have hrun := shows_run_start valid origin ts
    rwa [harrive] at hrun
  have hhead : ((start w valid origin).run ts).ring.head ≤ (start w valid origin).bucketId q := by
    rw [head_run_start]
    exact peak_le_iff.mpr past
  rw [rollingSum, (run_eq _ ts).1, hshows.sum_eq, List.countP_map]
  refine List.countP_congr fun t ht => ?_
  have hle := hshows.le_head _ (List.mem_map_of_mem ht)
  simp only [Function.comp, decide_eq_true_eq, Ring.oldest, Ring.newest, hsize]
  omega

end Counter
end CallGuard.Rolling
