import Mathlib.Data.Fintype.Fin
import CallGuard.Proofs.Rolling.Rotation
import CallGuard.Rolling.Counter

/-!
# What a counter remembers of its history

A counter is fed any instants in any order. An event arrives in time if no earlier event of the history belongs to a
newer bucket; only such events reach the ring (`Ring.arrivals`).

* **Invariant** (`Ring.Shows`): the slot of every bucket less than a ring behind the open one holds the number of
  arrivals of that bucket, which includes the buckets that no event has reached yet. Rotation keeps it
  (`Shows.advance`), an event in time adds to it (`Shows.add`), hence every run has it (`Shows.run`).
* **Reading** (`Shows.sum_eq`): a window adds up the arrivals of the buckets that it shares with the ring.
* **History** (`rollingSum_run`): all of this in terms of the instants themselves. For proofs about runs of new counters
  its parts are also there one by one (`head_run_start`, `shows_run_start`).
-/

namespace CallGuard.Rolling

/-! ## Counting -/

theorem countP_le_succ (past : List Nat) (lo n : Nat) :
    past.countP (fun b => decide (lo ≤ b ∧ b < lo + (n + 1))) =
      past.countP (fun b => decide (lo ≤ b ∧ b < lo + n)) + past.count (lo + n) := by
  induction past with
  | nil => rfl
  | cons a past ih =>
    simp only [List.countP_cons, List.count_cons, ih, decide_eq_true_eq, beq_iff_eq]
    split_ifs <;> omega

theorem foldl_max_le_iff {n m : Nat} {ids : List Nat} : ids.foldl max n ≤ m ↔ n ≤ m ∧ ∀ id ∈ ids, id ≤ m := by
  induction ids generalizing n with
  | nil => simp
  | cons id ids ih => rw [List.foldl_cons, ih, Nat.max_le, List.forall_mem_cons, and_assoc]

namespace Ring

/-! ## Runs of a ring -/

/-- Count events of the given buckets, one after the other. -/
def run (r : Ring) (ids : List Nat) : Ring := ids.foldl add r

/-- The events of a list that a ring open at `head` counts: those that are not older than its open bucket when they
arrive. -/
def arrivals (head : Nat) : List Nat → List Nat
  | [] => []
  | id :: ids => if head ≤ id then id :: arrivals id ids else arrivals head ids

@[simp] theorem size_run (r : Ring) (ids : List Nat) : (r.run ids).size = r.size := by
  induction ids generalizing r with
  | nil => rfl
  | cons id ids ih => exact (ih (r.add id)).trans (size_add r id)

@[simp] theorem head_run (r : Ring) (ids : List Nat) : (r.run ids).head = ids.foldl max r.head := by
  induction ids generalizing r with
  | nil => rfl
  | cons id ids ih => rw [List.foldl_cons, ← head_add]; exact ih (r.add id)

theorem length_arrivals_le (head : Nat) (ids : List Nat) : (arrivals head ids).length ≤ ids.length := by
  induction ids generalizing head with
  | nil => exact Nat.le_refl 0
  | cons id ids ih =>
    rw [arrivals]
    split
    · exact Nat.succ_le_succ (ih id)
    · exact Nat.le_succ_of_le (ih head)

/-- An event older than the open bucket leaves the ring as it is. -/
theorem add_of_lt {r : Ring} {id : Nat} (h : id < r.head) : r.add id = r := by
  rw [add, reach_of_le (Nat.le_of_lt h), touch, if_neg (Nat.ne_of_lt h)]

/-! ## The invariant -/

/-- The live slots of `r` hold the events `past`, each in the slot of its bucket. -/
structure Shows (r : Ring) (past : List Nat) : Prop where
  le_head : ∀ b ∈ past, b ≤ r.head
  count_eq : ∀ b, b ≤ r.head → r.head < b + r.size → r.count b = past.count b

variable {r : Ring} {past : List Nat} {id : Nat}

theorem shows_empty (n : Nat) (h : 0 < n) : (empty n h).Shows [] :=
  ⟨fun _ hb => absurd hb List.not_mem_nil, fun b _ _ => count_empty n h b⟩

/-- Rotation empties the slots of the new buckets, and all other live buckets keep their slots. -/
theorem Shows.advance (h : r.Shows past) (hid : r.head < id) : (r.advance id).Shows past := by
  refine ⟨fun b hb => Nat.le_of_lt (Nat.lt_of_le_of_lt (h.le_head b hb) hid), ?_⟩
  intro b hb hlive
  change b ≤ id at hb
  rw [size_advance] at hlive
  change id < b + r.size at hlive
  by_cases hnew : r.head < b
  · have hnone : b ∉ past := fun hmem => absurd (h.le_head b hmem) (by omega)
    rw [count_advance_of_mem hnew hb rfl, List.count_eq_zero_of_not_mem hnone]
  · rw [count_advance_of_ne fun c h₁ h₂ => mod_ne_of_passed (by omega) h₁ h₂ hlive]
    exact h.count_eq b (by omega) (by omega)

theorem Shows.reach (h : r.Shows past) (id : Nat) : (r.reach id).Shows past := by
  unfold Ring.reach
  split
  · rename_i hid; exact h.advance hid
  · exact h

/-- An event of the open bucket reaches the slot of that bucket alone. -/
theorem Shows.touch (h : r.Shows past) (hid : id = r.head) : (r.touch id).Shows (past ++ [id]) := by
  subst hid
  constructor
  · intro b hb
    rw [head_touch]
    rcases List.mem_append.mp hb with hb | hb
    · exact h.le_head b hb
    · exact Nat.le_of_eq (List.mem_singleton.mp hb)
  · intro b hb hlive
    rw [head_touch] at hb hlive
    rw [size_touch] at hlive
    rw [count_touch, h.count_eq b hb hlive, List.count_append, List.count_singleton]
    by_cases hopen : b = r.head
    · subst hopen; simp
    · have hmod : r.head % r.size ≠ b % r.size := fun hmod => hopen (mod_inj_of_near hb hlive hmod.symm)
      rw [if_neg (fun hc => hmod hc.2), if_neg (by simpa using Ne.symm hopen), Nat.add_zero]

/-- An event in time reaches the slot of its bucket alone. -/
theorem Shows.add (h : r.Shows past) (hid : r.head ≤ id) : (r.add id).Shows (past ++ [id]) :=
  (h.reach id).touch (by rw [head_reach, Nat.max_eq_right hid])

/-- **Every run keeps the invariant**, for what was counted before and the arrivals of the run. -/
theorem Shows.run (h : r.Shows past) (ids : List Nat) : (r.run ids).Shows (past ++ arrivals r.head ids) := by
  induction ids generalizing r past with
  | nil => rw [arrivals, List.append_nil]; exact h
  | cons id ids ih =>
    change ((r.add id).run ids).Shows _
    by_cases hid : r.head ≤ id
    · have hnext := ih (h.add hid)
      rw [head_add, Nat.max_eq_right hid, List.append_assoc] at hnext
      rw [arrivals, if_pos hid]
      exact hnext
    · rw [add_of_lt (by omega), arrivals, if_neg hid]
      exact ih h

/-- Successive live buckets add up to the events of them all. -/
theorem Shows.sumFrom_eq (h : r.Shows past) {lo n : Nat} (hlo : r.head < lo + r.size) (hhi : lo + n ≤ r.head + 1) :
    r.sumFrom lo n = past.countP fun b => decide (lo ≤ b ∧ b < lo + n) := by
  induction n with
  | zero =>
    symm
    rw [sumFrom, List.countP_eq_zero]
    intro b _ hb
    rw [decide_eq_true_eq] at hb
    omega
  | succ n ih => rw [sumFrom, ih (by omega), h.count_eq (lo + n) (by omega) (by omega), countP_le_succ]

/-- A window adds up the events of the buckets that it shares with the ring. -/
theorem Shows.sum_eq (h : r.Shows past) (id : Nat) :
    r.sum id = past.countP fun b => decide (r.oldest id ≤ b ∧ b ≤ r.newest id) := by
  have hsize : 0 < r.size := r.slots_pos
  by_cases hempty : r.newest id + 1 ≤ r.oldest id
  · rw [sum, Nat.sub_eq_zero_of_le hempty, sumFrom, eq_comm, List.countP_eq_zero]
    intro b _ hb
    rw [decide_eq_true_eq] at hb
    omega
  rw [sum, h.sumFrom_eq (by unfold oldest; omega) (by unfold newest at *; omega)]
  refine List.countP_congr ?_
  intro b _
  rw [decide_eq_true_eq, decide_eq_true_eq]
  omega

/-- No window has more events than were counted. -/
theorem Shows.sum_le_length (h : r.Shows past) (id : Nat) : r.sum id ≤ past.length := by
  rw [h.sum_eq]
  exact List.countP_le_length

end Ring

/-! ## Arrivals, by the place of an event in its history -/

/-- The newest bucket that events have reached, which is 0 before the first one. -/
def peak {τ : Type} (bucket : τ → Nat) (ts : List τ) : Nat := (ts.map bucket).foldl max 0

theorem peak_le_iff {τ : Type} {bucket : τ → Nat} {ts : List τ} {n : Nat} :
    peak bucket ts ≤ n ↔ ∀ t ∈ ts, bucket t ≤ n := by
  rw [peak, foldl_max_le_iff, List.forall_mem_map]
  exact and_iff_right (Nat.zero_le n)

theorem card_arrivals {τ : Type} (bucket : τ → Nat) (p : Nat → Prop) [DecidablePred p] (ts : List τ) (head : Nat) :
    (Ring.arrivals head (ts.map bucket)).countP (fun b => decide (p b)) =
      (Finset.univ.filter fun i : Fin ts.length =>
        ((ts.take i).map bucket).foldl max head ≤ bucket ts[i] ∧ p (bucket ts[i])).card := by
  induction ts generalizing head with
  | nil => rfl
  | cons t ts ih =>
    have hrest := ih (max head (bucket t))
    refine Eq.trans ?_ (Fin.card_filter_univ_succ (n := ts.length) _).symm
    rw [List.map_cons, Ring.arrivals]
    simp only [Fin.val_zero, Fin.val_succ, List.take_zero, List.take_succ_cons, List.map_nil, List.map_cons,
      List.foldl_nil, List.foldl_cons, Fin.getElem_fin, List.getElem_cons_zero, List.getElem_cons_succ] at hrest ⊢
    rw [← hrest]
    by_cases hin : head ≤ bucket t
    · rw [if_pos hin, Nat.max_eq_right hin, List.countP_cons]
      by_cases hp : p (bucket t) <;> simp [hin, hp]
    · rw [if_neg hin, Nat.max_eq_left (by omega), if_neg (fun h => hin h.1)]

/-! ## Runs of a counter -/

namespace Counter

/-- Count events at the given instants, one after the other. -/
def run (c : Counter) (ts : List Int) : Counter := ts.foldl increment c

theorem run_cons (c : Counter) (t : Int) (ts : List Int) : c.run (t :: ts) = (c.increment t).run ts := by
  rw [run, run, List.foldl_cons]

theorem run_eq (c : Counter) (ts : List Int) :
    (c.run ts).bucketId = c.bucketId ∧ (c.run ts).ring = c.ring.run (ts.map c.bucketId) ∧
      (c.run ts).total = c.total + ts.length := by
  induction ts generalizing c with
  | nil => exact ⟨rfl, rfl, rfl⟩
  | cons t ts ih =>
    obtain ⟨hid, hring, htotal⟩ := ih (c.increment t)
    rw [bucketId_increment] at hid hring
    rw [ring_increment] at hring
    rw [total_increment] at htotal
    rw [run_cons]
    refine ⟨hid, hring, ?_⟩
    rw [htotal, List.length_cons]
    omega

/-- **The meaning of a counter over a whole run.** A counter of an accepted window can be made, and after any instants in
any order its open bucket is the newest one that was reached, its total is the number of events, and a query at any
instant counts exactly the events that were not older than the open bucket when they arrived and whose bucket lies both
in the queried window and in the ring. -/
theorem rollingSum_run {w : Window} (accepted : w.problems Window.commonScope = []) (origin : Int) :
    ∃ c, create w origin = .ok c ∧ ∀ ts : List Int,
      (c.run ts).ring.head = peak c.bucketId ts ∧ (c.run ts).total = ts.length ∧
        ∀ q, (c.run ts).rollingSum q =
          (Finset.univ.filter fun i : Fin ts.length =>
            peak c.bucketId (ts.take i) ≤ c.bucketId ts[i] ∧
              max (peak c.bucketId ts) (c.bucketId q) - (w.buckets.toNat - 1) ≤ c.bucketId ts[i] ∧
              c.bucketId ts[i] ≤ min (peak c.bucketId ts) (c.bucketId q)).card := by
  have valid := Window.problems_eq_nil_iff.mp accepted
  refine ⟨start w valid origin, create_of_valid valid origin, ?_⟩
  intro ts
  obtain ⟨hid, hring, htotal⟩ := run_eq (start w valid origin) ts
  have hhead : ((start w valid origin).run ts).ring.head = peak (start w valid origin).bucketId ts := by
    rw [hring, Ring.head_run]
    rfl
  have hsize : ((start w valid origin).run ts).ring.size = w.buckets.toNat := by
    rw [hring, Ring.size_run]
    exact (start w valid origin).size_eq
  have hshows : ((start w valid origin).run ts).ring.Shows
      (Ring.arrivals 0 (ts.map (start w valid origin).bucketId)) := by
    rw [hring]
    exact (Ring.shows_empty _ valid.buckets_pos).run _
  refine ⟨hhead, htotal.trans (Nat.zero_add _), ?_⟩
  intro q
  rw [rollingSum, hid, hshows.sum_eq, Ring.oldest, Ring.newest, hhead, hsize]
  exact card_arrivals _ _ ts 0

/-- Two buckets of a millisecond, fed out of order: of four events the first has left the window and the second is
late. -/
theorem rollingSum_run_late : (⟨1, 2⟩ : Window).problems Window.commonScope = [] ∧
    ∃ c, create ⟨1, 2⟩ 0 = .ok c ∧ (c.run [2000000, 500000, 3000000, 4000000]).rollingSum 4000000 = 2 := by
  obtain ⟨c, hc, hrun⟩ := rollingSum_run (w := ⟨1, 2⟩) (by decide) 0
  obtain rfl := Except.ok.inj (hc.symm.trans (create_of_valid (by decide) 0))
  refine ⟨by decide, _, hc, ?_⟩
  rw [(hrun _).2.2]
  decide +kernel

/-! ## New counters -/

section Start

variable {w : Window} (valid : w.Valid) (origin : Int)

theorem buckets_start : (start w valid origin).buckets = w.buckets.toNat := (start w valid origin).size_eq

/-- A new counter has no events but those of the run. -/
theorem total_run_start (ts : List Int) : ((start w valid origin).run ts).total = ts.length :=
  (run_eq _ ts).2.2.trans (Nat.zero_add _)

/-- Its open bucket is the newest that the events of the run have reached. -/
theorem head_run_start (ts : List Int) :
    ((start w valid origin).run ts).ring.head = peak (start w valid origin).bucketId ts := by
  rw [(run_eq _ ts).2.1, Ring.head_run]
  rfl

theorem size_run_start (ts : List Int) : ((start w valid origin).run ts).ring.size = w.buckets.toNat := by
  rw [(run_eq _ ts).2.1, Ring.size_run]
  exact (start w valid origin).size_eq

theorem shows_run_start (ts : List Int) : ((start w valid origin).run ts).ring.Shows
    (Ring.arrivals 0 (ts.map (start w valid origin).bucketId)) := by
  rw [(run_eq _ ts).2.1]
  exact (Ring.shows_empty _ valid.buckets_pos).run _

end Start

end Counter
end CallGuard.Rolling
