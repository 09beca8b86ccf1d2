import Mathlib.Data.List.Perm.Subperm
import CallGuard.Proofs.Rolling.Contents
import CallGuard.Proofs.Rolling.Orderly

/-!
# The order in which events arrive

The same events may reach a counter in any order. `Counter.held` are the events that the slot of a bucket holds then, and
`Counter.within` is the number of events in the buckets that a query adds up.

* **One order** (`Counter.Bounded`): a slot holds events of its own bucket only, the slot of the open bucket holds all of
  them, and a query counts no more events than there are in its buckets, and exactly so many if the buckets of the events
  never go back.
* **Two orders** (`Counter.Agree`): the total, the open bucket and what it holds are the same, and the one order keeps no
  event of any bucket that another order loses in which the buckets never go back.

**Main statement** (`Counter.run_reordered`): this holds of every counter of an accepted window, whatever the events. So
events that arrive out of order can be missed in buckets older than the newest one and nowhere else, and none is counted
that is not there, or in another bucket than its own.
-/

namespace CallGuard.Rolling

variable {ε : Type} {bucket : ε → Nat} {es fs : List ε}

/-- Events whose buckets never go back are all in time. -/
theorem punctual_of_sorted (h : (es.map bucket).Pairwise (· ≤ ·)) : punctual bucket 0 es = es := by
  have harrive := Ring.arrivals_of_sorted (List.pairwise_cons.mpr ⟨fun _ _ => Nat.zero_le _, h⟩)
  rw [← map_punctual] at harrive
  refine (punctual_sublist bucket 0 es).eq_of_length ?_
  rw [← List.length_map bucket, harrive, List.length_map]

theorem peak_perm (h : es.Perm fs) : peak bucket es = peak bucket fs := (h.map bucket).foldl_eq 0

namespace Counter

/-- The events that the slot of bucket `b` holds after a history. -/
def held (c : Counter) (ts : List Int) (b : Nat) : List Int := (c.roster (fun t => t) ts).slot b

/-- The bucket of `t` is one of those that a query at `q` adds up after a history. -/
def isQueried (c : Counter) (ts : List Int) (q t : Int) : Bool :=
  decide (max (c.run ts).ring.head (c.bucketId q) - (c.buckets - 1) ≤ c.bucketId t ∧
    c.bucketId t ≤ min (c.run ts).ring.head (c.bucketId q))

/-- The number of events of a history in the buckets that a query at `q` adds up. -/
def within (c : Counter) (ts : List Int) (q : Int) : Nat := ts.countP (c.isQueried ts q)

/-- What holds of a counter whatever the order of its events. -/
structure Bounded (c : Counter) (ts : List Int) : Prop where
  total_eq : (c.run ts).total = ts.length
  /-- The open bucket is the newest of the events. -/
  head_le_iff : ∀ n, (c.run ts).ring.head ≤ n ↔ ∀ t ∈ ts, c.bucketId t ≤ n
  length_held : ∀ b, (c.held ts b).length = (c.run ts).ring.count b
  /-- A slot holds events of its own bucket only. -/
  held_sublist : ∀ b, b ≤ (c.run ts).ring.head → (c.run ts).ring.head < b + c.buckets →
    (c.held ts b).Sublist (ts.filter (c.bucketId · = b))
  /-- The open bucket has all its events. -/
  held_head : c.held ts (c.run ts).ring.head = ts.filter (c.bucketId · = (c.run ts).ring.head)
  sum_le : ∀ q, (c.run ts).rollingSum q ≤ c.within ts q
  sum_eq : (ts.map c.bucketId).Pairwise (· ≤ ·) → ∀ q, (c.run ts).rollingSum q = c.within ts q

/-- What two orders of the same events have in common, and what the first one can lose if the buckets never go back in the
second one. -/
structure Agree (c : Counter) (ts us : List Int) : Prop where
  total_eq : (c.run ts).total = (c.run us).total
  head_eq : (c.run ts).ring.head = (c.run us).ring.head
  held_head : (c.held ts (c.run ts).ring.head).Perm (c.held us (c.run us).ring.head)
  count_head : (c.run ts).ring.count (c.run ts).ring.head = (c.run us).ring.count (c.run us).ring.head
  held_subperm : (us.map c.bucketId).Pairwise (· ≤ ·) → ∀ b, b ≤ (c.run ts).ring.head →
    (c.run ts).ring.head < b + c.buckets → (c.held ts b).Subperm (c.held us b)
  sum_le : (us.map c.bucketId).Pairwise (· ≤ ·) → ∀ q, (c.run ts).rollingSum q ≤ (c.run us).rollingSum q

section Start

variable {w : Window} {valid : w.Valid} {origin q : Int} {ts us : List Int} {b : Nat}

theorem counts_own (ts : List Int) :
    ((start w valid origin).roster (fun t => t) ts).Counts ((start w valid origin).run ts).ring := by
  have hcounts := counts_roster valid origin (fun t => t) ts
  rwa [List.map_id'] at hcounts

/-- The slot of a bucket less than a ring behind the open one holds the events of that bucket that are in time. -/
theorem held_eq (hb : b ≤ ((start w valid origin).run ts).ring.head)
    (hlive : ((start w valid origin).run ts).ring.head < b + (start w valid origin).buckets) :
    (start w valid origin).held ts b =
      (punctual (start w valid origin).bucketId 0 ts).filter ((start w valid origin).bucketId · = b) := by
  rw [← (counts_own ts).head_eq] at hb hlive
  refine (holds_roster valid origin (fun t => t) ts).slot_eq b hb ?_
  rwa [size_roster, ← buckets_start valid origin]

/-- A query counts the events in time of the buckets that it adds up. -/
theorem rollingSum_eq_countP (ts : List Int) (q : Int) : ((start w valid origin).run ts).rollingSum q =
    (punctual (start w valid origin).bucketId 0 ts).countP ((start w valid origin).isQueried ts q) := by
  rw [rollingSum, (run_eq _ ts).1, (shows_run_start valid origin ts).sum_eq, ← map_punctual, List.countP_map, Ring.oldest,
    Ring.newest, size_run_start, ← buckets_start valid origin]
  rfl

theorem bounded_start (valid : w.Valid) (origin : Int) (ts : List Int) : (start w valid origin).Bounded ts := by
  have hpos : 0 < (start w valid origin).buckets := (start w valid origin).ring.slots_pos
  have hle : ∀ t ∈ ts, (start w valid origin).bucketId t ≤ ((start w valid origin).run ts).ring.head := by
    rw [head_run_start]
    exact peak_le_iff.mp (Nat.le_refl _)
  constructor
  case total_eq => exact total_run_start valid origin ts
  case head_le_iff =>
    intro n
    rw [head_run_start]
    exact peak_le_iff
  case length_held => exact (counts_own ts).length_slot
  case held_sublist =>
    intro b hb hlive
    rw [held_eq hb hlive]
    exact (punctual_sublist _ _ _).filter _
  case held_head =>
    rw [held_eq (Nat.le_refl _) (Nat.lt_add_of_pos_right hpos)]
    exact filter_punctual (Nat.zero_le _) hle
  case sum_le =>
    intro q
    rw [rollingSum_eq_countP]
    exact (punctual_sublist _ _ _).countP_le
  case sum_eq =>
    intro sorted q
    rw [rollingSum_eq_countP, punctual_of_sorted sorted]
    rfl

theorem agree_of_perm (h : ts.Perm us) : (start w valid origin).Agree ts us := by
  have hts := bounded_start valid origin ts
  have hus := bounded_start valid origin us
  have hhead : ((start w valid origin).run ts).ring.head = ((start w valid origin).run us).ring.head := by
    rw [head_run_start, head_run_start, peak_perm h]
  have hheld : ((start w valid origin).held ts ((start w valid origin).run ts).ring.head).Perm
      ((start w valid origin).held us ((start w valid origin).run us).ring.head) := by
    rw [hts.held_head, hus.held_head, hhead]
    exact h.filter _
  constructor
  case total_eq => rw [hts.total_eq, hus.total_eq, h.length_eq]
  case head_eq => exact hhead
  case held_head => exact hheld
  case count_head => rw [← hts.length_held, ← hus.length_held, hheld.length_eq]
  case held_subperm =>
    intro sorted b hb hlive
    have hall : (start w valid origin).held us b = us.filter ((start w valid origin).bucketId · = b) := by
      rw [held_eq (hhead ▸ hb) (hhead ▸ hlive), punctual_of_sorted sorted]
    rw [hall]
    exact (hts.held_sublist b hb hlive).subperm.trans (h.filter _).subperm
  case sum_le =>
    intro sorted q
    have hqueried : (start w valid origin).isQueried us q = (start w valid origin).isQueried ts q := by
      funext t
      rw [isQueried, isQueried, hhead]
    rw [hus.sum_eq sorted, within, hqueried, ← h.countP_eq]
    exact hts.sum_le q

end Start

/-- **What the order of events can change.** A counter of an accepted window can be made at any origin. Whatever the order
of its events, it has them all in its total, its open bucket is the newest of theirs and has all events of that bucket,
and no slot and no sum has an event that does not belong there. Two orders of the same events leave the same total, the
same open bucket and the same events in it, and if the buckets of one order never go back, the other order has no event
more than that in any bucket or sum. -/
theorem run_reordered {w : Window} (accepted : w.problems Window.commonScope = []) (origin : Int) :
    ∃ c, create w origin = .ok c ∧ (∀ ts, c.Bounded ts) ∧ ∀ ts us : List Int, ts.Perm us → c.Agree ts us := by
  have valid := Window.problems_eq_nil_iff.mp accepted
  exact ⟨start w valid origin, create_of_valid valid origin, bounded_start valid origin, fun _ _ => agree_of_perm⟩

/-- Of three events in two buckets of a millisecond, the one that comes second is older than the first: it is missed,
though in order all three are counted, and the two of the newest bucket are counted either way. -/
theorem run_reordered_late : (⟨1, 2⟩ : Window).problems Window.commonScope = [] ∧
    ∃ c, create ⟨1, 2⟩ 0 = .ok c ∧
      (c.run [1000000, 0, 1500000]).rollingSum 1000000 ≤ (c.run [0, 1500000, 1000000]).rollingSum 1000000 ∧
      (c.run [1000000, 0, 1500000]).rollingSum 1000000 = 2 ∧ (c.run [0, 1500000, 1000000]).rollingSum 1000000 = 3 ∧
      (c.run [1000000, 0, 1500000]).ring.count 1 = (c.run [0, 1500000, 1000000]).ring.count 1 := by
  obtain ⟨c, hc, -, hagree⟩ := run_reordered (w := ⟨1, 2⟩) (by decide) 0
  obtain rfl := Except.ok.inj (hc.symm.trans (create_of_valid (by decide) 0))
  have hperm : [1000000, 0, 1500000].Perm [0, 1500000, (1000000 : Int)] := by decide
  have hall := hagree _ _ hperm
  exact ⟨by decide, _, hc, hall.sum_le (by decide +kernel) _, by decide +kernel, by decide +kernel, hall.count_head⟩

end Counter
end CallGuard.Rolling
