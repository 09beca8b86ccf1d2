import CallGuard.Proofs.Rolling.Interleaving
import CallGuard.Proofs.Rolling.Orderly

/-!
# Looking at a counter while calls count on it

A snapshot of a counter goes in sections too. It shares the ring with all who do not rotate it, loads the slots of its
window one after the other (`Stage.loading`), and leaves the ring with their sum; then it reads the total. While it
shares the ring, a call that has to have the ring to itself waits, and all other sections of calls go on, so that a slot
may grow before it is loaded and after. A schedule says whose section is next in a `Watched` crowd.

* **Sharing** (`Crowd.grows_step`): a section of a call that does not need the ring to itself neither moves the open
  bucket nor takes an event from any slot. So the slots that a snapshot has loaded hold its sum at least, until it leaves
  the ring (`Stage.Bounded`).
* **Slots and total** (`Crowd.Follows.rollingSum_le_begun`): a call counts its event into the total before it comes to the
  ring, so that no window has more events than the total.
* **Alone** (`Stage.advance_alone`): a snapshot that nobody interrupts is `Counter.reading`.

**Main statement** (`Watched.run_bounded`): whatever the calls, the snapshots and the schedule, the window of a snapshot
shows no more events than its total, and no more than there are calls that have begun.
-/

namespace CallGuard.Rolling

/-! ## Rings that only grow -/

namespace Ring

/-- The ring `r'` has the open bucket of `r`, and no less in any slot. -/
structure Grows (r r' : Ring) : Prop where
  head_eq : r'.head = r.head
  size_eq : r'.size = r.size
  count_le : ∀ b, r.count b ≤ r'.count b

variable {r r' : Ring}

theorem Grows.refl (r : Ring) : r.Grows r := ⟨rfl, rfl, fun _ => Nat.le_refl _⟩

theorem grows_touch (r : Ring) (id : Nat) : r.Grows (r.touch id) where
  head_eq := head_touch r id
  size_eq := size_touch r id
  count_le b := by
    rw [count_touch]
    split <;> omega

theorem Grows.oldest_eq (h : r.Grows r') (id : Nat) : r'.oldest id = r.oldest id := by
  rw [oldest, oldest, h.head_eq, h.size_eq]

theorem Grows.newest_eq (h : r.Grows r') (id : Nat) : r'.newest id = r.newest id := by
  rw [newest, newest, h.head_eq]

end Ring

/-! ## Calls that are watched -/

namespace Crowd

/-- The call has had its last section. -/
def isEnded (c : Int × Place) : Bool := c.2 = .ended

/-- The next section of call `i` needs the ring to itself. -/
def needsRing (s : Crowd) (i : Nat) : Bool := s.calls[i]?.any fun c => c.2 = .ahead

variable {s : Crowd} {c : Counter} {ts : List Int} {i : Nat}

/-- **Sections that share the ring** move no open bucket and take nothing from a slot. -/
theorem grows_step (h : s.needsRing i = false) : s.counter.ring.Grows (s.step i).counter.ring := by
  unfold step
  split
  · exact Ring.Grows.refl _
  · rename_i t _
    unfold look
    cases hlook : s.counter.look? t with
    | none => exact Ring.Grows.refl _
    | some c =>
      unfold Counter.look? at hlook
      split at hlook
      · cases hlook
        exact Ring.grows_touch ..
      · cases hlook
  · rename_i t hi
    rw [needsRing, hi] at h
    cases h
  · exact Ring.Grows.refl _
  · exact Ring.Grows.refl _

/-- No section takes back that a call has begun. -/
theorem begun_le_step (s : Crowd) (i : Nat) : s.begun ≤ (s.step i).begun := by
  have hmoves := s.moves_step i
  generalize s.step i = s' at hmoves ⊢
  have hset : ∀ {t p q}, s.calls[i]? = some (t, p) → q ≠ .fresh → s.begun ≤ (s.calls.set i (t, q)).countP isBegun := by
    intro t p q hi hq
    have hcount := countP_set_add isBegun hi (t, q)
    have hone : (isBegun (t, q)).toNat = 1 := by simp [isBegun, hq]
    have hle := Bool.toNat_le (isBegun (t, p))
    rw [begun]
    omega
  cases hmoves with
  | tally hi | wait hi | finish hi => exact hset hi (by decide)
  | stay => exact Nat.le_refl _

/-- Every section keeps the record of the calls that have ended as long as there are such calls. -/
theorem length_order_step (h : s.order.length = s.calls.countP isEnded) (i : Nat) :
    (s.step i).order.length = (s.step i).calls.countP isEnded := by
  have hmoves := s.moves_step i
  generalize s.step i = s' at hmoves ⊢
  cases hmoves with
  | @tally t hi => exact h.trans (countP_set_add isEnded hi (t, .tallied)).symm
  | @wait t hi => exact h.trans (countP_set_add isEnded hi (t, .ahead)).symm
  | @finish t p hi hf he =>
    have hcount := countP_set_add isEnded hi (t, .ended)
    have hbefore : isEnded (t, p) = false := decide_eq_false he
    rw [hbefore] at hcount
    rw [finish, List.length_append, List.length_singleton, h]
    exact hcount.symm
  | stay => exact h

/-- Only calls that have ended are in the history. -/
theorem length_history_le (hended : s.order.length = s.calls.countP isEnded) :
    (s.history ts).length ≤ s.begun := by
  refine Nat.le_trans (List.length_filterMap_le ..) ?_
  rw [hended]
  refine List.countP_mono_left fun x _ hx => ?_
  rw [isEnded, decide_eq_true_eq] at hx
  simp [isBegun, hx]

namespace Follows

variable (h : s.Follows c ts)
include h

theorem bucketId_eq : s.counter.bucketId = c.bucketId := by
  rw [h.counter]
  exact (Counter.run_eq c _).1

theorem total_eq : s.counter.total = c.total + s.begun := by
  rw [h.counter]
  rfl

theorem ring_eq : s.counter.ring = c.ring.run ((s.history ts).map c.bucketId) := by
  rw [h.counter]
  exact (Counter.run_eq c _).2.1

end Follows

/-- **No window shows more than the total**: what is in the slots of a new counter are events of calls that have ended. -/
theorem Follows.rollingSum_le_begun {w : Window} {valid : w.Valid} {origin : Int}
    (h : s.Follows (.start w valid origin) ts) (hended : s.order.length = s.calls.countP isEnded) (id : Nat) :
    s.counter.ring.sum id ≤ s.begun := by
  have hshows := Counter.shows_run_start valid origin (s.history ts)
  rw [(Counter.run_eq _ _).2.1, ← h.ring_eq] at hshows
  calc s.counter.ring.sum id
      ≤ (Ring.arrivals 0 ((s.history ts).map (Counter.start w valid origin).bucketId)).length := by
        rw [hshows.sum_eq]
        exact List.countP_le_length
    _ ≤ ((s.history ts).map (Counter.start w valid origin).bucketId).length := Ring.length_arrivals_le ..
    _ ≤ s.begun := by
        rw [List.length_map]
        exact length_history_le hended

end Crowd

/-! ## The sections of a snapshot -/

/-- How far a snapshot has come. -/
inductive Stage
  | fresh
  /-- It shares the ring, with `left` buckets from bucket `next` on before it, and has added up `sum`. -/
  | loading (next left sum : Nat)
  /-- It has left the ring. -/
  | loaded (sum : Nat)
  | shown (r : Reading)
deriving DecidableEq, Repr

namespace Stage

/-- The snapshot shares the ring. -/
def isLoading : Stage → Bool
  | .loading .. => true
  | _ => false

/-- The next section of a snapshot at `t`. -/
def advance (c : Counter) (t : Int) : Stage → Stage
  | .fresh =>
    .loading (c.ring.oldest (c.bucketId t)) (c.ring.newest (c.bucketId t) + 1 - c.ring.oldest (c.bucketId t)) 0
  | .loading _ 0 sum => .loaded sum
  | .loading b (n + 1) sum => .loading (b + 1) n (sum + c.ring.count b)
  | .loaded sum => .shown ⟨sum, c.total⟩
  | .shown r => .shown r

/-- The sections that a snapshot of `buckets` buckets still has at most. -/
def left (buckets : Nat) : Stage → Nat
  | .fresh => buckets + 3
  | .loading _ n _ => n + 2
  | .loaded _ => 1
  | .shown _ => 0

variable {st : Stage} {c : Counter} {t : Int} {r r' : Ring} {id n m : Nat}

/-- A section brings a snapshot nearer to its end. -/
theorem left_advance_le (c : Counter) (t : Int) (st : Stage) :
    (st.advance c t).left c.buckets ≤ st.left c.buckets - 1 := by
  cases st with
  | fresh => exact Nat.add_le_add_right (Ring.length_window_le ..) 2
  | loading b n sum => cases n <;> exact Nat.le_refl _
  | loaded | shown => exact Nat.le_refl _

theorem shown_of_left (h : st.left n = 0) : ∃ r, st = .shown r := by
  cases st with
  | shown r => exact ⟨r, rfl⟩
  | fresh | loading | loaded => cases h

theorem iterate_loading (c : Counter) (t : Int) (lo k n : Nat) :
    (advance c t)^[n] (.loading (lo + k) n (c.ring.sumFrom lo k)) =
      .loading (lo + (k + n)) 0 (c.ring.sumFrom lo (k + n)) := by
  induction n generalizing k with
  | zero => rfl
  | succ n ih =>
    rw [Function.iterate_succ_apply, show k + (n + 1) = k + 1 + n by omega]
    exact ih (k + 1)

/-- **A snapshot that nobody interrupts** is what the counter shows. -/
theorem advance_alone (c : Counter) (t : Int) :
    (advance c t)^[c.ring.newest (c.bucketId t) + 1 - c.ring.oldest (c.bucketId t) + 3] .fresh =
      .shown (c.reading t) := by
  have hloads := iterate_loading c t (c.ring.oldest (c.bucketId t)) 0
    (c.ring.newest (c.bucketId t) + 1 - c.ring.oldest (c.bucketId t))
  rw [Nat.zero_add] at hloads
  rw [show ∀ n, n + 3 = 2 + (n + 1) by omega, Function.iterate_add_apply, Function.iterate_succ_apply]
  exact congrArg (advance c t)^[2] hloads

/-- What bounds the sum of a snapshot of the window of bucket `id`, when `begun` calls have begun. -/
def Bounded (r : Ring) (id begun : Nat) : Stage → Prop
  | .fresh => True
  | .loading b n sum =>
    ∃ k, b = r.oldest id + k ∧ k + n = r.newest id + 1 - r.oldest id ∧ sum ≤ r.sumFrom (r.oldest id) k
  | .loaded sum => sum ≤ begun
  | .shown x => x.rolling ≤ x.total ∧ x.rolling ≤ begun

namespace Bounded

/-- A snapshot that does not share the ring does not mind what becomes of it. -/
theorem leave (h : st.Bounded r id n) (hst : st.isLoading = false) (hn : n ≤ m) : st.Bounded r' id m := by
  cases st with
  | fresh => trivial
  | loading => cases hst
  | loaded sum => exact Nat.le_trans h hn
  | shown x => exact ⟨h.1, Nat.le_trans h.2 hn⟩

/-- The slots that were loaded hold no less when the ring has grown. -/
theorem grow (h : st.Bounded r id n) (hr : r.Grows r') (hn : n ≤ m) : st.Bounded r' id m := by
  cases st with
  | loading b left sum =>
    obtain ⟨k, hb, hk, hsum⟩ := h
    refine ⟨k, by rw [hr.oldest_eq, hb], by rw [hr.oldest_eq, hr.newest_eq, hk], ?_⟩
    rw [hr.oldest_eq]
    exact Nat.le_trans hsum (Ring.sumFrom_le_sumFrom fun b _ _ => hr.count_le b)
  | fresh | loaded | shown => exact h.leave rfl hn

/-- **A section of the snapshot** keeps its bound, if no window has more than the total. -/
theorem advance (h : st.Bounded c.ring (c.bucketId t) n) (hsum : c.rollingSum t ≤ n) (htotal : c.total = n) :
    (st.advance c t).Bounded c.ring (c.bucketId t) n := by
  cases st with
  | fresh => exact ⟨0, rfl, Nat.zero_add _, Nat.zero_le _⟩
  | loading b left sum =>
    obtain ⟨k, hb, hk, hle⟩ := h
    cases left with
    | zero =>
      -- the last slot is loaded, and the sum is that of the window at most
      rw [Nat.add_zero] at hk
      rw [hk] at hle
      exact Nat.le_trans hle hsum
    | succ left =>
      refine ⟨k + 1, by rw [hb, Nat.add_assoc], by omega, ?_⟩
      rw [Ring.sumFrom, ← hb]
      exact Nat.add_le_add_right hle _
  | loaded sum => exact ⟨Nat.le_trans h (Nat.le_of_eq htotal.symm), h⟩
  | shown x => exact h

end Bounded

end Stage

/-! ## Crowds that are watched -/

/-- Whose section is next. -/
inductive Turn
  | call (i : Nat)
  | snapshot (j : Nat)
deriving DecidableEq, Repr

/-- The calls on a counter and the snapshots of it, each with its instant. -/
structure Watched where
  crowd : Crowd
  snapshots : List (Int × Stage)

namespace Watched

/-- Calls for events at the instants `ts` and snapshots at the instants `qs`, none of which has begun. -/
def start (c : Counter) (ts qs : List Int) : Watched := ⟨.start c ts, qs.map fun q => (q, .fresh)⟩

/-- A snapshot shares the ring. -/
def isShared (s : Watched) : Bool := s.snapshots.any fun x => x.2.isLoading

/-- The next section of whose turn it is. A call that needs the ring to itself waits while a snapshot shares it. -/
def step (s : Watched) : Turn → Watched
  | .call i => if s.isShared && s.crowd.needsRing i then s else { s with crowd := s.crowd.step i }
  | .snapshot j =>
    { s with snapshots := s.snapshots.modify j fun x => (x.1, x.2.advance s.crowd.counter x.1) }

/-- The crowd and the snapshots after the sections of a schedule. -/
def run (s : Watched) (schedule : List Turn) : Watched := schedule.foldl step s

/-- The crowd follows its history, and every snapshot is bounded. -/
structure Sound (s : Watched) (c : Counter) (ts : List Int) : Prop where
  follows : s.crowd.Follows c ts
  ended : s.crowd.order.length = s.crowd.calls.countP Crowd.isEnded
  bounded : ∀ x ∈ s.snapshots, x.2.Bounded s.crowd.counter.ring (c.bucketId x.1) s.crowd.begun

variable {s : Watched} {w : Window} {valid : w.Valid} {origin : Int} {ts : List Int}

theorem sound_start (c : Counter) (ts qs : List Int) : (start c ts qs).Sound c ts := by
  refine ⟨Crowd.follows_start c ts, ?_, ?_⟩
  · simp [start, Crowd.start, Crowd.isEnded, List.countP_map, Function.comp_def]
  · intro x hx
    obtain ⟨q, -, rfl⟩ := List.mem_map.mp hx
    trivial

theorem Sound.call (h : s.Sound (.start w valid origin) ts) (i : Nat) :
    (s.step (.call i)).Sound (.start w valid origin) ts := by
  rw [step]
  split
  · exact h
  · rename_i hwaits
    refine ⟨h.follows.step i, Crowd.length_order_step h.ended i, fun x hx => ?_⟩
    have hn := s.crowd.begun_le_step i
    by_cases hneeds : s.crowd.needsRing i = true
    · -- the call may rotate the ring, and so no snapshot shares it
      have hshared : ¬ s.isShared = true := fun hshared => hwaits (by rw [hshared, hneeds]; rfl)
      have hx' : x.2.isLoading = false := by
        by_contra hloading
        exact hshared (List.any_eq_true.mpr ⟨x, hx, by simpa using hloading⟩)
      exact (h.bounded x hx).leave hx' hn
    · exact (h.bounded x hx).grow (Crowd.grows_step (by simpa using hneeds)) hn

theorem Sound.snapshot (h : s.Sound (.start w valid origin) ts) (j : Nat) :
    (s.step (.snapshot j)).Sound (.start w valid origin) ts := by
  refine ⟨h.follows, h.ended, fun x hx => ?_⟩
  obtain ⟨k, hk⟩ := List.mem_iff_getElem?.mp hx
  rw [Watched.step, List.getElem?_modify] at hk
  obtain ⟨y, hy, hxy⟩ := Option.map_eq_some_iff.mp hk
  have hbounded := h.bounded y (List.mem_of_getElem? hy)
  split at hxy
  · subst hxy
    have hsum := h.follows.rollingSum_le_begun h.ended (s.crowd.counter.bucketId y.1)
    have htotal : s.crowd.counter.total = s.crowd.begun := h.follows.total_eq.trans (Nat.zero_add _)
    rw [← h.follows.bucketId_eq] at hbounded ⊢
    exact hbounded.advance hsum htotal
  · exact hxy ▸ hbounded

/-- **Every section** keeps the bounds. -/
theorem Sound.step (h : s.Sound (.start w valid origin) ts) (turn : Turn) :
    (s.step turn).Sound (.start w valid origin) ts := by
  cases turn with
  | call i => exact h.call i
  | snapshot j => exact h.snapshot j

/-- **Every schedule** keeps the bounds. -/
theorem Sound.run (h : s.Sound (.start w valid origin) ts) (schedule : List Turn) :
    (s.run schedule).Sound (.start w valid origin) ts := by
  induction schedule generalizing s with
  | nil => exact h
  | cons turn schedule ih => exact ih (h.step turn)

/-! ## Schedules that suffice -/

theorem instants_step (s : Watched) (turn : Turn) :
    (s.step turn).snapshots.map Prod.fst = s.snapshots.map Prod.fst := by
  cases turn with
  | call i =>
    rw [step]
    split <;> rfl
  | snapshot j =>
    refine List.ext_getElem? fun k => ?_
    rw [step, List.getElem?_map, List.getElem?_map, List.getElem?_modify]
    cases s.snapshots[k]? with
    | none => rfl
    | some x =>
      change some (if j = k then (x.1, _) else x).1 = some x.1
      split <;> rfl

theorem instants_run (s : Watched) (schedule : List Turn) :
    (s.run schedule).snapshots.map Prod.fst = s.snapshots.map Prod.fst := by
  induction schedule generalizing s with
  | nil => rfl
  | cons turn schedule ih => exact (ih (s.step turn)).trans (s.instants_step turn)

/-- The sections that snapshot `j` of `buckets` buckets still has at most. -/
def left (buckets : Nat) (s : Watched) (j : Nat) : Nat := (s.snapshots[j]?.map fun x => x.2.left buckets).getD 0

theorem Sound.buckets_eq (h : s.Sound (.start w valid origin) ts) : s.crowd.counter.buckets = w.buckets.toNat := by
  rw [Counter.buckets, h.follows.ring_eq, Ring.size_run]
  exact Counter.buckets_start valid origin

/-- A section brings its snapshot nearer to its end, and no other snapshot farther from it. -/
theorem Sound.left_step (h : s.Sound (.start w valid origin) ts) (turn : Turn) (j : Nat) :
    (s.step turn).left w.buckets.toNat j ≤ s.left w.buckets.toNat j - if turn = .snapshot j then 1 else 0 := by
  cases turn with
  | call i =>
    rw [if_neg nofun, Watched.step]
    split <;> exact Nat.le_refl _
  | snapshot k =>
    by_cases hkj : k = j
    · subst hkj
      rw [Watched.step, left, left, List.getElem?_modify_eq, if_pos rfl, ← h.buckets_eq]
      cases s.snapshots[k]? with
      | none => exact Nat.zero_le _
      | some x => exact Stage.left_advance_le ..
    · rw [Watched.step, left, left, List.getElem?_modify_ne _ _ hkj, if_neg fun heq => hkj (Turn.snapshot.inj heq)]
      exact Nat.le_refl _

theorem Sound.left_run (h : s.Sound (.start w valid origin) ts) (schedule : List Turn) (j : Nat) :
    (s.run schedule).left w.buckets.toNat j ≤ s.left w.buckets.toNat j - schedule.count (.snapshot j) := by
  induction schedule generalizing s with
  | nil => exact Nat.le_refl _
  | cons turn schedule ih =>
    have hrest : ((s.step turn).run schedule).left w.buckets.toNat j ≤ _ := ih (h.step turn)
    have hstep := h.left_step turn j
    rw [List.count_cons]
    simp only [beq_iff_eq]
    exact Nat.le_trans hrest (by omega)

/-- **Nothing blocks a snapshot**: it is shown after as many turns as it has buckets to load, and three. -/
theorem shown_run {qs : List Int} {schedule : List Turn} {j : Nat} {q : Int} (hq : qs[j]? = some q)
    (hturns : w.buckets.toNat + 3 ≤ schedule.count (.snapshot j)) :
    ∃ r, ((start (.start w valid origin) ts qs).run schedule).snapshots[j]? = some (q, .shown r) := by
  have hstart : (start (.start w valid origin) ts qs).left w.buckets.toNat j = w.buckets.toNat + 3 := by
    rw [left, start, List.getElem?_map, hq]
    rfl
  have hle := (sound_start (.start w valid origin) ts qs).left_run schedule j
  have hinstant : (((start (.start w valid origin) ts qs).run schedule).snapshots.map Prod.fst)[j]? = some q := by
    rw [instants_run, start, List.map_map]
    simpa [Function.comp_def] using hq
  rw [List.getElem?_map] at hinstant
  obtain ⟨⟨q', st⟩, hj, rfl⟩ := Option.map_eq_some_iff.mp hinstant
  rw [hstart, Nat.sub_eq_zero_of_le hturns, left, hj] at hle
  obtain ⟨r, rfl⟩ := Stage.shown_of_left (Nat.le_zero.mp hle)
  exact ⟨r, hj⟩

/-- **A snapshot shows no more than has happened.** A counter of an accepted window can be made at any origin. Let calls
for any events count on it, and let any snapshots of it be taken meanwhile, in any schedule of their sections. Then every
snapshot that is shown has no more events in its window than in its total, and no more than calls have begun by then;
this holds of the sum already when the snapshot leaves the ring. And a snapshot is shown once it has had a turn for each
bucket of the window and three others. -/
theorem run_bounded {w : Window} (accepted : w.problems Window.commonScope = []) (origin : Int) :
    ∃ c, Counter.create w origin = .ok c ∧ ∀ (ts qs : List Int) (schedule : List Turn),
      let s := (start c ts qs).run schedule
      (∀ q r, (q, .shown r) ∈ s.snapshots → r.rolling ≤ r.total ∧ r.rolling ≤ s.crowd.begun) ∧
      (∀ q sum, (q, .loaded sum) ∈ s.snapshots → sum ≤ s.crowd.begun) ∧
      ∀ j q, qs[j]? = some q → w.buckets.toNat + 3 ≤ schedule.count (.snapshot j) →
        ∃ r, s.snapshots[j]? = some (q, .shown r) := by
  have valid := Window.problems_eq_nil_iff.mp accepted
  refine ⟨.start w valid origin, Counter.create_of_valid valid origin, ?_⟩
  intro ts qs schedule s
  have h : s.Sound (.start w valid origin) ts := (sound_start _ ts qs).run schedule
  exact ⟨fun q r hr => h.bounded _ hr, fun q sum hsum => h.bounded _ hsum, fun j q => shown_run⟩

namespace Busy

/-- The instants of four events, the last of which opens a bucket. -/
def events : List Int := [0, 1000000, 1500000, 2000000]

/-- Two calls have ended when a snapshot begins. It has loaded its first slot when the third call comes, and its second
one when the last call has found out that it has to rotate the ring, and waits; that call goes on before the total is
read. -/
def schedule : List Turn :=
  [.call 0, .call 0, .call 1, .call 1, .call 1, .snapshot 0, .snapshot 0, .call 2, .call 2, .call 3, .call 3, .call 3,
    .snapshot 0, .snapshot 0, .call 3, .snapshot 0]

end Busy

/-- The snapshot shows three events in its window of two milliseconds, and four in its total. -/
theorem run_bounded_busy : (⟨1, 2⟩ : Window).problems Window.commonScope = [] ∧
    ∃ c, Counter.create ⟨1, 2⟩ 0 = .ok c ∧
      (1000000, .shown ⟨3, 4⟩) ∈ ((start c Busy.events [1000000]).run Busy.schedule).snapshots ∧
      3 ≤ ((start c Busy.events [1000000]).run Busy.schedule).crowd.begun := by
  obtain ⟨c, hc, hbounded⟩ := run_bounded (w := ⟨1, 2⟩) (by decide) 0
  obtain rfl := Except.ok.inj (hc.symm.trans (Counter.create_of_valid (by decide) 0))
  obtain ⟨r, hr⟩ := (hbounded Busy.events [1000000] Busy.schedule).2.2 0 1000000 rfl (by decide)
  have hmem := List.mem_of_getElem? hr
  have hshown : r = ⟨3, 4⟩ := by
    have heval : ((start (.start ⟨1, 2⟩ (by decide) 0) Busy.events [1000000]).run Busy.schedule).snapshots[0]? =
      some (1000000, .shown ⟨3, 4⟩) := by decide +kernel
    exact Stage.shown.inj (Prod.mk.inj (Option.some.inj (hr.symm.trans heval))).2
  subst hshown
  exact ⟨by decide, _, hc, hmem, ((hbounded Busy.events [1000000] Busy.schedule).1 _ _ hmem).2⟩

end Watched
end CallGuard.Rolling
