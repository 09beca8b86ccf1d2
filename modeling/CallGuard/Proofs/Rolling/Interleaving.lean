import CallGuard.Proofs.Rolling.History
import CallGuard.Proofs.Rows

/-!
# Counting at the same time

Calls that count events on one counter overlap. A call goes in sections that nothing interrupts. First it adds to the
total (`Counter.tally`). Then it looks at the open bucket, beside others that do no more than that: unless its own
bucket is newer it counts there what belongs there, and ends (`Counter.look?`). Else it waits for the ring to itself,
looks again, opens its bucket if that is still the newer one, and ends (`Counter.settle`). A `Crowd` is a counter with
the calls on it, and a schedule says whose section is next.

* **Sections**: the last section of a call, whichever it is, does to the ring what a call does that is alone with it
  (`Counter.settle_of_look?`, `Counter.settle_tally`).
* **Invariant** (`Crowd.Follows`): the counter is that of a run, one after the other, of the calls that have ended, in
  the order of their last sections, beside a total that is ahead by the calls still under way.
* **Main statement** (`Crowd.run_linear`): whatever the schedule, no section takes an event from a bucket that stays in
  the ring, and when all calls have ended the counter is that of a run of the same calls one after the other.
-/

namespace CallGuard.Rolling

/-! ## The open bucket -/

namespace Ring

variable {r : Ring} {id b : Nat}

/-- What the open bucket holds after an event: what it held before, if it was open then, and the event if it belongs
there. -/
theorem count_head_add : (r.add id).count (r.add id).head =
    (if r.head = (r.add id).head then r.count (r.add id).head else 0) + if id = (r.add id).head then 1 else 0 := by
  rw [head_add]
  by_cases hnew : r.head < id
  · have hreach : r.reach id = r.advance id := if_pos hnew
    have hhead : (r.advance id).head = id := rfl
    rw [Nat.max_eq_right (Nat.le_of_lt hnew), if_neg (Nat.ne_of_lt hnew), if_pos rfl, add, hreach, count_touch,
      if_pos ⟨hhead.symm, rfl⟩, count_advance_of_mem hnew (Nat.le_refl id) rfl]
  · rw [Nat.max_eq_left (Nat.le_of_not_lt hnew), if_pos rfl, add, reach_of_le (Nat.le_of_not_lt hnew), count_touch]
    by_cases hopen : id = r.head
    · rw [if_pos hopen, if_pos ⟨hopen, by rw [hopen]⟩]
    · rw [if_neg hopen, if_neg (fun h => hopen h.1), Nat.add_zero]

/-- **The last open bucket** of a run holds what it held before, if it was open then, and all events of the run that
belong there, wherever they stand in it. -/
theorem count_head_run (ids : List Nat) : (r.run ids).count (r.run ids).head =
    (if r.head = (r.run ids).head then r.count (r.run ids).head else 0) + ids.count (r.run ids).head := by
  induction ids generalizing r with
  | nil => simp [run]
  | cons id ids ih =>
    have hrun : r.run (id :: ids) = (r.add id).run ids := rfl
    have hle : max r.head id ≤ (r.run (id :: ids)).head := by
      rw [hrun, head_run, head_add]
      exact (foldl_max_le_iff.mp (Nat.le_refl _)).1
    rw [hrun] at hle ⊢
    rw [ih, List.count_cons]
    by_cases hopen : (r.add id).head = ((r.add id).run ids).head
    · rw [if_pos hopen, ← hopen, count_head_add]
      simp only [beq_iff_eq]
      omega
    · -- neither the bucket that was open nor that of the event is the last one
      rw [head_add] at hopen
      rw [if_neg (by rwa [head_add]), if_neg (by omega), if_neg (by rw [beq_iff_eq]; omega), Nat.add_zero]

/-- Every window that reaches the open bucket counts all of it. -/
theorem count_head_le_sum (h₁ : r.head ≤ id) (h₂ : id < r.head + r.size) : r.count r.head ≤ r.sum id := by
  have hold : r.oldest id ≤ r.head := by unfold oldest; omega
  obtain ⟨n, hn⟩ := Nat.exists_eq_add_of_le hold
  have hlen : r.newest id + 1 - r.oldest id = n + 1 := by unfold newest; omega
  rw [sum, hlen, sumFrom, ← hn]
  exact Nat.le_add_left _ _

end Ring

/-! ## The sections of a call -/

namespace Counter

/-- Count one event into the total. -/
def tally (c : Counter) : Counter := { c with total := c.total + 1 }

/-- Look at the open bucket for an event at `t`: unless its own bucket is newer, count it if it belongs there. -/
def look? (c : Counter) (t : Int) : Option Counter :=
  if c.bucketId t ≤ c.ring.head then
    some { c with ring := c.ring.touch (c.bucketId t), size_eq := by simpa using c.size_eq }
  else none

/-- Look at the open bucket again for an event at `t`, alone with the ring: open its bucket if that is still newer, and
count the event if its bucket is the open one now. -/
def settle (c : Counter) (t : Int) : Counter :=
  { c with ring := (c.ring.reach (c.bucketId t)).touch (c.bucketId t), size_eq := by simpa using c.size_eq }

/-- The same counter with another total. -/
def withTotal (c : Counter) (n : Nat) : Counter := { c with total := n }

variable (c : Counter) (t : Int) (n : Nat)

/-- The last section of a call that needs not have the ring to itself does what it would do then. -/
theorem settle_of_look? {c c' : Counter} {t : Int} (h : c.look? t = some c') : c' = c.settle t := by
  unfold look? at h
  split at h
  · rename_i hle
    cases h
    rw [settle]
    congr 1
    rw [Ring.reach_of_le hle]
  · cases h

/-- A call that is not interrupted counts one event. -/
theorem settle_tally : c.tally.settle t = c.increment t := rfl

theorem tally_withTotal : (c.withTotal n).tally = c.withTotal (n + 1) := rfl

theorem settle_withTotal : (c.withTotal n).settle t = (c.increment t).withTotal n := rfl

theorem withTotal_total : c.withTotal c.total = c := rfl

theorem run_concat (ts : List Int) : c.run (ts ++ [t]) = (c.run ts).increment t := List.foldl_concat ..

end Counter

/-! ## Crowds -/

/-- How far a call has come. -/
inductive Place
  | fresh
  /-- It has counted its event into the total. -/
  | tallied
  /-- It has found its bucket to be newer than the open one, and waits for the ring. -/
  | ahead
  | ended
deriving DecidableEq, Repr

/-- The sections that a call still has at most. -/
def Place.left : Place → Nat
  | .fresh => 3
  | .tallied => 2
  | .ahead => 1
  | .ended => 0

/-- A counter and the calls on it, each with the instant of its event. -/
structure Crowd where
  counter : Counter
  calls : List (Int × Place)
  /-- The calls that have ended, in the order of their last sections. -/
  order : List Nat := []

namespace Crowd

/-- Calls for events at the given instants that have not begun. -/
def start (c : Counter) (ts : List Int) : Crowd := { counter := c, calls := ts.map fun t => (t, .fresh) }

/-- The last section of call `i`, which leaves the counter as it is given. -/
def finish (s : Crowd) (i : Nat) (t : Int) (c : Counter) : Crowd :=
  { counter := c, calls := s.calls.set i (t, .ended), order := s.order ++ [i] }

/-- The section in which call `i` looks at the open bucket: it ends there, or waits for the ring. -/
def look (s : Crowd) (i : Nat) (t : Int) : Crowd :=
  (s.counter.look? t).elim { s with calls := s.calls.set i (t, .ahead) } (s.finish i t)

/-- The next section of call `i`. -/
def step (s : Crowd) (i : Nat) : Crowd :=
  match s.calls[i]? with
  | some (t, .fresh) => { s with counter := s.counter.tally, calls := s.calls.set i (t, .tallied) }
  | some (t, .tallied) => s.look i t
  | some (t, .ahead) => s.finish i t (s.counter.settle t)
  | some (_, .ended) | none => s

/-- The crowd after the sections of a schedule. -/
def run (s : Crowd) (schedule : List Nat) : Crowd := schedule.foldl step s

/-- All calls have ended. -/
def Ended (s : Crowd) : Prop := ∀ c ∈ s.calls, c.2 = .ended

instance (s : Crowd) : Decidable s.Ended := inferInstanceAs (Decidable (∀ c ∈ s.calls, _))

/-- The call has counted its event into the total. -/
def isBegun (c : Int × Place) : Bool := c.2 ≠ .fresh

/-- The number of calls that have counted their events into the total. -/
def begun (s : Crowd) : Nat := s.calls.countP isBegun

variable {s : Crowd} {i : Nat} {t : Int} {c : Counter} {ts : List Int}

/-- What a section can do. -/
inductive Moves (s : Crowd) (i : Nat) : Crowd → Prop
  | tally {t : Int} : s.calls[i]? = some (t, .fresh) →
      Moves s i { s with counter := s.counter.tally, calls := s.calls.set i (t, .tallied) }
  | wait {t : Int} : s.calls[i]? = some (t, .tallied) → Moves s i { s with calls := s.calls.set i (t, .ahead) }
  | finish {t : Int} {p : Place} : s.calls[i]? = some (t, p) → p ≠ .fresh → p ≠ .ended →
      Moves s i (s.finish i t (s.counter.settle t))
  | stay : (∀ d, s.calls[i]? = some d → d.2 = .ended) → Moves s i s

theorem moves_look (h : s.calls[i]? = some (t, .tallied)) : s.Moves i (s.look i t) := by
  unfold look
  cases hlook : s.counter.look? t with
  | none => exact .wait h
  | some c =>
    rw [Option.elim_some, Counter.settle_of_look? hlook]
    exact .finish h nofun nofun

theorem moves_step (s : Crowd) (i : Nat) : s.Moves i (s.step i) := by
  unfold step
  split
  · rename_i t h; exact .tally h
  · rename_i t h; exact moves_look h
  · rename_i t h; exact .finish h nofun nofun
  · rename_i t h
    refine .stay fun d hd => ?_
    cases h.symm.trans hd
    rfl
  · rename_i h
    exact .stay fun d hd => nomatch h.symm.trans hd

/-! ## The invariant -/

/-- The instants of the calls that have ended, in the order of their last sections. -/
def history (s : Crowd) (ts : List Int) : List Int := s.order.filterMap (ts[·]?)

theorem history_finish {c' : Counter} (hi : ts[i]? = some t) : (s.finish i t c').history ts = s.history ts ++ [t] := by
  rw [history, finish, List.filterMap_append, List.filterMap_cons_some hi, List.filterMap_nil]
  rfl

theorem filterMap_getElem?_range (ts : List Int) : (List.range ts.length).filterMap (ts[·]?) = ts := by
  induction ts with
  | nil => rfl
  | cons t ts ih =>
    rw [List.length_cons, List.range_succ_eq_map, List.filterMap_cons_some List.getElem?_cons_zero, List.filterMap_map]
    exact congrArg _ ih

/-- The counter is that of a run of the calls that have ended, but for the total of the others. -/
structure Follows (s : Crowd) (c : Counter) (ts : List Int) : Prop where
  instants : s.calls.map Prod.fst = ts
  nodup : s.order.Nodup
  mem_order : ∀ i, i ∈ s.order ↔ ∃ t, s.calls[i]? = some (t, .ended)
  counter : s.counter = (c.run (s.history ts)).withTotal (c.total + s.begun)

theorem follows_start (c : Counter) (ts : List Int) : (start c ts).Follows c ts := by
  have hnone : (start c ts).begun = 0 := by simp [begun, isBegun, start, List.countP_map, Function.comp_def]
  refine ⟨by simp [start, Function.comp_def], List.nodup_nil, ?_, ?_⟩
  · intro i
    refine ⟨fun h => absurd h List.not_mem_nil, ?_⟩
    rintro ⟨t, h⟩
    obtain ⟨_, -, heq⟩ := List.getElem?_map ▸ h |> Option.map_eq_some_iff.mp
    cases heq
  · rw [hnone]
    rfl

namespace Follows

variable (h : s.Follows c ts)
include h

theorem getElem? {p : Place} (hi : s.calls[i]? = some (t, p)) : ts[i]? = some t := by
  rw [← h.instants, List.getElem?_map, hi]
  rfl

/-- A call that moves on keeps its instant. -/
theorem instants_set {p : Place} (hi : s.calls[i]? = some (t, p)) (q : Place) :
    (s.calls.set i (t, q)).map Prod.fst = ts := by
  obtain ⟨hlt, heq⟩ := List.getElem?_eq_some_iff.mp (h.getElem? hi)
  rw [List.map_set, h.instants, ← heq, List.set_getElem_self]

/-- Calls that have not ended can move on before their last section. -/
theorem mem_order_set {p q : Place} (hi : s.calls[i]? = some (t, p)) (hp : p ≠ .ended) (hq : q ≠ .ended) (j : Nat) :
    j ∈ s.order ↔ ∃ t', (s.calls.set i (t, q))[j]? = some (t', .ended) := by
  rw [h.mem_order, List.getElem?_set]
  by_cases hij : i = j
  · subst hij
    rw [if_pos rfl, if_pos (List.getElem?_eq_some_iff.mp hi).1, hi]
    simp [hp, hq]
  · rw [if_neg hij]

theorem tally (hi : s.calls[i]? = some (t, .fresh)) :
    Follows { s with counter := s.counter.tally, calls := s.calls.set i (t, .tallied) } c ts := by
  refine ⟨h.instants_set hi _, h.nodup, h.mem_order_set hi nofun nofun, ?_⟩
  have hbegun : (s.calls.set i (t, .tallied)).countP isBegun = s.begun + 1 := countP_set_add isBegun hi (t, .tallied)
  rw [begun, hbegun, h.counter, Counter.tally_withTotal]
  rfl

theorem wait (hi : s.calls[i]? = some (t, .tallied)) :
    Follows { s with calls := s.calls.set i (t, .ahead) } c ts := by
  refine ⟨h.instants_set hi _, h.nodup, h.mem_order_set hi nofun nofun, ?_⟩
  have hbegun : (s.calls.set i (t, .ahead)).countP isBegun = s.begun :=
    Nat.succ.inj (countP_set_add isBegun hi (t, .ahead))
  rw [begun, hbegun]
  exact h.counter

theorem finish {p : Place} (hi : s.calls[i]? = some (t, p)) (hf : p ≠ .fresh) (he : p ≠ .ended) :
    Follows (s.finish i t (s.counter.settle t)) c ts := by
  have hnew : i ∉ s.order := by
    rw [h.mem_order]
    rintro ⟨t', ht'⟩
    rw [hi] at ht'
    cases ht'
    exact he rfl
  have hbegun : (s.finish i t (s.counter.settle t)).begun = s.begun := by
    have hcount := countP_set_add isBegun hi (t, .ended)
    rw [isBegun, decide_eq_true hf] at hcount
    exact Nat.succ.inj hcount
  refine ⟨h.instants_set hi _, ?_, ?_, ?_⟩
  · rw [Crowd.finish, ← List.concat_eq_append]
    exact h.nodup.concat hnew
  · intro j
    rw [Crowd.finish, List.mem_append, List.mem_singleton, h.mem_order, List.getElem?_set]
    by_cases hij : i = j
    · subst hij
      simp [(List.getElem?_eq_some_iff.mp hi).1]
    · simp [hij, Ne.symm hij]
  · rw [hbegun, history_finish (h.getElem? hi), Counter.run_concat, ← Counter.settle_withTotal, ← h.counter]
    rfl

/-- Every section keeps the invariant. -/
theorem step (i : Nat) : (s.step i).Follows c ts := by
  have hmoves := s.moves_step i
  generalize s.step i = s' at hmoves ⊢
  cases hmoves with
  | tally hi => exact h.tally hi
  | wait hi => exact h.wait hi
  | finish hi hf he => exact h.finish hi hf he
  | stay _ => exact h

/-- Every schedule keeps the invariant. -/
theorem run (schedule : List Nat) : (s.run schedule).Follows c ts := by
  induction schedule generalizing s with
  | nil => exact h
  | cons i schedule ih => exact ih (h.step i)

/-! ## When all calls have ended -/

variable (hended : s.Ended)
include hended

theorem order_perm : s.order.Perm (List.range ts.length) := by
  refine (List.perm_ext_iff_of_nodup h.nodup List.nodup_range).mpr fun i => ?_
  rw [h.mem_order, List.mem_range, ← h.instants, List.length_map]
  constructor
  · rintro ⟨t, ht⟩
    exact (List.getElem?_eq_some_iff.mp ht).1
  · intro hlt
    have hmem : s.calls[i].2 = .ended := hended _ (List.getElem_mem hlt)
    exact ⟨s.calls[i].1, List.getElem?_eq_some_iff.mpr ⟨hlt, Prod.ext rfl hmem⟩⟩

/-- The same events are counted as one after the other. -/
theorem history_perm : (s.history ts).Perm ts := by
  have hperm := (h.order_perm hended).filterMap (ts[·]?)
  rwa [filterMap_getElem?_range] at hperm

theorem begun_eq : s.begun = ts.length := by
  rw [← h.instants, List.length_map, begun, List.countP_eq_length]
  intro c hc
  rw [isBegun, hended c hc]
  rfl

theorem counter_eq : s.counter = c.run (s.history ts) := by
  have htotal : (c.run (s.history ts)).total = c.total + s.begun := by
    rw [(Counter.run_eq c _).2.2, (h.history_perm hended).length_eq, h.begun_eq hended]
  rw [h.counter, ← htotal, Counter.withTotal_total]

end Follows

/-! ## Sections and buckets -/

/-- **No section takes an event from a bucket that stays in the ring.** -/
theorem count_le_step (s : Crowd) (i : Nat) {b : Nat} (hb : b ≤ s.counter.ring.head)
    (hlive : (s.step i).counter.ring.head < b + s.counter.ring.size) :
    s.counter.ring.count b ≤ (s.step i).counter.ring.count b := by
  have hmoves := s.moves_step i
  generalize s.step i = s' at hmoves hlive ⊢
  cases hmoves with
  | tally | wait | stay => exact Nat.le_refl _
  | finish => exact Ring.count_le_add hb hlive

/-! ## Schedules that suffice -/

/-- The sections that call `j` still has at most. -/
def left (s : Crowd) (j : Nat) : Nat := (s.calls[j]?.map (·.2.left)).getD 0

theorem left_set {s' : Crowd} {p q : Place} (hi : s.calls[i]? = some (t, p)) (hs' : s'.calls = s.calls.set i (t, q))
    (hlt : q.left < p.left) (j : Nat) : s'.left j ≤ s.left j - if i = j then 1 else 0 := by
  unfold left
  rw [hs', List.getElem?_set]
  by_cases hij : i = j
  · subst hij
    rw [if_pos rfl, if_pos rfl, if_pos (List.getElem?_eq_some_iff.mp hi).1, hi]
    exact Nat.le_sub_one_of_lt hlt
  · rw [if_neg hij, if_neg hij]
    exact Nat.le_refl _

/-- A section brings its call nearer to its end, and no other call farther from it. -/
theorem left_step (s : Crowd) (i j : Nat) : (s.step i).left j ≤ s.left j - if i = j then 1 else 0 := by
  have hmoves := s.moves_step i
  generalize s.step i = s' at hmoves ⊢
  cases hmoves with
  | tally hi => exact left_set hi rfl (by decide) j
  | wait hi => exact left_set hi rfl (by decide) j
  | @finish t p hi hf he =>
    refine left_set hi rfl ?_ j
    cases p <;> first | decide | exact absurd rfl he
  | stay hended =>
    have hzero : s.left i = 0 := by
      unfold left
      cases hi : s.calls[i]? with
      | none => rfl
      | some d => rw [Option.map_some, hended d hi]; rfl
    split
    · rename_i hij
      rw [← hij, hzero]
    · exact Nat.le_refl _

theorem left_run (s : Crowd) (schedule : List Nat) (j : Nat) :
    (s.run schedule).left j ≤ s.left j - schedule.count j := by
  induction schedule generalizing s with
  | nil => exact Nat.le_refl _
  | cons i schedule ih =>
    have hrest : ((s.step i).run schedule).left j ≤ (s.step i).left j - schedule.count j := ih _
    have hstep := s.left_step i j
    rw [List.count_cons]
    simp only [beq_iff_eq]
    exact Nat.le_trans hrest (by omega)

/-- **Nothing blocks**: a schedule that has three sections for each call brings all of them to their ends. -/
theorem ended_run (c : Counter) {ts : List Int} {schedule : List Nat} (h : ∀ j < ts.length, 3 ≤ schedule.count j) :
    ((start c ts).run schedule).Ended := by
  intro d hd
  obtain ⟨j, hj⟩ := List.mem_iff_getElem?.mp hd
  have hlt : j < ts.length := by
    rw [← ((follows_start c ts).run schedule).instants, List.length_map]
    exact (List.getElem?_eq_some_iff.mp hj).1
  have hle := (start c ts).left_run schedule j
  have hstart : (start c ts).left j ≤ 3 := by
    rw [left, start, List.getElem?_map, List.getElem?_eq_getElem hlt]
    exact Nat.le_refl 3
  have hzero : d.2.left = 0 := by
    rw [left, hj] at hle
    have := h j hlt
    exact Nat.le_zero.mp (Nat.le_trans hle (by omega))
  revert hzero
  cases d.2 <;> first | exact fun _ => rfl | exact nofun

/-! ## One after the other -/

/-- **Overlapping calls count as one after the other.** Whatever the counter, the calls and their schedule: no section
takes an event from a bucket that is opened and stays in the ring; and when all calls have ended, the counter is that of
a run of these calls in the order of their last sections. So its total has all events, and its open bucket has all that
belong there, beside what it held before, and every window that reaches it counts them. -/
theorem run_linear (c : Counter) (ts : List Int) (schedule : List Nat) :
    let s := (start c ts).run schedule
    let head := s.counter.ring.head
    (∀ i b, b ≤ head → (s.step i).counter.ring.head < b + s.counter.ring.size →
      s.counter.ring.count b ≤ (s.step i).counter.ring.count b) ∧
    (s.Ended → s.order.Perm (List.range ts.length) ∧ s.counter = c.run (s.history ts) ∧
      s.counter.total = c.total + ts.length ∧
      s.counter.ring.count head =
        (if c.ring.head = head then c.ring.count head else 0) + (ts.map c.bucketId).count head ∧
      ∀ q, head ≤ c.bucketId q → c.bucketId q < head + c.ring.size →
        s.counter.ring.count head ≤ s.counter.rollingSum q) := by
  intro s head
  refine ⟨fun i b => count_le_step s i, fun hended => ?_⟩
  have h : s.Follows c ts := (follows_start c ts).run schedule
  obtain ⟨hid, hring, htotal⟩ := Counter.run_eq c (s.history ts)
  rw [← h.counter_eq hended] at hid hring htotal
  have hperm := h.history_perm hended
  refine ⟨h.order_perm hended, h.counter_eq hended, ?_, ?_, ?_⟩
  · rw [htotal, hperm.length_eq]
  · have hhead : head = (c.ring.run ((s.history ts).map c.bucketId)).head := congrArg Ring.head hring
    rw [hring, hhead, Ring.count_head_run, (hperm.map c.bucketId).count_eq]
  · intro q h₁ h₂
    have hsize : s.counter.ring.size = c.ring.size := by rw [hring, Ring.size_run]
    rw [Counter.rollingSum, hid]
    exact Ring.count_head_le_sum h₁ (by rwa [hsize])

namespace Overtaken

/-- A window of two buckets of a millisecond. -/
def counter : Counter := .start ⟨1, 2⟩ (by decide) 0

/-- The instants of three events, each of a bucket of its own. -/
def events : List Int := [3000000, 5000000, 4000000]

/-- All three calls find the first bucket open; then the second is the first to get the ring to itself. -/
def schedule : List Nat := [0, 1, 2, 0, 1, 2, 1, 2, 0]

end Overtaken

/-- The second call opens the newest bucket, and to the others their buckets are old by then. -/
theorem run_linear_overtaken :
    let s := (start Overtaken.counter Overtaken.events).run Overtaken.schedule
    s.Ended ∧ s.counter = Overtaken.counter.run [5000000, 4000000, 3000000] ∧
      s.counter.rollingSum 5000000 = 1 ∧ s.counter.total = 3 := by
  intro s
  have hended : s.Ended := by decide +kernel
  have hhistory : s.history Overtaken.events = [5000000, 4000000, 3000000] := by decide +kernel
  have hlinear := (run_linear Overtaken.counter Overtaken.events Overtaken.schedule).2 hended
  refine ⟨hended, hhistory ▸ hlinear.2.1, ?_, hlinear.2.2.1⟩
  decide +kernel

end Crowd
end CallGuard.Rolling
