import CallGuard.Proofs.Rolling.History

/-!
# Which events the slots hold

A slot is a number and does not say which events it has counted. A `Roster` makes the moves of a ring and keeps in each
slot, in the place of their number, the events themselves. So `Roster.seen`, the events that a query comes upon, says
which events the sum of a ring is made of.

* **Numbers** (`Roster.Counts`): the slots of the ring are the lengths of the slots of the roster, in every run
  (`Counts.run`), and a sum is the number of the events that are seen (`Counts.length_seen`).
* **Contents** (`Roster.Holds`): the slot of a bucket less than a ring behind the open one holds the events of that
  bucket that arrived in time, in their order, and no other event, in every run (`Holds.run`).
* **Queries** (`Holds.mem_seen`): a query sees the events that arrived in time and belong to the queried buckets.
-/

namespace CallGuard.Rolling

variable {ε : Type} {bucket : ε → Nat} {es : List ε} {e : ε}

/-! ## Events in time -/

/-- The events that are not older than the newest bucket before them, which is `head` at first. -/
def punctual (bucket : ε → Nat) (head : Nat) : List ε → List ε
  | [] => []
  | e :: es => if head ≤ bucket e then e :: punctual bucket (bucket e) es else punctual bucket head es

theorem punctual_sublist (bucket : ε → Nat) (head : Nat) (es : List ε) : (punctual bucket head es).Sublist es := by
  induction es generalizing head with
  | nil => exact List.Sublist.slnil
  | cons e es ih =>
    rw [punctual]
    split
    · exact (ih _).cons_cons e
    · exact (ih _).cons e

/-- The arrivals at a ring are the buckets of the events in time. -/
theorem map_punctual (bucket : ε → Nat) (head : Nat) (es : List ε) :
    (punctual bucket head es).map bucket = Ring.arrivals head (es.map bucket) := by
  induction es generalizing head with
  | nil => rfl
  | cons e es ih =>
    rw [punctual, List.map_cons, Ring.arrivals]
    split
    · rw [List.map_cons, ih]
    · exact ih _

/-- An event is in time if the events before it have not reached a newer bucket. -/
theorem mem_punctual {head : Nat} : e ∈ punctual bucket head es ↔
    ∃ past later, es = past ++ e :: later ∧ (past.map bucket).foldl max head ≤ bucket e := by
  induction es generalizing head with
  | nil => simp [punctual]
  | cons d es ih =>
    have hnext : e ∈ punctual bucket (max head (bucket d)) es ↔
        ∃ past later, d :: es = d :: past ++ e :: later ∧ ((d :: past).map bucket).foldl max head ≤ bucket e := by
      simp [ih]
    have hsplit : (∃ past later, d :: es = past ++ e :: later ∧ (past.map bucket).foldl max head ≤ bucket e) ↔
        (d = e ∧ head ≤ bucket e) ∨ e ∈ punctual bucket (max head (bucket d)) es := by
      rw [hnext]
      constructor
      · rintro ⟨past, later, heq, hle⟩
        cases past with
        | nil => exact .inl ⟨(List.cons.inj heq).1, hle⟩
        | cons p past =>
          obtain rfl := (List.cons.inj heq).1
          exact .inr ⟨past, later, heq, hle⟩
      · rintro (⟨rfl, hle⟩ | ⟨past, later, heq, hle⟩)
        · exact ⟨[], es, rfl, hle⟩
        · exact ⟨d :: past, later, heq, hle⟩
    rw [hsplit, punctual]
    by_cases hin : head ≤ bucket d
    · rw [if_pos hin, List.mem_cons, Nat.max_eq_right hin]
      refine or_congr ⟨?_, fun h => h.1.symm⟩ Iff.rfl
      rintro rfl
      exact ⟨rfl, hin⟩
    · rw [if_neg hin, Nat.max_eq_left (Nat.le_of_not_le hin)]
      refine (or_iff_right ?_).symm
      rintro ⟨rfl, hle⟩
      exact hin hle

/-- Every event of the newest bucket is in time. -/
theorem filter_punctual {head n : Nat} (hhead : head ≤ n) (h : ∀ e ∈ es, bucket e ≤ n) :
    (punctual bucket head es).filter (bucket · = n) = es.filter (bucket · = n) := by
  induction es generalizing head with
  | nil => rfl
  | cons e es ih =>
    obtain ⟨he, hes⟩ := List.forall_mem_cons.mp h
    rw [punctual]
    split
    · rw [List.filter_cons, List.filter_cons, ih he hes]
    · have hold : ¬ bucket e = n := by omega
      rw [List.filter_cons_of_neg (by simpa using hold), ih hhead hes]

/-! ## Rosters -/

/-- A ring of `size` slots that hold events. -/
structure Roster (ε : Type) where
  size : Nat
  slots : Nat → List ε := fun _ => []
  head : Nat := 0

namespace Roster

/-- What the slot of bucket `b` holds. -/
def slot (s : Roster ε) (b : Nat) : List ε := s.slots (b % s.size)

/-- Open bucket `id`, unless the open bucket is as new: the slots of all buckets up to it are emptied. -/
def reach (s : Roster ε) (id : Nat) : Roster ε :=
  if s.head < id then
    { size := s.size
      slots := fun i => if ∃ c ∈ List.range' (s.head + 1) (id - s.head), c % s.size = i then [] else s.slots i
      head := id }
  else s

/-- Put an event into bucket `id` if that is the open one. -/
def enter (s : Roster ε) (id : Nat) (e : ε) : Roster ε :=
  if id = s.head then { s with slots := Function.update s.slots (id % s.size) (s.slot id ++ [e]) } else s

/-- Put an event into its bucket, unless that is older than the open one. -/
def add (bucket : ε → Nat) (s : Roster ε) (e : ε) : Roster ε := (s.reach (bucket e)).enter (bucket e) e

/-- Put events into their buckets, one after the other. -/
def run (bucket : ε → Nat) (s : Roster ε) (es : List ε) : Roster ε := es.foldl (add bucket) s

/-- The newest bucket that is stored and not later than `id`. -/
def newest (s : Roster ε) (id : Nat) : Nat := min s.head id

/-- The oldest bucket that is stored and inside the window that ends at `id`. -/
def oldest (s : Roster ε) (id : Nat) : Nat := max s.head id - (s.size - 1)

/-- The events in the stored buckets of the window that ends at bucket `id`. -/
def seen (s : Roster ε) (id : Nat) : List ε :=
  (List.range' (s.oldest id) (s.newest id + 1 - s.oldest id)).flatMap s.slot

variable {s : Roster ε} {r : Ring} {past : List ε} {id b : Nat}

variable {c : Nat}

theorem slot_reach_of_mem (h₁ : s.head < c) (h₂ : c ≤ id) (hc : c % s.size = b % s.size) :
    (s.reach id).slot b = [] := by
  rw [reach, if_pos (Nat.lt_of_lt_of_le h₁ h₂)]
  exact if_pos ⟨c, List.mem_range'_1.mpr ⟨h₁, by omega⟩, hc⟩

theorem slot_reach_of_ne (h : ∀ c, s.head < c → c ≤ id → c % s.size ≠ b % s.size) :
    (s.reach id).slot b = s.slot b := by
  unfold reach
  split
  · refine if_neg ?_
    rintro ⟨c, hc, hmod⟩
    rw [List.mem_range'_1] at hc
    exact h c (by omega) (by omega) hmod
  · rfl

theorem slot_enter : (s.enter id e).slot b =
    if id = s.head ∧ id % s.size = b % s.size then s.slot b ++ [e] else s.slot b := by
  unfold enter
  by_cases hid : id = s.head
  · rw [if_pos hid]
    by_cases hmod : id % s.size = b % s.size
    · rw [if_pos ⟨hid, hmod⟩, slot, slot, slot, hmod]
      exact Function.update_self ..
    · rw [if_neg (fun h => hmod h.2)]
      exact Function.update_of_ne (Ne.symm hmod) ..
  · rw [if_neg hid, if_neg (fun h => hid h.1)]

@[simp] theorem size_reach (s : Roster ε) (id : Nat) : (s.reach id).size = s.size := by
  unfold reach
  split <;> rfl

@[simp] theorem head_reach (s : Roster ε) (id : Nat) : (s.reach id).head = max s.head id := by
  unfold reach
  split
  · exact (Nat.max_eq_right (Nat.le_of_lt ‹_›)).symm
  · exact (Nat.max_eq_left (Nat.le_of_not_lt ‹_›)).symm

@[simp] theorem size_enter (s : Roster ε) (id : Nat) (e : ε) : (s.enter id e).size = s.size := by
  unfold enter
  split <;> rfl

@[simp] theorem head_enter (s : Roster ε) (id : Nat) (e : ε) : (s.enter id e).head = s.head := by
  unfold enter
  split <;> rfl

theorem reach_of_le (h : id ≤ s.head) : s.reach id = s := if_neg (Nat.not_lt.mpr h)

theorem add_of_lt (h : bucket e < s.head) : s.add bucket e = s := by
  rw [add, reach_of_le (Nat.le_of_lt h), enter, if_neg (Nat.ne_of_lt h)]

/-! ## Numbers -/

/-- The ring has the numbers of the events that the roster has. -/
structure Counts (s : Roster ε) (r : Ring) : Prop where
  size_eq : s.size = r.size
  head_eq : s.head = r.head
  length_slot : ∀ b, (s.slot b).length = r.count b

theorem counts_empty (n : Nat) (h : 0 < n) : Counts { size := n : Roster ε } (Ring.empty n h) where
  size_eq := by simp [Ring.empty, Ring.size]
  head_eq := rfl
  length_slot b := (Ring.count_empty n h b).symm

namespace Counts

variable (h : s.Counts r)
include h

theorem reach (id : Nat) : (s.reach id).Counts (r.reach id) where
  size_eq := by rw [size_reach, Ring.size_reach, h.size_eq]
  head_eq := by rw [head_reach, Ring.head_reach, h.head_eq]
  length_slot b := by
    by_cases hpassed : ∃ c, r.head < c ∧ c ≤ id ∧ c % r.size = b % r.size
    · obtain ⟨c, h₁, h₂, hmod⟩ := hpassed
      rw [slot_reach_of_mem (h.head_eq ▸ h₁) h₂ (h.size_eq ▸ hmod), Ring.reach, if_pos (Nat.lt_of_lt_of_le h₁ h₂),
        Ring.count_advance_of_mem h₁ h₂ hmod]
      rfl
    · have hkept : ∀ c, r.head < c → c ≤ id → c % r.size ≠ b % r.size :=
        fun c h₁ h₂ hmod => hpassed ⟨c, h₁, h₂, hmod⟩
      rw [slot_reach_of_ne (h.head_eq ▸ h.size_eq ▸ hkept), h.length_slot, Ring.count_reach_of_ne hkept]

theorem enter (id : Nat) (e : ε) : (s.enter id e).Counts (r.touch id) where
  size_eq := by rw [size_enter, Ring.size_touch, h.size_eq]
  head_eq := by rw [head_enter, Ring.head_touch, h.head_eq]
  length_slot b := by
    rw [slot_enter, Ring.count_touch, h.head_eq, h.size_eq, ← h.length_slot]
    split
    · rw [List.length_append, List.length_singleton]
    · rfl

/-- **Every run** of a ring has the numbers of the events of the same run of a roster. -/
theorem run (es : List ε) : (s.run bucket es).Counts (r.run (es.map bucket)) := by
  induction es generalizing s r with
  | nil => exact h
  | cons e es ih => exact ih ((h.reach (bucket e)).enter (bucket e) e)

theorem length_flatMap_slot (lo n : Nat) : ((List.range' lo n).flatMap s.slot).length = r.sumFrom lo n := by
  induction n with
  | zero => rfl
  | succ n ih =>
    rw [List.range'_1_concat, List.flatMap_append, List.length_append, ih, List.flatMap_singleton, h.length_slot,
      Ring.sumFrom]

/-- **The sum of a query** is the number of the events that it sees. -/
theorem length_seen (id : Nat) : (s.seen id).length = r.sum id := by
  rw [seen, h.length_flatMap_slot, Ring.sum, oldest, newest, h.head_eq, h.size_eq]
  rfl

end Counts

/-! ## Contents -/

/-- The live slots hold the events `past`, each in the slot of its bucket. -/
structure Holds (bucket : ε → Nat) (s : Roster ε) (past : List ε) : Prop where
  le_head : ∀ e ∈ past, bucket e ≤ s.head
  slot_eq : ∀ b, b ≤ s.head → s.head < b + s.size → s.slot b = past.filter (bucket · = b)

theorem holds_empty (bucket : ε → Nat) (n : Nat) : Holds bucket { size := n } [] :=
  ⟨fun _ he => absurd he List.not_mem_nil, fun _ _ _ => rfl⟩

namespace Holds

variable (h : s.Holds bucket past)
include h

theorem reach (id : Nat) : (s.reach id).Holds bucket past := by
  constructor
  · intro e he
    rw [head_reach]
    exact Nat.le_trans (h.le_head e he) (Nat.le_max_left ..)
  · intro b hb hlive
    rw [head_reach] at hb hlive
    rw [size_reach] at hlive
    by_cases hnew : s.head < b
    · -- a new bucket is among those that are passed, and nothing has come for it
      rw [slot_reach_of_mem hnew (by omega) rfl, eq_comm, List.filter_eq_nil_iff]
      intro e he
      have := h.le_head e he
      rw [decide_eq_true_eq]
      omega
    · rw [slot_reach_of_ne fun c h₁ h₂ => Ring.mod_ne_of_passed (by omega) h₁ h₂ (by omega)]
      exact h.slot_eq b (by omega) (by omega)

theorem enter (he : bucket e = s.head) : (s.enter (bucket e) e).Holds bucket (past ++ [e]) := by
  constructor
  · intro d hd
    rw [head_enter]
    rcases List.mem_append.mp hd with hd | hd
    · exact h.le_head d hd
    · rw [List.mem_singleton.mp hd, he]
  · intro b hb hlive
    rw [head_enter] at hb hlive
    rw [size_enter] at hlive
    rw [slot_enter, List.filter_append, h.slot_eq b hb hlive]
    by_cases hopen : bucket e = b
    · rw [if_pos ⟨he, by rw [hopen]⟩, List.filter_cons_of_pos (by simpa using hopen), List.filter_nil]
    · rw [if_neg, List.filter_cons_of_neg (by simpa using hopen), List.filter_nil, List.append_nil]
      rintro ⟨-, hmod⟩
      exact hopen (Ring.mod_inj_of_near (show b ≤ bucket e by omega) (by omega) hmod.symm).symm

/-- **Every run** leaves in the live slots what they held before and the events of the run that arrived in time. -/
theorem run (es : List ε) : (s.run bucket es).Holds bucket (past ++ punctual bucket s.head es) := by
  induction es generalizing s past with
  | nil =>
    rw [punctual, List.append_nil]
    exact h
  | cons e es ih =>
    change ((s.add bucket e).run bucket es).Holds bucket _
    rw [punctual]
    by_cases hin : s.head ≤ bucket e
    · have hhead : (s.reach (bucket e)).head = bucket e := by rw [head_reach, Nat.max_eq_right hin]
      have hnext := ih ((h.reach (bucket e)).enter hhead.symm)
      rw [head_enter, hhead, List.append_assoc] at hnext
      rw [if_pos hin]
      exact hnext
    · rw [add_of_lt (Nat.lt_of_not_le hin), if_neg hin]
      exact ih h

variable (hsize : 0 < s.size)
include hsize

/-- The queried buckets are live. -/
theorem slot_eq_of_mem (hb : b ∈ List.range' (s.oldest id) (s.newest id + 1 - s.oldest id)) :
    s.slot b = past.filter (bucket · = b) := by
  rw [List.mem_range'_1] at hb
  exact h.slot_eq b (by unfold newest at hb; omega) (by unfold oldest newest at hb; omega)

/-- **What a query sees**: of the events that arrived in time, those of the queried buckets. -/
theorem mem_seen : e ∈ s.seen id ↔ e ∈ past ∧ s.oldest id ≤ bucket e ∧ bucket e ≤ s.newest id := by
  rw [seen, List.mem_flatMap]
  constructor
  · rintro ⟨b, hb, he⟩
    rw [h.slot_eq_of_mem hsize hb, List.mem_filter, decide_eq_true_eq] at he
    rw [List.mem_range'_1] at hb
    obtain ⟨hpast, rfl⟩ := he
    exact ⟨hpast, by omega, by omega⟩
  · rintro ⟨hpast, hold, hnew⟩
    refine ⟨bucket e, List.mem_range'_1.mpr ⟨hold, by omega⟩, ?_⟩
    rw [h.slot_eq _ (h.le_head e hpast) (by unfold oldest at hold; omega), List.mem_filter, decide_eq_true_eq]
    exact ⟨hpast, rfl⟩

/-- A query sees no event twice. -/
theorem nodup_seen (hpast : past.Nodup) : (s.seen id).Nodup := by
  rw [seen, List.nodup_flatMap]
  refine ⟨fun b hb => h.slot_eq_of_mem hsize hb ▸ hpast.filter _, ?_⟩
  refine List.Pairwise.imp_of_mem (fun {b c} hb hc hne => ?_) List.nodup_range'
  rw [Function.onFun, h.slot_eq_of_mem hsize hb, h.slot_eq_of_mem hsize hc]
  intro e heb hec
  rw [List.mem_filter, decide_eq_true_eq] at heb hec
  exact hne (heb.2.symm.trans hec.2)

end Holds

end Roster

/-! ## Rosters of counters -/

namespace Counter

/-- The roster of a history of events, each at its instant. -/
def roster (c : Counter) (instant : ε → Int) (es : List ε) : Roster ε :=
  Roster.run (fun e => c.bucketId (instant e)) { size := c.buckets } es

variable {w : Window} (valid : w.Valid) (origin : Int) (instant : ε → Int) (es : List ε)

/-- A new counter has the numbers of the events that its roster has. -/
theorem counts_roster : ((start w valid origin).roster instant es).Counts
    ((start w valid origin).run (es.map instant)).ring := by
  rw [(run_eq _ _).2.1, roster, buckets_start, List.map_map]
  exact (Roster.counts_empty _ valid.buckets_pos).run es

theorem holds_roster : ((start w valid origin).roster instant es).Holds
    (fun e => (start w valid origin).bucketId (instant e))
    (punctual (fun e => (start w valid origin).bucketId (instant e)) 0 es) :=
  (Roster.holds_empty _ _).run es

theorem size_roster : ((start w valid origin).roster instant es).size = w.buckets.toNat := by
  rw [(counts_roster valid origin instant es).size_eq, size_run_start]

theorem size_roster_pos : 0 < ((start w valid origin).roster instant es).size := by
  rw [size_roster]
  exact valid.buckets_pos

end Counter
end CallGuard.Rolling
