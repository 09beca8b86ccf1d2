import CallGuard.Proofs.Rolling.Contents

/-!
# The window in real time

Every bucket starts a whole number of widths after the origin (`Counter.opening`). A query counts whole buckets, so what
it counts of a moment depends on where the bucket of that moment starts.

* **Events** (`Counter.seen`): a query sees certain events of a history, which are given by their places in it. Their
  number is what the query counts (`Counter.length_seen`), and an event that arrived in time is among them exactly if its
  bucket is less than a ring behind that of the query (`Counter.mem_seen_iff`).
* **Instants** (`Counter.lt_opening_iff`): a bucket is less than `n` behind that of the query exactly if it starts less
  than `n` widths before the query.

**Main statement** (`Counter.mem_seen_iff_opening`): the window of a query at `q` is the half-open stretch of its length
that ends with `q`, and an event is in it if its bucket starts there.
-/

namespace CallGuard.Rolling

/-! ## Places in a history -/

/-- An event is in time if the events at the places before it have not reached a newer bucket. -/
theorem mem_punctual_finRange {τ : Type} (bucket : τ → Nat) (ts : List τ) (i : Fin ts.length) :
    i ∈ punctual (fun j => bucket (ts.get j)) 0 (List.finRange ts.length) ↔
      peak bucket (ts.take i) ≤ bucket (ts.get i) := by
  have hbefore : ((List.finRange ts.length).take i).map (fun j => bucket (ts.get j)) = (ts.take i).map bucket := by
    have hplaces : ∀ n, ((List.finRange ts.length).take n).map ts.get = ts.take n := fun n => by
      rw [List.map_take, List.map_get_finRange]
    rw [← hplaces, List.map_map]
    rfl
  rw [mem_punctual, peak, ← hbefore]
  constructor
  · rintro ⟨past, later, heq, hle⟩
    have hlength : past.length = i := by
      have hget : (List.finRange ts.length)[past.length]? = some i := by simp [heq]
      obtain ⟨_, hplace⟩ := List.getElem?_eq_some_iff.mp hget
      rw [List.getElem_finRange] at hplace
      exact congrArg Fin.val hplace
    have hpast : past = (List.finRange ts.length).take i := by rw [← hlength, heq, List.take_left]
    rwa [← hpast]
  · intro hle
    have hplace : (List.finRange ts.length)[(i : Nat)]? = some i := by simp
    refine ⟨_, (List.finRange ts.length).drop (i + 1), ?_, hle⟩
    conv_lhs => rw [← List.take_append_drop i (List.finRange ts.length), List.drop_eq_getElem?_toList_append, hplace]
    rfl

namespace Counter

/-! ## What a query sees -/

/-- The events of a history that a query at `q` sees, by their places. -/
def seen (c : Counter) (ts : List Int) (q : Int) : List (Fin ts.length) :=
  (c.roster ts.get (List.finRange ts.length)).seen (c.bucketId q)

section Start

variable {w : Window} {valid : w.Valid} {origin q : Int} {ts : List Int} {i : Fin ts.length}

/-- **A query counts the events that it sees.** -/
theorem length_seen (ts : List Int) (q : Int) :
    ((start w valid origin).seen ts q).length = ((start w valid origin).run ts).rollingSum q := by
  rw [seen, (counts_roster valid origin _ _).length_seen, List.map_get_finRange, rollingSum, (run_eq _ ts).1]

/-- A query sees no event twice. -/
theorem nodup_seen (ts : List Int) (q : Int) : ((start w valid origin).seen ts q).Nodup := by
  exact (holds_roster valid origin _ _).nodup_seen (size_roster_pos ..)
    ((List.nodup_finRange _).sublist (punctual_sublist ..))

/-- A query sees no event that was older than the open bucket when it arrived. -/
theorem head_le_of_mem_seen (hi : i ∈ (start w valid origin).seen ts q) :
    ((start w valid origin).run (ts.take i)).ring.head ≤ (start w valid origin).bucketId (ts.get i) := by
  rw [head_run_start, ← mem_punctual_finRange]
  exact (((holds_roster valid origin _ _).mem_seen (size_roster_pos ..)).mp hi).1

/-- **Which events a query sees** that is not behind the open bucket: of those that arrived in time, the events of the
last buckets up to its own. -/
theorem mem_seen_iff (hq : ((start w valid origin).run ts).ring.head ≤ (start w valid origin).bucketId q)
    (hin : ((start w valid origin).run (ts.take i)).ring.head ≤ (start w valid origin).bucketId (ts.get i)) :
    i ∈ (start w valid origin).seen ts q ↔
      (start w valid origin).bucketId q < (start w valid origin).bucketId (ts.get i) + w.buckets.toNat := by
  have hpos := valid.buckets_pos
  have hpast := (mem_punctual_finRange (start w valid origin).bucketId ts i).mpr (head_run_start valid origin (ts.take i) ▸ hin)
  have hle := (holds_roster valid origin ts.get (List.finRange ts.length)).le_head i hpast
  have hhead := (counts_roster valid origin ts.get (List.finRange ts.length)).head_eq
  rw [List.map_get_finRange] at hhead
  rw [← hhead] at hq
  rw [seen, (holds_roster valid origin _ _).mem_seen (size_roster_pos ..), Roster.oldest, Roster.newest, size_roster]
  constructor
  · rintro ⟨-, hold, -⟩
    omega
  · intro hnear
    exact ⟨hpast, by omega, by omega⟩

end Start

/-! ## Where buckets start -/

/-- The instant at which the bucket of `t` starts. -/
def opening (c : Counter) (t : Int) : Int := c.origin + (t - c.origin) / c.window.bucketNanos * c.window.bucketNanos

variable {c : Counter} {s q t : Int}

theorem origin_add_elapsed (h : c.origin ≤ t) : c.origin + c.elapsed t = t := by
  rw [elapsed, Int.toNat_of_nonneg (Int.sub_nonneg_of_le h)]
  omega

theorem opening_eq (h : c.origin ≤ t) :
    c.opening t = c.origin + ((c.elapsed t / c.window.bucketNanos * c.window.bucketNanos : Nat) : Int) := by
  have hsub : t - c.origin = c.elapsed t := by
    have := origin_add_elapsed h
    omega
  rw [opening, hsub]
  rfl

/-- A bucket starts no later than its instants. -/
theorem opening_le (h : c.origin ≤ t) : c.opening t ≤ t := by
  have hle := Nat.div_mul_le_self (c.elapsed t) c.window.bucketNanos
  have helapsed := origin_add_elapsed h
  rw [opening_eq h]
  omega

/-- **Buckets as stretches of time**: a bucket is less than `n` behind that of `q` exactly if it starts less than `n`
widths before `q`. -/
theorem lt_opening_iff (hs : c.origin ≤ s) (hq : c.origin ≤ q) (n : Nat) :
    q - n * c.window.bucketNanos < c.opening s ↔
      c.elapsed q / c.window.bucketNanos < c.elapsed s / c.window.bucketNanos + n := by
  have helapsed := origin_add_elapsed hq
  rw [Nat.div_lt_iff_lt_mul c.valid.bucketNanos_pos, Nat.add_mul, opening_eq hs]
  omega

/-- The bucket of an instant that is no more than `n` widths before `q` starts less than `n + 1` widths before `q`. -/
theorem lt_opening_of_near (hs : c.origin ≤ s) {n : Nat} (h : q - s ≤ n * c.window.bucketNanos) :
    q - (n + 1 : Nat) * c.window.bucketNanos < c.opening s := by
  have hlt := Nat.lt_div_mul_add (a := c.elapsed s) c.valid.bucketNanos_pos
  have helapsed := origin_add_elapsed hs
  rw [opening_eq hs, Int.natCast_add, Int.add_mul]
  omega

/-- Ids of 64 bits are the places of buckets as long as these have no more bits. -/
theorem bucketId_of_lt (h : c.elapsed t / c.window.bucketNanos < UInt64.size) :
    c.bucketId t = c.elapsed t / c.window.bucketNanos := Nat.mod_eq_of_lt h

theorem elapsed_le (h : s ≤ t) : c.elapsed s ≤ c.elapsed t := by
  unfold elapsed
  omega

/-! ## The window -/

/-- **The window in real time.** A counter of an accepted window can be made at any origin. Let it count any events, and
let a query at `q` belong to a bucket of 64 bits that is not behind the open one. Then the query counts certain events of
the history, each once, and none that was older than the open bucket when it arrived. Any other event from the origin on
and not later than `q` is one of them exactly if its bucket starts in the half-open stretch of the length of the window
that ends with `q`: certainly as long as the event is no more than all buckets but one before `q`, and no longer once it
is the whole window before `q`. -/
theorem mem_seen_iff_opening {w : Window} (accepted : w.problems Window.commonScope = []) (origin : Int) :
    ∃ c, create w origin = .ok c ∧ ∀ (ts : List Int) (q : Int),
      (c.run ts).ring.head ≤ c.bucketId q → c.elapsed q / w.bucketNanos < UInt64.size →
      (c.seen ts q).Nodup ∧ (c.seen ts q).length = (c.run ts).rollingSum q ∧
      (∀ i ∈ c.seen ts q, (c.run (ts.take i)).ring.head ≤ c.bucketId (ts.get i)) ∧
      ∀ i : Fin ts.length, (c.run (ts.take i)).ring.head ≤ c.bucketId (ts.get i) →
        origin ≤ ts.get i → ts.get i ≤ q →
        (i ∈ c.seen ts q ↔ q - w.buckets.toNat * w.bucketNanos < c.opening (ts.get i) ∧ c.opening (ts.get i) ≤ q) ∧
        (q - ts.get i ≤ (w.buckets.toNat - 1) * w.bucketNanos → i ∈ c.seen ts q) ∧
        (w.buckets.toNat * w.bucketNanos ≤ q - ts.get i → i ∉ c.seen ts q) := by
  have valid := Window.problems_eq_nil_iff.mp accepted
  refine ⟨start w valid origin, create_of_valid valid origin, ?_⟩
  intro ts q hq hfits
  refine ⟨nodup_seen ts q, length_seen ts q, fun i => head_le_of_mem_seen, ?_⟩
  intro i hin horigin hle
  have hsfits := Nat.lt_of_le_of_lt (Nat.div_le_div_right (c := w.bucketNanos) (elapsed_le hle)) hfits
  have hopening := opening_le (c := start w valid origin) horigin
  have hseen : i ∈ (start w valid origin).seen ts q ↔
      q - w.buckets.toNat * w.bucketNanos < (start w valid origin).opening (ts.get i) := by
    rw [mem_seen_iff hq hin, bucketId_of_lt hfits, bucketId_of_lt hsfits]
    exact (lt_opening_iff horigin (Int.le_trans horigin hle) _).symm
  refine ⟨hseen.trans (iff_self_and.mpr fun _ => Int.le_trans hopening hle), ?_, ?_⟩
  · intro hnear
    obtain ⟨n, hn⟩ := Nat.exists_eq_add_of_lt valid.buckets_pos
    rw [hseen, hn]
    refine lt_opening_of_near (c := start w valid origin) horigin ?_
    have hcast : (w.buckets.toNat : Int) - 1 = (0 + n : Nat) := by omega
    rwa [hcast] at hnear
  · intro hfar hmem
    have hlt := hseen.mp hmem
    omega

/-- Two buckets of a millisecond, and a query when the third one begins. Of the events of the first bucket even the last
one is gone, though it is younger than the window is long; the first event of the second bucket is counted. -/
theorem mem_seen_iff_opening_edge : (⟨1, 2⟩ : Window).problems Window.commonScope = [] ∧
    ∃ c, create ⟨1, 2⟩ 0 = .ok c ∧ (0 : Fin 3) ∉ c.seen [0, 999999, 1000000] 2000000 ∧
      (1 : Fin 3) ∉ c.seen [0, 999999, 1000000] 2000000 ∧ (2 : Fin 3) ∈ c.seen [0, 999999, 1000000] 2000000 := by
  obtain ⟨c, hc, hwindow⟩ := mem_seen_iff_opening (w := ⟨1, 2⟩) (by decide) 0
  obtain rfl := Except.ok.inj (hc.symm.trans (create_of_valid (by decide) 0))
  obtain ⟨-, -, -, hevents⟩ := hwindow [0, 999999, 1000000] 2000000 (by decide +kernel) (by decide +kernel)
  refine ⟨by decide, _, hc, ?_, ?_, ?_⟩
  · exact (hevents 0 (by decide +kernel) (by decide) (by decide)).2.2 (by decide +kernel)
  · rw [(hevents 1 (by decide +kernel) (by decide) (by decide)).1]
    decide +kernel
  · exact (hevents 2 (by decide +kernel) (by decide) (by decide)).2.1 (by decide +kernel)

end Counter
end CallGuard.Rolling
