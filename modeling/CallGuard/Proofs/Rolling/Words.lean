import CallGuard.Proofs.Rolling.History
import CallGuard.Proofs.Rolling.Routes

/-!
# Counters in machine words

A `Counter` counts in natural numbers. A `WordCounter` is the same counter with bucket ids, slots and total of 64 bits,
and every step of a calculation that such words may not be able to make is a `Fault`: to divide by zero, to come below
zero or above 64 bits, to reach for a slot that is not there. Only the counts themselves wrap around. The loops of the
counter are lists of the slots that they visit (`WordCounter.passed`, `WordCounter.visited`), apart from what is done
there. Lengths of time are no words here: in nanoseconds they have 94 bits, and a bucket id is cut to 64.

* **Calculations** (`Word.add_ofNat` and the like): on numbers that fit, words calculate what natural numbers do.
* **Loops** (`Ring.length_passed_le`, `Ring.length_window_le`): neither a move nor a query visits more slots than there
  are, however far apart the buckets are.
* **Simulation** (`WordCounter.increment_of`, `Counter.run_words`): a counter whose open bucket has 64 bits makes in
  words the moves that it makes in natural numbers, in every run, however many events there are.
-/

namespace CallGuard.Rolling

/-! ## Calculating with words -/

/-- What can go wrong in a calculation with words. -/
inductive Fault
  | zeroDivisor
  /-- A difference is below zero. -/
  | underflow
  /-- A sum has more than 64 bits. -/
  | overflow
  /-- There is no such slot. -/
  | outOfBounds
deriving DecidableEq, Repr

theorem Fault.bind_ok {α β : Type} (a : α) (f : α → Except Fault β) : (Except.ok a >>= f) = f a := rfl

theorem Fault.mapM_ok {α β : Type} {f : α → Except Fault β} {g : α → β} {l : List α} (h : ∀ a ∈ l, f a = .ok (g a)) :
    l.mapM f = .ok (l.map g) := by
  induction l with
  | nil => rfl
  | cons a l ih =>
    obtain ⟨ha, hl⟩ := List.forall_mem_cons.mp h
    rw [List.mapM_cons, ha, bind_ok, ih hl]
    rfl

namespace Word

/-- A sum of 64 bits. -/
def add (a b : UInt64) : Except Fault UInt64 :=
  if a.toNat + b.toNat < UInt64.size then .ok (a + b) else .error .overflow

/-- A difference that is not below zero. -/
def sub (a b : UInt64) : Except Fault UInt64 := if b ≤ a then .ok (a - b) else .error .underflow

/-- A remainder. -/
def mod (a b : UInt64) : Except Fault UInt64 := if b = 0 then .error .zeroDivisor else .ok (a % b)

/-- A quotient, cut to 64 bits. -/
def quotient (m n : Nat) : Except Fault UInt64 := if n = 0 then .error .zeroDivisor else .ok (.ofNat (m / n))

/-- A difference that stops at zero. -/
def cutSub (a b : UInt64) : UInt64 := if b ≤ a then a - b else 0

/-- The lesser one. -/
def min (a b : UInt64) : UInt64 := if a ≤ b then a else b

/-- The greater one. -/
def max (a b : UInt64) : UInt64 := if a ≤ b then b else a

/-- The words from `first` to `last`, both included. -/
def upTo (first last : UInt64) : List UInt64 :=
  (List.range' first.toNat (last.toNat + 1 - first.toNat)).map .ofNat

/-- A sum of many words, added up one after the other. -/
def sum (l : List UInt64) : Except Fault UInt64 := l.foldlM add 0

variable {m n : Nat}

theorem ofNat_inj (hm : m < UInt64.size) (hn : n < UInt64.size) : UInt64.ofNat m = .ofNat n ↔ m = n := by
  rw [← UInt64.toNat_inj, UInt64.toNat_ofNat_of_lt' hm, UInt64.toNat_ofNat_of_lt' hn]

theorem add_ofNat (h : m + n < UInt64.size) : add (.ofNat m) (.ofNat n) = .ok (.ofNat (m + n)) := by
  have hm : m < UInt64.size := by omega
  have hn : n < UInt64.size := by omega
  rw [add, UInt64.toNat_ofNat_of_lt' hm, UInt64.toNat_ofNat_of_lt' hn, if_pos h, UInt64.ofNat_add]

theorem sub_ofNat (hm : m < UInt64.size) (h : n ≤ m) : sub (.ofNat m) (.ofNat n) = .ok (.ofNat (m - n)) := by
  rw [sub, if_pos ((UInt64.ofNat_le_iff_le (by omega) hm).mpr h), UInt64.ofNat_sub h]

theorem mod_ofNat (hm : m < UInt64.size) (hn : n < UInt64.size) (hpos : 0 < n) :
    mod (.ofNat m) (.ofNat n) = .ok (.ofNat (m % n)) := by
  have hne : UInt64.ofNat n ≠ 0 := by
    intro h
    have hzero := congrArg UInt64.toNat h
    rw [UInt64.toNat_ofNat_of_lt' hn] at hzero
    exact absurd hzero (Nat.ne_of_gt hpos)
  rw [mod, if_neg hne, UInt64.ofNat_mod hm hn]

theorem quotient_of_pos (h : 0 < n) : quotient m n = .ok (.ofNat (m / n)) := if_neg (Nat.ne_of_gt h)

theorem cutSub_ofNat (hm : m < UInt64.size) (hn : n < UInt64.size) : cutSub (.ofNat m) (.ofNat n) = .ofNat (m - n) := by
  have hle : UInt64.ofNat n ≤ .ofNat m ↔ n ≤ m := UInt64.ofNat_le_iff_le hn hm
  by_cases h : n ≤ m
  · rw [cutSub, if_pos (hle.mpr h), UInt64.ofNat_sub h]
  · rw [cutSub, if_neg (hle.not.mpr h), Nat.sub_eq_zero_of_le (Nat.le_of_not_le h)]
    rfl

theorem min_ofNat (hm : m < UInt64.size) (hn : n < UInt64.size) : min (.ofNat m) (.ofNat n) = .ofNat (Min.min m n) := by
  have hle : UInt64.ofNat m ≤ .ofNat n ↔ m ≤ n := UInt64.ofNat_le_iff_le hm hn
  by_cases h : m ≤ n
  · rw [min, if_pos (hle.mpr h), Nat.min_eq_left h]
  · rw [min, if_neg (hle.not.mpr h), Nat.min_eq_right (Nat.le_of_not_le h)]

theorem max_ofNat (hm : m < UInt64.size) (hn : n < UInt64.size) : max (.ofNat m) (.ofNat n) = .ofNat (Max.max m n) := by
  have hle : UInt64.ofNat m ≤ .ofNat n ↔ m ≤ n := UInt64.ofNat_le_iff_le hm hn
  by_cases h : m ≤ n
  · rw [max, if_pos (hle.mpr h), Nat.max_eq_right h]
  · rw [max, if_neg (hle.not.mpr h), Nat.max_eq_left (Nat.le_of_not_le h)]

theorem upTo_ofNat (hm : m < UInt64.size) (hn : n < UInt64.size) :
    upTo (.ofNat m) (.ofNat n) = (List.range' m (n + 1 - m)).map .ofNat := by
  rw [upTo, UInt64.toNat_ofNat_of_lt' hm, UInt64.toNat_ofNat_of_lt' hn]

/-- Words whose sum has 64 bits are added up without overflow. -/
theorem foldlM_add_ofNat {l : List Nat} (h : m + l.sum < UInt64.size) :
    (l.map UInt64.ofNat).foldlM add (.ofNat m) = .ok (.ofNat (m + l.sum)) := by
  induction l generalizing m with
  | nil => rfl
  | cons n l ih =>
    rw [List.sum_cons, ← Nat.add_assoc] at h ⊢
    rw [List.map_cons, List.foldlM_cons, add_ofNat (by omega), Fault.bind_ok, ih h]

theorem sum_ofNat {l : List Nat} (h : l.sum < UInt64.size) : sum (l.map .ofNat) = .ok (.ofNat l.sum) := by
  have hzero := foldlM_add_ofNat (m := 0) (by rwa [Nat.zero_add])
  rwa [Nat.zero_add] at hzero

end Word

/-! ## The slots that a ring visits -/

namespace Ring

/-- Clear the given slots, one after the other. -/
def clearEach (slots : Array Nat) (is : List Nat) : Array Nat := is.foldl (fun s i => s.setIfInBounds i 0) slots

/-- The slots that a move to bucket `id` clears, in the order of clearing. -/
def passed (r : Ring) (id : Nat) : List Nat :=
  if r.size ≤ id - r.head then List.range r.size else (List.range' (r.head + 1) (id - r.head)).map r.index

/-- The slots that a query in bucket `id` adds up, in their order. -/
def visited (r : Ring) (id : Nat) : List Nat :=
  (List.range' (r.oldest id) (r.newest id + 1 - r.oldest id)).map r.index

section Visits

variable {r : Ring} {id i : Nat} {slots : Array Nat} {is : List Nat}

theorem length_passed_le (r : Ring) (id : Nat) : (r.passed id).length ≤ r.size := by
  unfold passed
  split
  · rw [List.length_range]
  · rw [List.length_map, List.length_range']
    omega

theorem lt_of_mem_passed (h : i ∈ r.passed id) : i < r.size := by
  unfold passed at h
  split at h
  · exact List.mem_range.mp h
  · obtain ⟨b, -, rfl⟩ := List.mem_map.mp h
    exact r.index_lt b

/-- The slots that are cleared are those that have their turn. -/
theorem mem_passed (hi : i < r.size) : i ∈ r.passed id ↔ HasTurn r.size r.head id i := by
  unfold passed
  split
  · rename_i hfar
    exact iff_of_true (List.mem_range.mpr hi) (exists_mod_eq hi hfar)
  · rw [List.mem_map]
    constructor
    · rintro ⟨b, hb, hmod⟩
      rw [List.mem_range'_1] at hb
      exact ⟨b, by omega, by omega, hmod⟩
    · rintro ⟨b, hb₁, hb₂, hmod⟩
      exact ⟨b, List.mem_range'_1.mpr ⟨hb₁, by omega⟩, hmod⟩

theorem length_visited_le (r : Ring) (id : Nat) : (r.visited id).length ≤ r.size := by
  rw [visited, List.length_map, List.length_range']
  exact r.length_window_le id

theorem lt_of_mem_visited (h : i ∈ r.visited id) : i < r.size := by
  obtain ⟨b, -, rfl⟩ := List.mem_map.mp h
  exact r.index_lt b

theorem sum_map_count (r : Ring) (lo n : Nat) : ((List.range' lo n).map r.count).sum = r.sumFrom lo n := by
  induction n with
  | zero => rfl
  | succ n ih =>
    rw [List.range'_1_concat, List.map_append, List.sum_append, ih, List.map_singleton, List.sum_singleton, sumFrom]

/-- A sum adds up the slots that are visited. -/
theorem sum_map_visited (r : Ring) (id : Nat) : ((r.visited id).map fun i => r.slots[i]?.getD 0).sum = r.sum id := by
  rw [visited, List.map_map, sum, ← sum_map_count]
  exact congrArg List.sum (List.map_congr_left fun b _ => (r.count_eq_getD b).symm)

@[simp] theorem size_clearEach (slots : Array Nat) (is : List Nat) : (clearEach slots is).size = slots.size := by
  induction is generalizing slots with
  | nil => rfl
  | cons i is ih => exact (ih _).trans Array.size_setIfInBounds

theorem map_clearEach {α : Type} (f : Nat → α) (slots : Array Nat) (is : List Nat) :
    (clearEach slots is).map f = is.foldl (fun s i => s.setIfInBounds i (f 0)) (slots.map f) := by
  induction is generalizing slots with
  | nil => rfl
  | cons i is ih =>
    rw [List.foldl_cons, ← Array.map_setIfInBounds]
    exact ih _

theorem getD_clearEach : (clearEach slots is)[i]?.getD 0 = if i ∈ is then 0 else slots[i]?.getD 0 := by
  induction is generalizing slots with
  | nil => rfl
  | cons j is ih =>
    have hrest : (clearEach slots (j :: is))[i]?.getD 0 = if i ∈ is then 0 else (slots.setIfInBounds j 0)[i]?.getD 0 := ih
    rw [hrest, Array.getElem?_setIfInBounds]
    by_cases hlater : i ∈ is
    · rw [if_pos hlater, if_pos (List.mem_cons_of_mem j hlater)]
    · rw [if_neg hlater]
      by_cases hj : j = i
      · subst hj
        rw [if_pos rfl, if_pos List.mem_cons_self]
        split <;> rfl
      · rw [if_neg hj, if_neg fun h => (List.mem_cons.mp h).elim (Ne.symm hj) hlater]

/-- **A move** clears the slots that it passes. -/
theorem clearEach_passed (r : Ring) (id : Nat) : clearEach r.slots (r.passed id) = (r.advance id).slots := by
  have hturned : Turned r.slots r.head id (clearEach r.slots (r.passed id)) := by
    constructor
    · exact size_clearEach ..
    · intro i hi hturn
      rw [getD_clearEach, if_pos ((mem_passed hi).mpr hturn)]
    · intro i hi hturn
      rw [getD_clearEach, if_neg fun h => hturn ((mem_passed hi).mp h)]
  exact hturned.eq (r.turned_advance id)

end Visits

end Ring

/-! ## Counters in words -/

/-- A counter whose bucket ids, slots and total are words. -/
structure WordCounter where
  window : Window
  origin : Int
  slots : Array UInt64
  head : UInt64
  total : UInt64
deriving DecidableEq

namespace WordCounter

/-- A counter that has seen nothing. -/
def start (window : Window) (origin : Int) : WordCounter where
  window := window
  origin := origin
  slots := Array.replicate window.buckets.toNat 0
  head := 0
  total := 0

/-- The number of slots. -/
def size (m : WordCounter) : UInt64 := .ofNat m.slots.size

/-- The bucket of the instant `t`. -/
def bucketId (m : WordCounter) (t : Int) : Except Fault UInt64 :=
  Word.quotient (t - m.origin).toNat m.window.bucketNanos

/-- The slot of bucket `id`. -/
def slot (m : WordCounter) (id : UInt64) : Except Fault Nat := do
  let i ← Word.mod id m.size
  if i.toNat < m.slots.size then .ok i.toNat else .error .outOfBounds

/-- The slots that a move to bucket `id` clears, in the order of clearing. -/
def passed (m : WordCounter) (id : UInt64) : Except Fault (List Nat) := do
  let skipped ← Word.sub id m.head
  if m.size ≤ skipped then .ok (List.range m.slots.size)
  else
    let first ← Word.add m.head 1
    (Word.upTo first id).mapM m.slot

/-- Open bucket `id`, unless the open bucket is as new. -/
def reach (m : WordCounter) (id : UInt64) : Except Fault WordCounter :=
  if m.head < id then do
    let is ← m.passed id
    .ok { m with slots := is.foldl (fun s i => s.setIfInBounds i 0) m.slots, head := id }
  else .ok m

/-- Count one event into bucket `id` if that is the open one. -/
def touch (m : WordCounter) (id : UInt64) : Except Fault WordCounter :=
  if id = m.head then do
    let i ← m.slot id
    .ok { m with slots := m.slots.modify i (· + 1) }
  else .ok m

/-- Count one event at `t`. -/
def increment (m : WordCounter) (t : Int) : Except Fault WordCounter := do
  let m := { m with total := m.total + 1 }
  let id ← m.bucketId t
  let m ← m.reach id
  m.touch id

/-- Count events at the given instants, one after the other. -/
def run (m : WordCounter) (ts : List Int) : Except Fault WordCounter := ts.foldlM increment m

/-- The slots that a query at `t` adds up, in their order. -/
def visited (m : WordCounter) (t : Int) : Except Fault (List Nat) := do
  let id ← m.bucketId t
  let span ← Word.sub m.size 1
  let newest := Word.min m.head id
  let oldest := Word.cutSub (Word.max m.head id) span
  if newest < oldest then .ok [] else (Word.upTo oldest newest).mapM m.slot

/-- The events in the window that ends at `t`. -/
def rollingSum (m : WordCounter) (t : Int) : Except Fault UInt64 := do
  let is ← m.visited t
  Word.sum (is.map fun i => m.slots[i]?.getD 0)

/-- The counter in words whose ring is `r`; counts wrap around. -/
def of (window : Window) (origin : Int) (r : Ring) (total : Nat) : WordCounter where
  window := window
  origin := origin
  slots := r.slots.map .ofNat
  head := .ofNat r.head
  total := .ofNat total

section Of

variable {w : Window} {origin : Int} {r : Ring} {total id : Nat} {t : Int}

theorem bucketId_of (valid : w.Valid) : (of w origin r total).bucketId t =
    .ok (.ofNat ((t - origin).toNat / w.bucketNanos % UInt64.size)) := by
  have hquotient : (of w origin r total).bucketId t = .ok (.ofNat ((t - origin).toNat / w.bucketNanos)) :=
    Word.quotient_of_pos valid.bucketNanos_pos
  rw [hquotient]
  exact congrArg _ UInt64.ofNat_mod_size.symm

theorem size_of : (of w origin r total).slots.size = r.size := Array.size_map

variable (hsize : r.size < UInt64.size)
include hsize

theorem slot_of (hid : id < UInt64.size) : (of w origin r total).slot (.ofNat id) = .ok (r.index id) := by
  have hlt := r.index_lt id
  have hfits : id % r.size < UInt64.size := Nat.lt_of_le_of_lt (Nat.mod_le ..) hid
  rw [slot, size, size_of, Word.mod_ofNat hid hsize r.slots_pos, Fault.bind_ok, UInt64.toNat_ofNat_of_lt' hfits]
  exact if_pos hlt

theorem mapM_slot_of {ids : List Nat} (hids : ∀ id ∈ ids, id < UInt64.size) :
    (ids.map UInt64.ofNat).mapM (of w origin r total).slot = .ok (ids.map r.index) := by
  rw [List.mapM_map]
  exact Fault.mapM_ok fun id hid => slot_of hsize (hids id hid)

theorem passed_of (hnew : r.head < id) (hid : id < UInt64.size) :
    (of w origin r total).passed (.ofNat id) = .ok (r.passed id) := by
  have hhead : (of w origin r total).head = .ofNat r.head := rfl
  have hnext : Word.add (.ofNat r.head) 1 = .ok (.ofNat (r.head + 1)) := Word.add_ofNat (n := 1) (by omega)
  have hfar : UInt64.ofNat r.size ≤ .ofNat (id - r.head) ↔ r.size ≤ id - r.head :=
    UInt64.ofNat_le_iff_le hsize (by omega)
  rw [passed, hhead, Word.sub_ofNat hid (Nat.le_of_lt hnew), Fault.bind_ok, size, size_of, Ring.passed]
  by_cases h : r.size ≤ id - r.head
  · rw [if_pos (hfar.mpr h), if_pos h]
  · rw [if_neg (hfar.not.mpr h), if_neg h, hnext, Fault.bind_ok, Word.upTo_ofNat (by omega) hid, Nat.add_sub_add_right]
    refine mapM_slot_of hsize fun b hb => ?_
    rw [List.mem_range'_1] at hb
    omega

theorem visited_of (valid : w.Valid) (hhead : r.head < UInt64.size) : (of w origin r total).visited t =
    .ok (r.visited ((t - origin).toNat / w.bucketNanos % UInt64.size)) := by
  have hid : (t - origin).toNat / w.bucketNanos % UInt64.size < UInt64.size := Nat.mod_lt _ (by decide)
  have hpos := r.slots_pos
  rw [visited, bucketId_of valid, Fault.bind_ok]
  generalize (t - origin).toNat / w.bucketNanos % UInt64.size = id at hid ⊢
  have hword : (of w origin r total).head = .ofNat r.head := rfl
  have hspan : Word.sub (.ofNat r.size) 1 = .ok (.ofNat (r.size - 1)) := Word.sub_ofNat (n := 1) hsize hpos
  have hnewest : r.newest id < UInt64.size := by unfold Ring.newest; omega
  have holdest : r.oldest id < UInt64.size := by unfold Ring.oldest; omega
  rw [size, size_of, hspan, Fault.bind_ok, hword, Word.min_ofNat hhead hid, Word.max_ofNat hhead hid,
    Word.cutSub_ofNat (by omega) (by omega)]
  change (if UInt64.ofNat (r.newest id) < .ofNat (r.oldest id) then Except.ok []
    else (Word.upTo (.ofNat (r.oldest id)) (.ofNat (r.newest id))).mapM _) = _
  by_cases hempty : r.newest id < r.oldest id
  · rw [if_pos ((UInt64.ofNat_lt_iff_lt hnewest holdest).mpr hempty), Ring.visited, Nat.sub_eq_zero_of_le hempty]
    rfl
  · rw [if_neg (mt (UInt64.ofNat_lt_iff_lt hnewest holdest).mp hempty), Word.upTo_ofNat holdest hnewest]
    refine mapM_slot_of hsize fun b hb => ?_
    rw [List.mem_range'_1] at hb
    omega

theorem reach_of (hhead : r.head < UInt64.size) (hid : id < UInt64.size) :
    (of w origin r total).reach (.ofNat id) = .ok (of w origin (r.reach id) total) := by
  have hlt : (of w origin r total).head < .ofNat id ↔ r.head < id := UInt64.ofNat_lt_iff_lt hhead hid
  rw [reach, Ring.reach]
  by_cases hnew : r.head < id
  · rw [if_pos (hlt.mpr hnew), if_pos hnew, passed_of hsize hnew hid, Fault.bind_ok]
    have hslots : (r.passed id).foldl (fun s i => s.setIfInBounds i 0) (r.slots.map UInt64.ofNat) =
        (r.advance id).slots.map .ofNat := by
      rw [← r.clearEach_passed, Ring.map_clearEach]
      rfl
    exact congrArg (fun slots => Except.ok (WordCounter.mk w origin slots (.ofNat id) (.ofNat total))) hslots
  · rw [if_neg (hlt.not.mpr hnew), if_neg hnew]

theorem touch_of (hhead : r.head < UInt64.size) (hid : id < UInt64.size) :
    (of w origin r total).touch (.ofNat id) = .ok (of w origin (r.touch id) total) := by
  have heq : UInt64.ofNat id = (of w origin r total).head ↔ id = r.head := Word.ofNat_inj hid hhead
  rw [touch, Ring.touch]
  by_cases hopen : id = r.head
  · rw [if_pos (heq.mpr hopen), if_pos hopen, slot_of hsize hid, Fault.bind_ok]
    have hslots : (r.slots.map UInt64.ofNat).modify (r.index id) (· + 1) =
        (r.slots.modify (r.index id) (· + 1)).map .ofNat := by
      refine Array.ext (by simp) fun i _ _ => ?_
      rw [Array.getElem_modify, Array.getElem_map, Array.getElem_map, Array.getElem_modify]
      split
      · exact (UInt64.ofNat_add _ 1).symm
      · rfl
    exact congrArg (fun slots => Except.ok (WordCounter.mk w origin slots (.ofNat r.head) (.ofNat total))) hslots
  · rw [if_neg (heq.not.mpr hopen), if_neg hopen]

/-- **An event** makes the same move in words as in natural numbers. -/
theorem increment_of (valid : w.Valid) (hhead : r.head < UInt64.size) : (of w origin r total).increment t =
    .ok (of w origin (r.add ((t - origin).toNat / w.bucketNanos % UInt64.size)) (total + 1)) := by
  have hid : (t - origin).toNat / w.bucketNanos % UInt64.size < UInt64.size := Nat.mod_lt _ (by decide)
  have htotal : { of w origin r total with total := (of w origin r total).total + 1 } = of w origin r (total + 1) :=
    congrArg (WordCounter.mk w origin _ _) (UInt64.ofNat_add total 1).symm
  rw [increment, htotal]
  change ((of w origin r (total + 1)).bucketId t >>= fun id =>
    (of w origin r (total + 1)).reach id >>= fun m => m.touch id) = _
  rw [bucketId_of valid, Fault.bind_ok, reach_of hsize hhead hid, Fault.bind_ok]
  refine touch_of ?_ ?_ hid
  · rwa [Ring.size_reach]
  · rw [Ring.head_reach]
    exact Nat.max_lt.mpr ⟨hhead, hid⟩

/-- **A sum** of 64 bits is the same in words as in natural numbers. -/
theorem rollingSum_of (valid : w.Valid) (hhead : r.head < UInt64.size)
    (hsum : r.sum ((t - origin).toNat / w.bucketNanos % UInt64.size) < UInt64.size) :
    (of w origin r total).rollingSum t = .ok (.ofNat (r.sum ((t - origin).toNat / w.bucketNanos % UInt64.size))) := by
  rw [rollingSum, visited_of hsize valid hhead, Fault.bind_ok]
  rw [← r.sum_map_visited] at hsum ⊢
  rw [← Word.sum_ofNat hsum, List.map_map]
  refine congrArg Word.sum (List.map_congr_left fun i _ => ?_)
  change (r.slots.map UInt64.ofNat)[i]?.getD 0 = .ofNat (r.slots[i]?.getD 0)
  rw [Array.getElem?_map]
  cases r.slots[i]? <;> rfl

end Of

end WordCounter

namespace Counter

/-- The counter in words. -/
def words (c : Counter) : WordCounter := .of c.window c.origin c.ring c.total

variable {c : Counter} {t : Int}

theorem size_lt (c : Counter) : c.ring.size < UInt64.size := by
  rw [c.size_eq]
  exact Nat.lt_trans c.window.buckets.toNat_lt (by decide)

theorem words_start {w : Window} (valid : w.Valid) (origin : Int) :
    (start w valid origin).words = WordCounter.start w origin := by
  have hslots : (Array.replicate w.buckets.toNat 0).map UInt64.ofNat = Array.replicate w.buckets.toNat 0 :=
    Array.map_replicate
  exact congrArg (WordCounter.mk w origin · 0 0) hslots

theorem bucketId_lt (c : Counter) (t : Int) : c.bucketId t < UInt64.size := Nat.mod_lt _ (by decide)

theorem head_increment_lt (h : c.ring.head < UInt64.size) (t : Int) : (c.increment t).ring.head < UInt64.size := by
  rw [ring_increment, Ring.head_add]
  exact Nat.max_lt.mpr ⟨h, c.bucketId_lt t⟩

theorem increment_words (h : c.ring.head < UInt64.size) (t : Int) : c.words.increment t = .ok (c.increment t).words := by
  rw [words, words, window_increment, origin_increment, ring_increment, total_increment, bucketId, elapsed]
  exact WordCounter.increment_of c.size_lt c.valid h

/-- **Every run** makes the same moves in words as in natural numbers. -/
theorem run_words (h : c.ring.head < UInt64.size) (ts : List Int) : c.words.run ts = .ok (c.run ts).words := by
  induction ts generalizing c with
  | nil => rfl
  | cons t ts ih =>
    rw [WordCounter.run, List.foldlM_cons, increment_words h, Fault.bind_ok, run_cons]
    exact ih (head_increment_lt h t)

end Counter

/-! ## What cannot go wrong -/

namespace Ring

theorem count_reach_le (r : Ring) (id b : Nat) : (r.reach id).count b ≤ r.count b := by
  by_cases hpassed : ∃ c, r.head < c ∧ c ≤ id ∧ c % r.size = b % r.size
  · obtain ⟨c, h₁, h₂, hmod⟩ := hpassed
    rw [reach, if_pos (Nat.lt_of_lt_of_le h₁ h₂), count_advance_of_mem h₁ h₂ hmod]
    exact Nat.zero_le _
  · exact Nat.le_of_eq (count_reach_of_ne fun c h₁ h₂ hmod => hpassed ⟨c, h₁, h₂, hmod⟩)

/-- An event adds one to a slot at most. -/
theorem count_add_le (r : Ring) (id b : Nat) : (r.add id).count b ≤ r.count b + 1 := by
  have hreach := r.count_reach_le id b
  rw [add, count_touch]
  split <;> omega

theorem count_run_le (r : Ring) (ids : List Nat) (b : Nat) : (r.run ids).count b ≤ r.count b + ids.length := by
  induction ids generalizing r with
  | nil => exact Nat.le_refl _
  | cons id ids ih =>
    have hstep := r.count_add_le id b
    have hrest : (r.run (id :: ids)).count b ≤ (r.add id).count b + ids.length := ih (r.add id)
    rw [List.length_cons]
    omega

end Ring

namespace WordCounter

/-- Whatever a counter of `n` slots is asked, neither the search for a bucket and its slot nor a loop over slots can go
wrong, and the loops visit `n` slots at most. -/
structure Safe (m : WordCounter) (n : Nat) : Prop where
  bucketId : ∀ t, ∃ id, m.bucketId t = .ok id
  slot : ∀ id, ∃ i < n, m.slot id = .ok i
  passed : ∀ id, m.head < id → ∃ is, m.passed id = .ok is ∧ is.length ≤ n ∧ ∀ i ∈ is, i < n
  visited : ∀ t, ∃ is, m.visited t = .ok is ∧ is.length ≤ n ∧ ∀ i ∈ is, i < n

/-- No count has wrapped around: the words are the numbers of the counter `c`, and so are all sums. -/
structure Exact (m : WordCounter) (c : Counter) : Prop where
  head_eq : m.head.toNat = c.ring.head
  total_eq : m.total.toNat = c.total
  slots_eq : m.slots.map UInt64.toNat = c.ring.slots
  rollingSum : ∀ t, ∃ n, m.rollingSum t = .ok n ∧ n.toNat = c.rollingSum t

end WordCounter

namespace Counter

variable {c : Counter}

/-- A counter whose open bucket has 64 bits is safe in words, whatever it has counted. -/
theorem safe_words (h : c.ring.head < UInt64.size) : c.words.Safe c.ring.size where
  bucketId t := ⟨_, WordCounter.bucketId_of c.valid⟩
  slot id := by
    have hslot : c.words.slot (.ofNat id.toNat) = .ok (c.ring.index id.toNat) :=
      WordCounter.slot_of c.size_lt id.toNat_lt
    rw [UInt64.ofNat_toNat] at hslot
    exact ⟨_, c.ring.index_lt _, hslot⟩
  passed id hnew := by
    have hnew' : c.ring.head < id.toNat := by
      have hword := UInt64.lt_iff_toNat_lt.mp hnew
      rwa [show c.words.head.toNat = c.ring.head from UInt64.toNat_ofNat_of_lt' h] at hword
    have hpassed : c.words.passed (.ofNat id.toNat) = .ok (c.ring.passed id.toNat) :=
      WordCounter.passed_of c.size_lt hnew' id.toNat_lt
    rw [UInt64.ofNat_toNat] at hpassed
    exact ⟨_, hpassed, c.ring.length_passed_le _, fun i => Ring.lt_of_mem_passed⟩
  visited t :=
    ⟨_, WordCounter.visited_of c.size_lt c.valid h, c.ring.length_visited_le _, fun i => Ring.lt_of_mem_visited⟩

theorem exact_words (hhead : c.ring.head < UInt64.size) (htotal : c.total < UInt64.size)
    (hslots : ∀ b, c.ring.count b < UInt64.size) (hsums : ∀ t, c.rollingSum t < UInt64.size) : c.words.Exact c where
  head_eq := UInt64.toNat_ofNat_of_lt' hhead
  total_eq := UInt64.toNat_ofNat_of_lt' htotal
  slots_eq := by
    change (c.ring.slots.map UInt64.ofNat).map UInt64.toNat = c.ring.slots
    refine Array.ext (by simp) fun i _ hi => ?_
    have hcount := hslots i
    have hown : i % c.ring.size = i := Nat.mod_eq_of_lt hi
    rw [Ring.count_eq_getD, hown, Array.getElem?_eq_getElem hi, Option.getD_some] at hcount
    rw [Array.getElem_map, Array.getElem_map]
    exact UInt64.toNat_ofNat_of_lt' hcount
  rollingSum t := ⟨_, WordCounter.rollingSum_of c.size_lt c.valid hhead (hsums t), UInt64.toNat_ofNat_of_lt' (hsums t)⟩

section Start

variable {w : Window} (valid : w.Valid) (origin : Int) (ts : List Int)

theorem head_run_start_lt : ((start w valid origin).run ts).ring.head < UInt64.size := by
  have hle : peak (start w valid origin).bucketId ts ≤ UInt64.size - 1 :=
    peak_le_iff.mpr fun t _ => Nat.le_sub_one_of_lt ((start w valid origin).bucketId_lt t)
  rw [head_run_start]
  exact Nat.lt_of_le_of_lt hle (by decide)

theorem safe_run_start : ((start w valid origin).run ts).words.Safe w.buckets.toNat := by
  rw [← size_run_start valid origin ts]
  exact safe_words (head_run_start_lt valid origin ts)

theorem count_run_start_le (b : Nat) : ((start w valid origin).run ts).ring.count b ≤ ts.length := by
  have hrun := (start w valid origin).ring.count_run_le (ts.map (start w valid origin).bucketId) b
  have hzero : (start w valid origin).ring.count b = 0 := Ring.count_empty _ valid.buckets_pos b
  rwa [hzero, Nat.zero_add, List.length_map, ← (run_eq _ ts).2.1] at hrun

/-- A sum has no more events than the run. -/
theorem rollingSum_run_start_le (q : Int) : ((start w valid origin).run ts).rollingSum q ≤ ts.length := by
  have harrivals := Ring.length_arrivals_le 0 (ts.map (start w valid origin).bucketId)
  rw [List.length_map] at harrivals
  rw [rollingSum]
  exact Nat.le_trans ((shows_run_start valid origin ts).sum_le_length _) harrivals

/-- **Counts of a run** of less than `2 ^ 64` events do not wrap around. -/
theorem exact_run_start (hfew : ts.length < UInt64.size) :
    ((start w valid origin).run ts).words.Exact ((start w valid origin).run ts) := by
  refine exact_words (head_run_start_lt valid origin ts) ?_ ?_ ?_
  · rwa [total_run_start]
  · exact fun b => Nat.lt_of_le_of_lt (count_run_start_le valid origin ts b) hfew
  · exact fun q => Nat.lt_of_le_of_lt (rollingSum_run_start_le valid origin ts q) hfew

end Start

end Counter

end CallGuard.Rolling
