/-!
# A ring of buckets

Bucket ids are natural numbers that grow with time. A `Ring` keeps one slot for each residue of the ids modulo its
size, and the id of its newest bucket, the open one. `Ring.reach` opens a newer bucket and clears every slot that is
reused on the way; `Ring.touch` counts one event into the open bucket; `Ring.sum` adds up the buckets that are both
stored and inside a queried window. Reading never clears a slot: buckets outside the window are passed over.

**Main statements.** The size of a ring never changes (`size_reach`, `size_touch`), and an id that is not newer than
the open bucket leaves the ring where it is (`reach_of_le`).
-/

namespace CallGuard.Rolling

/-- A ring of at least one slot, whose newest bucket is `head`. -/
structure Ring where
  slots : Array Nat
  head : Nat
  slots_pos : 0 < slots.size
deriving DecidableEq, Repr

namespace Ring

/-- The number of slots. -/
def size (r : Ring) : Nat := r.slots.size

/-- A ring of `n` empty slots, open at bucket 0. -/
def empty (n : Nat) (h : 0 < n) : Ring where
  slots := Array.replicate n 0
  head := 0
  slots_pos := by simpa using h

/-- The slot of bucket `id`. -/
def index (r : Ring) (id : Nat) : Nat := id % r.size

theorem index_lt (r : Ring) (id : Nat) : r.index id < r.slots.size := Nat.mod_lt _ r.slots_pos

/-- What the slot of bucket `id` holds. -/
def count (r : Ring) (id : Nat) : Nat :=
  have := r.index_lt id
  r.slots[r.index id]

/-! ## Writing -/

/-- Clear the slot of bucket `id`. -/
def clearSlot (slots : Array Nat) (id : Nat) : Array Nat := slots.setIfInBounds (id % slots.size) 0

/-- Clear the slots of the `n` buckets from `id` on, one after the other. -/
def clearSlots (slots : Array Nat) (id n : Nat) : Array Nat := (List.range' id n).foldl clearSlot slots

@[simp] theorem size_clearSlot (slots : Array Nat) (id : Nat) : (clearSlot slots id).size = slots.size := by
  simp [clearSlot]

@[simp] theorem size_clearSlots (slots : Array Nat) (id n : Nat) : (clearSlots slots id n).size = slots.size := by
  unfold clearSlots
  induction List.range' id n generalizing slots with
  | nil => rfl
  | cons b bs ih => simp [ih]

/-- The slots after a move from bucket `head` to a newer bucket `id`: a move over the whole ring clears it at once. -/
def clearBetween (slots : Array Nat) (head id : Nat) : Array Nat :=
  if slots.size ≤ id - head then Array.replicate slots.size 0 else clearSlots slots (head + 1) (id - head)

@[simp] theorem size_clearBetween (slots : Array Nat) (head id : Nat) :
    (clearBetween slots head id).size = slots.size := by
  unfold clearBetween
  split <;> simp

/-- Make the newer bucket `id` the open one. -/
def advance (r : Ring) (id : Nat) : Ring where
  slots := clearBetween r.slots r.head id
  head := id
  slots_pos := by simpa using r.slots_pos

/-- Open bucket `id`, unless the open bucket is as new. -/
def reach (r : Ring) (id : Nat) : Ring := if r.head < id then r.advance id else r

/-- Count one event into bucket `id` if that is the open one; an older bucket takes no more events. -/
def touch (r : Ring) (id : Nat) : Ring :=
  if id = r.head then
    { slots := r.slots.modify (r.index id) (· + 1)
      head := r.head
      slots_pos := by simpa using r.slots_pos }
  else r

/-- Count one event of bucket `id`. -/
def add (r : Ring) (id : Nat) : Ring := (r.reach id).touch id

theorem reach_of_le {r : Ring} {id : Nat} (h : id ≤ r.head) : r.reach id = r := if_neg (Nat.not_lt.mpr h)

@[simp] theorem size_reach (r : Ring) (id : Nat) : (r.reach id).size = r.size := by
  unfold reach
  split <;> simp [advance, size]

@[simp] theorem size_touch (r : Ring) (id : Nat) : (r.touch id).size = r.size := by
  unfold touch
  split <;> simp [size]

@[simp] theorem size_add (r : Ring) (id : Nat) : (r.add id).size = r.size := by simp [add]

@[simp] theorem head_touch (r : Ring) (id : Nat) : (r.touch id).head = r.head := by
  unfold touch
  split <;> rfl

@[simp] theorem head_reach (r : Ring) (id : Nat) : (r.reach id).head = max r.head id := by
  unfold reach
  split
  · simp only [advance]; omega
  · omega

@[simp] theorem head_add (r : Ring) (id : Nat) : (r.add id).head = max r.head id := by simp [add]

/-! ## Reading -/

/-- The newest bucket that is stored and not later than `id`. -/
def newest (r : Ring) (id : Nat) : Nat := min r.head id

/-- The oldest bucket that is stored and inside the window that ends at `id`. -/
def oldest (r : Ring) (id : Nat) : Nat := max r.head id - (r.size - 1)

/-- A window has no more stored buckets than the ring has slots. -/
theorem length_window_le (r : Ring) (id : Nat) : r.newest id + 1 - r.oldest id ≤ r.size := by
  have := r.slots_pos
  unfold newest oldest size
  omega

/-- The events in the `n` buckets from bucket `lo` on. -/
def sumFrom (r : Ring) (lo : Nat) : (n : Nat) → Nat
  | 0 => 0
  | n + 1 => r.sumFrom lo n + r.count (lo + n)

/-- The events in the stored buckets of the window that ends at bucket `id`. -/
def sum (r : Ring) (id : Nat) : Nat := r.sumFrom (r.oldest id) (r.newest id + 1 - r.oldest id)

end Ring
end CallGuard.Rolling
