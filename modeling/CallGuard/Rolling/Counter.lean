import CallGuard.Rolling.Ring
import CallGuard.Settings.Problem

/-!
# Rolling counters

A `Counter` counts events at instants, which are whole nanoseconds on a clock of any origin. Its bucket 0 starts at
`origin`; an instant before that belongs to bucket 0 too. Beside the ring it keeps a lifetime total, which never
rotates: an event that is older than the open bucket only reaches the total.

`Counter.create` refuses a window with a problem. Bucket ids have 64 bits: `Counter.bucketId` drops the higher ones.
-/

namespace CallGuard.Rolling

/-- What a counter shows at one instant. -/
structure Reading where
  rolling : Nat
  total : Nat
deriving DecidableEq, Repr, Inhabited

/-- A lifetime total and a rolling window of the given shape that starts at `origin`. -/
structure Counter where
  window : Window
  origin : Int
  ring : Ring
  total : Nat
  valid : window.Valid
  size_eq : ring.size = window.buckets.toNat

namespace Counter

/-- A counter that has seen nothing. -/
def start (window : Window) (valid : window.Valid) (origin : Int) : Counter where
  window := window
  origin := origin
  ring := .empty window.buckets.toNat valid.buckets_pos
  total := 0
  valid := valid
  size_eq := by simp [Ring.empty, Ring.size]

/-- A counter whose bucket 0 starts at `origin`, unless its window has a problem. -/
def create (window : Window) (origin : Int) : Except SettingsError Counter :=
  if accepted : window.problems Window.commonScope = [] then
    .ok (start window (Window.problems_eq_nil_iff.mp accepted) origin)
  else .error (.invalid (window.problems Window.commonScope))

theorem create_of_valid {window : Window} (valid : window.Valid) (origin : Int) :
    create window origin = .ok (start window valid origin) :=
  dif_pos (Window.problems_eq_nil_iff.mpr valid)

theorem create_of_not_valid {window : Window} (h : ¬ window.Valid) (origin : Int) :
    create window origin = .error (.invalid (window.problems Window.commonScope)) :=
  dif_neg fun accepted => h (Window.problems_eq_nil_iff.mp accepted)

/-- The nanoseconds from the origin to `t`, none if `t` is earlier. -/
def elapsed (c : Counter) (t : Int) : Nat := (t - c.origin).toNat

/-- The bucket of the instant `t`, in 64 bits. -/
def bucketId (c : Counter) (t : Int) : Nat := c.elapsed t / c.window.bucketNanos % UInt64.size

/-- Count one event at `t`. -/
def increment (c : Counter) (t : Int) : Counter :=
  let id := c.bucketId t
  { window := c.window
    origin := c.origin
    ring := c.ring.add id
    total := c.total + 1
    valid := c.valid
    size_eq := by simpa using c.size_eq }

@[simp] theorem window_increment (c : Counter) (t : Int) : (c.increment t).window = c.window := by cases c; rfl

@[simp] theorem origin_increment (c : Counter) (t : Int) : (c.increment t).origin = c.origin := by cases c; rfl

@[simp] theorem ring_increment (c : Counter) (t : Int) : (c.increment t).ring = c.ring.add (c.bucketId t) := by
  cases c; rfl

@[simp] theorem total_increment (c : Counter) (t : Int) : (c.increment t).total = c.total + 1 := by cases c; rfl

@[simp] theorem bucketId_increment (c : Counter) (t : Int) : (c.increment t).bucketId = c.bucketId := by
  funext s
  rw [bucketId, bucketId, elapsed, elapsed, window_increment, origin_increment]

/-- Count `n` events at `t`. -/
def incrementMany (c : Counter) (t : Int) : Nat → Counter
  | 0 => c
  | n + 1 => (c.increment t).incrementMany t n

/-- The events in the window that ends at `t`. -/
def rollingSum (c : Counter) (t : Int) : Nat := c.ring.sum (c.bucketId t)

/-- What the counter shows at `t`. -/
def reading (c : Counter) (t : Int) : Reading := ⟨c.rollingSum t, c.total⟩

/-- The number of buckets. -/
def buckets (c : Counter) : Nat := c.ring.size

/-- The width of one bucket. -/
def bucketDuration (c : Counter) : Duration := c.window.bucketDuration

/-- The length of the window, unless it is too long. -/
def span? (c : Counter) : Option Duration := c.bucketDuration.scale? c.buckets

end Counter
end CallGuard.Rolling
