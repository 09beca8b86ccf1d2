import CallGuard.Duration

/-!
# Rolling windows

A `Window` is a number of equal buckets of a whole number of milliseconds each. `Window.Valid` asks for a positive
width and at least one bucket.

**Main statements.** `Window.ofDuration` rounds a bucket width up to milliseconds and stops at the largest width that
fits; `Window.span?` is the whole length, absent when it is too long to be a duration.
-/

namespace CallGuard

/-- The shape of a rolling window: `buckets` slices of `bucketMs` milliseconds. -/
structure Window where
  bucketMs : UInt64 := 1000
  buckets : UInt32 := 10
deriving DecidableEq, Repr, Inhabited

namespace Window

/-- A window can be counted in: its buckets have a width, and there is one at least. -/
def Valid (w : Window) : Prop := w.bucketMs ≠ 0 ∧ w.buckets ≠ 0

instance (w : Window) : Decidable w.Valid := inferInstanceAs (Decidable (_ ∧ _))

/-- A window of `buckets` buckets that are not shorter than `d`; a partial millisecond counts as a whole one, and the
width stops at the largest number of 64 bits. -/
def ofDuration (d : Duration) (buckets : UInt32) : Window where
  bucketMs := UInt64.ofNat (min d.millisUp (UInt64.size - 1))
  buckets := buckets

/-- The width of one bucket. -/
def bucketDuration (w : Window) : Duration := .ofMillis w.bucketMs.toNat

/-- The width of one bucket in nanoseconds. -/
def bucketNanos (w : Window) : Nat := w.bucketDuration.nanos

/-- The length of the whole window, unless it is too long. -/
def span? (w : Window) : Option Duration := w.bucketDuration.scale? w.buckets.toNat

theorem Valid.bucketNanos_pos {w : Window} (h : w.Valid) : 0 < w.bucketNanos := by
  have : w.bucketMs.toNat ≠ 0 := fun e => h.1 (UInt64.toNat_inj.mp e)
  simp only [bucketNanos, bucketDuration, Duration.ofMillis, Duration.perMilli]
  omega

theorem Valid.buckets_pos {w : Window} (h : w.Valid) : 0 < w.buckets.toNat := by
  have : w.buckets.toNat ≠ 0 := fun e => h.2 (UInt32.toNat_inj.mp e)
  omega

end Window
end CallGuard
