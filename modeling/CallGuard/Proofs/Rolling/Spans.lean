import CallGuard.Settings.Decode
import CallGuard.Proofs.Rolling.History

/-!
# How long an accepted window is

A window is accepted as soon as its buckets have a width and there is one of them. Nothing bounds the product of the two,
and a duration has whole seconds of 64 bits: from `2 ^ 64` seconds on a window has no length (`Window.span?_eq`). A
counter has the length of its window all its life, whatever it counts (`Counter.span?_eq_window`).

**Main statement** (`Counter.span?_of_accepted`): every counter of an accepted window shows the length of that window,
which is exactly the product of its width and its number of buckets as long as that is shorter than `2 ^ 64` seconds,
and otherwise is none at all, which the settings of a file can bring about (`Counter.span?_of_accepted_none`).
-/

namespace CallGuard

namespace Window

/-- The buckets of a window put together, in milliseconds. -/
def spanMs (w : Window) : Nat := w.bucketMs.toNat * w.buckets.toNat

/-- The least number of milliseconds that is too long for a duration. -/
def spanLimit : Nat := UInt64.size * 1000

/-- A number of milliseconds fits a duration exactly if it is below the limit. -/
theorem ofMillis_lt_limit {ms : Nat} : (Duration.ofMillis ms).nanos < Duration.limit ↔ ms < spanLimit := by
  have hlimit : Duration.limit = spanLimit * Duration.perMilli := by decide
  rw [hlimit]
  exact Nat.mul_lt_mul_right (by decide)

theorem nanos_mul_buckets (w : Window) :
    w.bucketDuration.nanos * w.buckets.toNat = (Duration.ofMillis w.spanMs).nanos := by
  rw [bucketDuration, Duration.ofMillis, Duration.ofMillis, spanMs]
  exact Nat.mul_right_comm ..

/-- **The length of a window** is the exact product, if that is a duration. -/
theorem span?_eq (w : Window) : w.span? = if w.spanMs < spanLimit then some (.ofMillis w.spanMs) else none := by
  rw [span?, Duration.scale?, nanos_mul_buckets]
  simp only [ofMillis_lt_limit]

end Window

namespace Rolling.Counter

/-- A counter is as long as its window. -/
theorem span?_eq_window (c : Counter) : c.span? = c.window.span? := by
  rw [span?, bucketDuration, buckets, c.size_eq, Window.span?]

theorem window_run (c : Counter) (ts : List Int) : (c.run ts).window = c.window := by
  induction ts generalizing c with
  | nil => rfl
  | cons t ts ih => rw [run_cons, ih, window_increment]

/-- **The length of an accepted window.** A counter of it can be made at any origin, and it and every other counter of
the window, whatever they have counted, show the length of the window. That length is exactly the width of a bucket times
the number of buckets if the product is shorter than `2 ^ 64` seconds, and otherwise there is none. -/
theorem span?_of_accepted {w : Window} {scope : String} (accepted : w.problems scope = []) :
    (∀ origin, ∃ c, create w origin = .ok c ∧ ∀ ts, (c.run ts).span? = w.span?) ∧
    (∀ c : Counter, c.window = w → c.span? = w.span?) ∧
    (w.spanMs < Window.spanLimit → w.span? = some (.ofMillis w.spanMs)) ∧
    (Window.spanLimit ≤ w.spanMs → w.span? = none) := by
  have valid := Window.problems_eq_nil_iff.mp accepted
  refine ⟨?_, ?_, ?_, ?_⟩
  · intro origin
    refine ⟨start w valid origin, create_of_valid valid origin, ?_⟩
    intro ts
    rw [span?_eq_window, window_run]
    rfl
  · rintro c rfl
    exact span?_eq_window c
  · intro hfits
    rw [Window.span?_eq, if_pos hfits]
  · intro hlong
    rw [Window.span?_eq, if_neg (Nat.not_lt.mpr hlong)]

/-- The longest window that 1000 buckets of whole milliseconds can give is a length, and one more bucket is too many. -/
theorem span?_of_accepted_widest :
    (⟨18446744073709551615, 1000⟩ : Window).problems Window.commonScope = [] ∧
    (⟨18446744073709551615, 1000⟩ : Window).span? = some (.ofMillis (18446744073709551615 * 1000)) ∧
    (⟨18446744073709551615, 1001⟩ : Window).problems Window.commonScope = [] ∧
    (⟨18446744073709551615, 1001⟩ : Window).span? = none := by
  have hfits := @span?_of_accepted ⟨18446744073709551615, 1000⟩ Window.commonScope (by decide)
  have hlong := @span?_of_accepted ⟨18446744073709551615, 1001⟩ Window.commonScope (by decide)
  exact ⟨by decide, hfits.2.2.1 (by decide), by decide, hlong.2.2.2 (by decide)⟩

/-- A file asks for 2001 buckets of the widest kind that it can write. Its settings are accepted and a counter of their
window is made, but neither the window nor the counter has a length. -/
theorem span?_of_accepted_none :
    (Settings.read "[rolling]\nbucket_duration_ms = 9223372036854775807\nnum_buckets = 2001\n").toOption =
      some { window := ⟨9223372036854775807, 2001⟩ } ∧
    (⟨9223372036854775807, 2001⟩ : Window).problems Window.commonScope = [] ∧
    (⟨9223372036854775807, 2001⟩ : Window).span? = none ∧
    ∃ c, create ⟨9223372036854775807, 2001⟩ 0 = .ok c ∧ c.span? = none := by
  have hlong : (⟨9223372036854775807, 2001⟩ : Window).span? = none := by decide
  have valid : (⟨9223372036854775807, 2001⟩ : Window).Valid := by decide
  refine ⟨by decide +kernel, by decide, hlong, start _ valid 0, create_of_valid valid 0, ?_⟩
  rw [span?_eq_window]
  exact hlong

end Rolling.Counter
end CallGuard
