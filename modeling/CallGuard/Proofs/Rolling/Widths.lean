import Mathlib.Order.Bounds.Defs
import CallGuard.Settings.Problem

/-!
# Buckets of whole milliseconds

A window may be asked for with buckets of any length, and its buckets are of whole milliseconds. The whole milliseconds
of a length are counted on all of it and a partial one is looked for in the last second only, which suffices because a
second is a whole number of milliseconds (`Duration.subsecond_mod_perMilli`). So rounding up is the lower adjoint of the
way back: `Duration.millisUp_le_iff` says of every number of milliseconds whether it is long enough.

**Main statement** (`Window.ofDuration_least`): the width is the least that is long enough, up to the greatest number of
64 bits; what was asked for can be read off the result to less than a millisecond below that, and a window that was
rounded is not rounded again.
-/

namespace CallGuard

namespace Duration

theorem nanos_ofMillis (m : Nat) : (ofMillis m).nanos = m * perMilli := rfl

/-- A partial millisecond shows in the last second. -/
theorem subsecond_mod_perMilli (d : Duration) : d.subsecond % perMilli = d.nanos % perMilli :=
  Nat.mod_mod_of_dvd d.nanos (by decide)

/-- **Rounding up**: so many milliseconds are long enough exactly if the rounded length is not more of them. -/
theorem millisUp_le_iff {d : Duration} {m : Nat} : d.millisUp ≤ m ↔ d.nanos ≤ (ofMillis m).nanos := by
  have hdivision := Nat.div_add_mod d.nanos perMilli
  have hrest := Nat.mod_lt d.nanos (show 0 < perMilli by decide)
  rw [millisUp, millis, subsecond_mod_perMilli, nanos_ofMillis]
  unfold perMilli at *
  by_cases hwhole : d.nanos % 1000000 = 0
  · rw [if_pos hwhole]
    omega
  · rw [if_neg hwhole]
    omega

theorem isLeast_millisUp (d : Duration) : IsLeast {m | d.nanos ≤ (ofMillis m).nanos} d.millisUp :=
  ⟨millisUp_le_iff.mp (Nat.le_refl _), fun _ h => millisUp_le_iff.mpr h⟩

/-- Whole milliseconds are not rounded. -/
theorem millisUp_ofMillis (m : Nat) : (ofMillis m).millisUp = m := by
  refine Nat.le_antisymm (millisUp_le_iff.mpr (Nat.le_refl _)) ?_
  have henough : (ofMillis m).nanos ≤ (ofMillis (ofMillis m).millisUp).nanos := (isLeast_millisUp _).1
  exact Nat.le_of_mul_le_mul_right henough (by decide)

/-- Less than a millisecond is added. -/
theorem millisUp_lt (d : Duration) : (ofMillis d.millisUp).nanos < d.nanos + perMilli := by
  cases hm : d.millisUp with
  | zero => exact Nat.lt_of_lt_of_le (by decide : 0 * perMilli < perMilli) (Nat.le_add_left _ _)
  | succ m =>
    -- one millisecond less is too short
    have hshort : ¬ d.nanos ≤ (ofMillis m).nanos := fun h => absurd (millisUp_le_iff.mpr h) (by omega)
    rw [nanos_ofMillis] at hshort ⊢
    rw [Nat.succ_mul]
    omega

theorem millisUp_eq_zero_iff {d : Duration} : d.millisUp = 0 ↔ d.nanos = 0 := by
  rw [← Nat.le_zero, millisUp_le_iff, nanos_ofMillis, Nat.zero_mul, Nat.le_zero]

end Duration

namespace Window

variable (d : Duration) (n : UInt32)

/-- The width stops at the greatest number of 64 bits. -/
theorem toNat_bucketMs_ofDuration : (ofDuration d n).bucketMs.toNat = min d.millisUp (UInt64.size - 1) := by
  have hfits : min d.millisUp (UInt64.size - 1) < UInt64.size :=
    Nat.lt_of_le_of_lt (Nat.min_le_right _ _) (by decide)
  exact UInt64.toNat_ofNat_of_lt' hfits

theorem bucketMs_ofDuration_eq_zero_iff : (ofDuration d n).bucketMs = 0 ↔ d.nanos = 0 := by
  rw [← UInt64.toNat_inj, toNat_bucketMs_ofDuration, ← Duration.millisUp_eq_zero_iff]
  have hzero : (0 : UInt64).toNat = 0 := rfl
  have hpos : 0 < UInt64.size - 1 := by decide
  omega

/-- A window is what becomes of its own width. -/
theorem ofDuration_bucketDuration (w : Window) : ofDuration w.bucketDuration w.buckets = w := by
  have hfits : w.bucketMs.toNat ≤ UInt64.size - 1 := Nat.le_pred_of_lt w.bucketMs.toNat_lt
  have hwidth : (ofDuration w.bucketDuration w.buckets).bucketMs = w.bucketMs := by
    rw [← UInt64.toNat_inj, toNat_bucketMs_ofDuration, bucketDuration, Duration.millisUp_ofMillis]
    exact Nat.min_eq_left hfits
  exact congrArg (Window.mk · w.buckets) hwidth

/-- **Rounding of bucket widths.** The width is the least whole number of milliseconds that is not shorter than the
length that was asked for, or the greatest number of 64 bits if that is less. So it grows with that length, and up to
the greatest width is longer by less than a millisecond; it is zero only for no length at all, so that the window is
refused exactly for no length or no bucket; and what was rounded is not rounded again. -/
theorem ofDuration_least :
    (ofDuration d n).buckets = n ∧
    (∃ m, IsLeast {m | d.nanos ≤ (Duration.ofMillis m).nanos} m ∧
      (ofDuration d n).bucketMs.toNat = min m (UInt64.size - 1)) ∧
    (∀ d' : Duration, d.nanos ≤ d'.nanos → (ofDuration d n).bucketMs ≤ (ofDuration d' n).bucketMs) ∧
    (d.nanos ≤ (Duration.ofMillis (UInt64.size - 1)).nanos →
      d.nanos ≤ (ofDuration d n).bucketDuration.nanos ∧
      (ofDuration d n).bucketDuration.nanos < d.nanos + Duration.perMilli) ∧
    ((ofDuration d n).bucketMs = 0 ↔ d.nanos = 0) ∧
    (∀ scope, (ofDuration d n).problems scope = [] ↔ d.nanos ≠ 0 ∧ n ≠ 0) ∧
    ofDuration (ofDuration d n).bucketDuration n = ofDuration d n := by
  refine ⟨rfl, ⟨_, d.isLeast_millisUp, toNat_bucketMs_ofDuration d n⟩, ?_, ?_,
    bucketMs_ofDuration_eq_zero_iff d n, ?_, ofDuration_bucketDuration _⟩
  · intro d' hle
    have hmillis : d.millisUp ≤ d'.millisUp :=
      Duration.millisUp_le_iff.mpr (Nat.le_trans hle d'.isLeast_millisUp.1)
    rw [UInt64.le_iff_toNat_le, toNat_bucketMs_ofDuration, toNat_bucketMs_ofDuration]
    omega
  · intro hfits
    have hwidth : (ofDuration d n).bucketMs.toNat = d.millisUp := by
      rw [toNat_bucketMs_ofDuration]
      exact Nat.min_eq_left (Duration.millisUp_le_iff.mpr hfits)
    rw [bucketDuration, hwidth]
    exact ⟨d.isLeast_millisUp.1, d.millisUp_lt⟩
  · intro scope
    rw [problems_eq_nil_iff]
    exact and_congr (not_congr (bucketMs_ofDuration_eq_zero_iff d n)) Iff.rfl

/-- A nanosecond less than the greatest width is rounded up to it, and a nanosecond more is cut down to it. -/
theorem ofDuration_least_edge :
    let most := Duration.ofMillis (UInt64.size - 1)
    (most.nanos - 1 ≤ most.nanos ∧ (ofDuration ⟨most.nanos - 1⟩ 1).bucketDuration.nanos < most.nanos - 1 + 1000000) ∧
    (most.nanos ≤ most.nanos + 1 ∧ (ofDuration most 1).bucketMs ≤ (ofDuration ⟨most.nanos + 1⟩ 1).bucketMs) ∧
    (ofDuration ⟨most.nanos + 1⟩ 1).bucketMs = 18446744073709551615 := by
  intro most
  have hbelow : most.nanos - 1 ≤ most.nanos := Nat.sub_le _ _
  have habove : most.nanos ≤ most.nanos + 1 := Nat.le_succ _
  refine ⟨⟨hbelow, ?_⟩, ⟨habove, ?_⟩, by decide⟩
  · exact ((ofDuration_least ⟨most.nanos - 1⟩ 1).2.2.2.1 hbelow).2
  · exact (ofDuration_least most 1).2.2.1 ⟨most.nanos + 1⟩ habove

end Window
end CallGuard
