/-!
# Limits on what runs at once

A `Limiter` counts the permits that are held, up to a maximum if it has one.

**Main statement.** A permit is refused exactly if there is a maximum and it is reached (`acquire?_eq_none_iff`).
-/

namespace CallGuard

/-- The permits that are held, and how many may be. -/
structure Limiter where
  max : Option Nat
  active : Nat := 0
deriving DecidableEq, Repr

namespace Limiter

/-- Every permit is held already. -/
def Full (l : Limiter) : Prop := ∃ m, l.max = some m ∧ m ≤ l.active

instance (l : Limiter) : Decidable l.Full :=
  match h : l.max with
  | none => .isFalse fun ⟨m, hm, _⟩ => by simp [h] at hm
  | some m =>
    if hle : m ≤ l.active then .isTrue ⟨m, h, hle⟩
    else .isFalse fun ⟨n, hn, hle'⟩ => by rw [h] at hn; cases hn; exact hle hle'

/-- Take one more permit, unless the limit is reached. -/
def acquire? (l : Limiter) : Option Limiter := if l.Full then none else some { l with active := l.active + 1 }

/-- Give one permit back. -/
def release (l : Limiter) : Limiter := { l with active := l.active - 1 }

theorem acquire?_eq_none_iff {l : Limiter} : l.acquire? = none ↔ l.Full := by
  unfold acquire?
  split <;> simp_all

theorem release_of_acquire? {l l' : Limiter} (h : l.acquire? = some l') : l'.release = l := by
  unfold acquire? at h
  split at h
  · cases h
  · cases h; rfl

end Limiter
end CallGuard
