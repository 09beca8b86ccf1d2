import Mathlib.Order.MinMax

/-!
# Instants that may never come

An `Instant` is a number of milliseconds, or never; never is after every other. The order is linear, so the earlier of
two instants is their minimum.
-/

namespace CallGuard

/-- An instant of the clock, or none at all. -/
inductive Instant
  | ms (n : Nat)
  | never
deriving DecidableEq, Repr

namespace Instant

instance : Coe Nat Instant := ⟨ms⟩

/-! ## The order -/

/-- An instant does not come after another. -/
protected def le : Instant → Instant → Prop
  | _, never => True
  | ms m, ms n => m ≤ n
  | never, ms _ => False

instance : LE Instant := ⟨Instant.le⟩

instance : LT Instant := ⟨fun a b => ¬ b ≤ a⟩

instance : DecidableLE Instant
  | ms m, ms n => inferInstanceAs (Decidable (m ≤ n))
  | ms _, never => .isTrue trivial
  | never, never => .isTrue trivial
  | never, ms _ => .isFalse id

instance : DecidableLT Instant := fun a b => inferInstanceAs (Decidable (¬ b ≤ a))

instance : Min Instant := ⟨fun a b => if a ≤ b then a else b⟩

instance : Max Instant := ⟨fun a b => if a ≤ b then b else a⟩

theorem le_never (a : Instant) : a ≤ never := by cases a <;> trivial

theorem ms_le_ms {m n : Nat} : ms m ≤ ms n ↔ m ≤ n := Iff.rfl

theorem ms_lt_ms {m n : Nat} : ms m < ms n ↔ m < n := Nat.not_le

theorem ms_lt_never (n : Nat) : ms n < never := id

theorem never_le_iff {a : Instant} : never ≤ a ↔ a = never := by
  cases a with
  | ms n => exact ⟨False.elim, nofun⟩
  | never => exact ⟨fun _ => rfl, fun _ => trivial⟩

private theorem le_trans' {a b c : Instant} (hab : a ≤ b) (hbc : b ≤ c) : a ≤ c := by
  cases c with
  | never => exact le_never a
  | ms n =>
    cases b with
    | never => exact hbc.elim
    | ms m =>
      cases a with
      | never => exact hab.elim
      | ms l => exact Nat.le_trans hab hbc

private theorem le_total' (a b : Instant) : a ≤ b ∨ b ≤ a := by
  cases a with
  | never => exact .inr (le_never b)
  | ms m =>
    cases b with
    | never => exact .inl trivial
    | ms n => exact Nat.le_total m n

instance : LinearOrder Instant where
  le_refl a := (le_total' a a).elim id id
  le_trans _ _ _ := le_trans'
  lt_iff_le_not_ge a b := ⟨fun h => ⟨(le_total' a b).resolve_right h, h⟩, And.right⟩
  le_antisymm a b hab hba := by
    cases a with
    | never => exact (never_le_iff.mp hab).symm
    | ms m =>
      cases b with
      | never => exact hba.elim
      | ms n => exact congrArg ms (Nat.le_antisymm hab hba)
  le_total := le_total'
  toDecidableLE := inferInstance
  toDecidableEq := inferInstance
  toDecidableLT := inferInstance

/-! ## Instants from delays -/

/-- The instant that is given, or never. -/
def ofOption : Option Nat → Instant
  | some n => n
  | none => never

/-- The instant after a delay, or never. -/
def after : Instant → Option Nat → Instant
  | ms m, some n => ms (m + n)
  | _, _ => never

theorem le_after (a : Instant) (d : Option Nat) : a ≤ a.after d := by
  cases a with
  | never => exact le_never _
  | ms m =>
    cases d with
    | none => exact le_never _
    | some n => exact Nat.le_add_right m n

end Instant
end CallGuard
