import Mathlib.Data.List.Sort
import CallGuard.CircuitName
import CallGuard.Proofs.Text.Bytes

/-!
# The order of names

`CircuitName.Before` is the order of names by the bytes of their scopes and then by the bytes of the names themselves.
Sorting puts distinct names into that order (`pairwise_before_sort`), and the outcome does not depend on the order in
which they were given (`sort_congr`).
-/

namespace CallGuard.CircuitName

variable {a b c : CircuitName} {names names' : List CircuitName}

/-- The scope of `a` comes first byte by byte, or the scopes are the same and the name of `a` comes first. -/
def Before (a b : CircuitName) : Prop :=
  Text.bytes a.scope < Text.bytes b.scope ∨ a.scope = b.scope ∧ Text.bytes a.name < Text.bytes b.name

theorem le_iff : le a b = true ↔ a.scope < b.scope ∨ a.scope = b.scope ∧ a.name ≤ b.name := by
  simp [le]

theorem le_trans (hab : le a b = true) (hbc : le b c = true) : le a c = true := by
  rw [le_iff] at hab hbc ⊢
  rcases hab with hab | ⟨hab, hab'⟩
  · rcases hbc with hbc | ⟨hbc, -⟩
    · exact .inl (String.lt_trans hab hbc)
    · exact .inl (hbc ▸ hab)
  · rcases hbc with hbc | ⟨hbc, hbc'⟩
    · exact .inl (hab ▸ hbc)
    · exact .inr ⟨hab.trans hbc, String.le_trans hab' hbc'⟩

theorem le_total (a b : CircuitName) : (le a b || le b a) = true := by
  rw [Bool.or_eq_true, le_iff, le_iff]
  by_cases hab : a.scope < b.scope
  · exact .inl (.inl hab)
  by_cases hba : b.scope < a.scope
  · exact .inr (.inl hba)
  have heq : a.scope = b.scope := String.le_antisymm (String.not_lt.mp hba) (String.not_lt.mp hab)
  rcases String.le_total a.name b.name with h | h
  · exact .inl (.inr ⟨heq, h⟩)
  · exact .inr (.inr ⟨heq.symm, h⟩)

theorem le_antisymm (hab : le a b = true) (hba : le b a = true) : a = b := by
  rw [le_iff] at hab hba
  rcases hab with hab | ⟨hab, hab'⟩
  · rcases hba with hba | ⟨hba, -⟩
    · exact absurd hba (String.lt_asymm hab)
    · exact absurd (hba ▸ hab) (String.lt_irrefl _)
  · rcases hba with hba | ⟨-, hba'⟩
    · exact absurd (hab ▸ hba) (String.lt_irrefl _)
    · obtain ⟨s, n⟩ := a
      obtain ⟨s', n'⟩ := b
      cases hab
      cases String.le_antisymm hab' hba'
      rfl

theorem before_of_le (hab : le a b = true) (hne : a ≠ b) : a.Before b := by
  rcases le_iff.mp hab with h | ⟨h, h'⟩
  · exact .inl (Text.bytes_lt h)
  · refine .inr ⟨h, Text.bytes_lt (String.not_le.mp fun hba => hne ?_)⟩
    exact le_antisymm hab (le_iff.mpr (.inr ⟨h.symm, hba⟩))

theorem sort_perm (names : List CircuitName) : (sort names).Perm names := List.mergeSort_perm names le

theorem pairwise_le_sort (names : List CircuitName) : (sort names).Pairwise (le · · = true) := by
  unfold sort
  exact @List.pairwise_mergeSort CircuitName le (fun _ _ _ => le_trans) le_total names

/-- Distinct names are sorted into strictly increasing order. -/
theorem pairwise_before_sort (h : names.Nodup) : (sort names).Pairwise Before :=
  ((pairwise_le_sort names).and ((sort_perm names).nodup_iff.mpr h)).imp fun hab => before_of_le hab.1 hab.2

/-- The order in which names are given does not matter. -/
theorem sort_congr (h : names.Perm names') : sort names = sort names' :=
  List.Perm.eq_of_pairwise (fun _ _ _ _ => le_antisymm) (pairwise_le_sort names) (pairwise_le_sort names')
    (((sort_perm names).trans h).trans (sort_perm names').symm)

end CallGuard.CircuitName
