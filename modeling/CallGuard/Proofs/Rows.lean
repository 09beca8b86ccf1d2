import Mathlib.Data.List.Perm.Basic

/-!
# Rows of which one member changes

Calls that run at the same time stand in a row, and a section of one of them changes one member of it.
-/

namespace CallGuard

variable {τ σ : Type} {l : List τ} {i : Nat} {x y z : τ}

/-- What the members of a row have is the same after a change, but for what the one member has. -/
theorem flatMap_set_perm (f : τ → List σ) (h : l[i]? = some x) (y : τ) :
    (f x ++ (l.set i y).flatMap f).Perm (f y ++ l.flatMap f) := by
  obtain ⟨hlt, heq⟩ := List.getElem?_eq_some_iff.mp h
  have hset := (List.set_perm_cons_eraseIdx hlt y).flatMap_right f
  have hold := (List.getElem_cons_eraseIdx_perm hlt).flatMap_right f
  rw [heq] at hold
  exact ((hset.append_left (f x)).trans (List.perm_append_comm_assoc ..)).trans (hold.append_left (f y))

/-- Of what the members of a row have, as much is counted as before the change but for what the one member has. -/
theorem countP_flatMap_set_add (f : τ → List σ) (p : σ → Bool) (h : l[i]? = some x) (y : τ) :
    ((l.set i y).flatMap f).countP p + (f x).countP p = (l.flatMap f).countP p + (f y).countP p := by
  have hrow := (flatMap_set_perm f h y).countP_eq p
  rw [List.countP_append, List.countP_append] at hrow
  omega

theorem map_set_of_eq {f : τ → σ} (h : l[i]? = some x) (hf : f y = f x) : (l.set i y).map f = l.map f := by
  obtain ⟨hlt, heq⟩ := List.getElem?_eq_some_iff.mp h
  have hlt' : i < (l.map f).length := by rwa [List.length_map]
  have hget : (l.map f)[i] = f x := by rw [List.getElem_map, heq]
  rw [List.map_set, hf, ← hget, List.set_getElem_self]

/-- Whoever is counted in a row is so after a change, but for the member that changed. -/
theorem countP_set_add (p : τ → Bool) (h : l[i]? = some x) (y : τ) :
    (l.set i y).countP p + (p x).toNat = l.countP p + (p y).toNat := by
  have hrow := countP_flatMap_set_add (fun z => [z]) p h y
  have hone : ∀ z, [z].countP p = (p z).toNat := fun z => by
    rw [List.countP_singleton]
    cases p z <;> rfl
  simpa only [List.flatMap_singleton', hone] using hrow

theorem countP_le_countP_flatMap (f : τ → List σ) (p : σ → Bool) (h : x ∈ l) :
    (f x).countP p ≤ (l.flatMap f).countP p :=
  (List.sublist_flatten_of_mem (List.mem_map_of_mem h)).countP_le

/-- A change leaves whoever is another than the member that changed. -/
theorem mem_set_of_ne (h : l[i]? = some x) (hz : z ∈ l) (hne : z ≠ x) : z ∈ l.set i y := by
  obtain ⟨k, hk⟩ := List.mem_iff_getElem?.mp hz
  have hik : i ≠ k := fun heq => hne (Option.some.inj (hk.symm.trans (heq ▸ h)))
  exact List.mem_of_getElem? ((List.getElem?_set_ne hik).trans hk)

/-- A change keeps what holds of all members if it holds of the new one. -/
theorem forall_mem_set {P : τ → Prop} (h : ∀ z ∈ l, P z) (hy : P y) : ∀ z ∈ l.set i y, P z := by
  intro z hz
  rcases List.mem_or_eq_of_mem_set hz with hz | rfl
  · exact h z hz
  · exact hy

/-- If one place only has a member of a kind, that member is all of its kind. -/
theorem filter_eq_singleton {p : τ → Bool} (h : l[i]? = some x) (hx : p x = true)
    (hothers : ∀ j y, l[j]? = some y → p y = true → j = i) : l.filter p = [x] := by
  induction l generalizing i with
  | nil => cases h
  | cons a l ih =>
    cases i with
    | zero =>
      obtain rfl : a = x := Option.some.inj h
      rw [List.filter_cons_of_pos hx, List.filter_eq_nil_iff.mpr]
      intro y hy hpy
      obtain ⟨j, hj⟩ := List.mem_iff_getElem?.mp hy
      exact absurd (hothers (j + 1) y hj hpy) (Nat.succ_ne_zero j)
    | succ i =>
      have ha : ¬ p a = true := fun ha => absurd (hothers 0 a rfl ha) (Nat.succ_ne_zero i).symm
      rw [List.filter_cons_of_neg ha]
      exact ih h fun j y hj hpy => Nat.succ.inj (hothers (j + 1) y hj hpy)

end CallGuard
