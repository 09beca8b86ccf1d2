import Mathlib.Data.Nat.ModEq
import CallGuard.Rolling.Ring

/-!
# What rotation does to the slots

Opening a newer bucket clears the slots of the buckets that are passed, and no other slot. A move over the whole ring
passes every slot, so that clearing the ring at once is the same as clearing bucket by bucket.

**Main statements.** `count_advance_of_mem`, `count_advance_of_ne` and `count_touch` say what the slot of a bucket
holds after a move and after an event; `mod_inj_of_near` keeps buckets less than a ring apart in different slots, so that
a bucket that stays in the ring loses nothing (`count_le_add`).
-/

namespace CallGuard.Rolling.Ring

/-! ## Residues -/

/-- Two buckets less than `n` apart that share a slot are the same. -/
theorem mod_inj_of_near {n a b : Nat} (hab : a ≤ b) (hn : b < a + n) (h : a % n = b % n) : a = b := by
  have hdvd : n ∣ b - a := (Nat.modEq_iff_dvd' hab).mp h
  have hzero : b - a = 0 := Nat.eq_zero_of_dvd_of_lt hdvd (by omega)
  omega

/-- A bucket that is still less than `n` behind shares its slot with none of the buckets that are passed. -/
theorem mod_ne_of_passed {n head id b c : Nat} (hb : b ≤ head) (h₁ : head < c) (h₂ : c ≤ id) (hlive : id < b + n) :
    c % n ≠ b % n := by
  intro hmod
  have := mod_inj_of_near (show b ≤ c by omega) (by omega) hmod.symm
  omega

/-- Among `n` successive buckets every slot has its turn. -/
theorem exists_mod_eq {n head id i : Nat} (hi : i < n) (hn : n ≤ id - head) :
    ∃ b, head < b ∧ b ≤ id ∧ b % n = i := by
  have hdiv := Nat.div_add_mod (head + 1) n
  have hlt := Nat.mod_lt (head + 1) (show 0 < n by omega)
  have hmod : ∀ q, (n * q + i) % n = i := fun q => by rw [Nat.mul_add_mod, Nat.mod_eq_of_lt hi]
  by_cases hle : (head + 1) % n ≤ i
  · exact ⟨n * ((head + 1) / n) + i, by omega, by omega, hmod _⟩
  · refine ⟨n * ((head + 1) / n + 1) + i, ?_, ?_, hmod _⟩ <;> rw [Nat.mul_succ] <;> omega

/-! ## Clearing -/

section Clearing

variable {slots : Array Nat} {head id n i b : Nat}

theorem clearSlots_succ (slots : Array Nat) (id n : Nat) :
    clearSlots slots id (n + 1) = clearSlot (clearSlots slots id n) (id + n) := by
  simp only [clearSlots, List.range'_1_concat, List.foldl_append, List.foldl_cons, List.foldl_nil]

theorem getD_clearSlot :
    (clearSlot slots id)[i]?.getD 0 = if id % slots.size = i then 0 else slots[i]?.getD 0 := by
  rw [clearSlot, Array.getElem?_setIfInBounds]
  split
  · split <;> rfl
  · rfl

theorem getD_clearSlots_succ :
    (clearSlots slots id (n + 1))[i]?.getD 0 =
      if (id + n) % slots.size = i then 0 else (clearSlots slots id n)[i]?.getD 0 := by
  rw [clearSlots_succ, getD_clearSlot, size_clearSlots]

/-- Clearing bucket by bucket empties the slots of these buckets. -/
theorem getD_clearSlots_of_mem (h₁ : id ≤ b) (h₂ : b < id + n) (hb : b % slots.size = i) :
    (clearSlots slots id n)[i]?.getD 0 = 0 := by
  induction n with
  | zero => omega
  | succ n ih =>
    rw [getD_clearSlots_succ]
    split
    · rfl
    · rename_i hlast
      have hne : b ≠ id + n := fun h => hlast (h ▸ hb)
      exact ih (by omega)

/-- Clearing bucket by bucket leaves the slots of all other buckets. -/
theorem getD_clearSlots_of_ne (h : ∀ b, id ≤ b → b < id + n → b % slots.size ≠ i) :
    (clearSlots slots id n)[i]?.getD 0 = slots[i]?.getD 0 := by
  induction n with
  | zero => rfl
  | succ n ih =>
    rw [getD_clearSlots_succ, if_neg (h (id + n) (by omega) (by omega))]
    exact ih fun b h₁ h₂ => h b h₁ (by omega)

/-- A move empties the slots of the buckets that it passes, whichever way it clears them. -/
theorem getD_clearBetween_of_mem (h₁ : head < b) (h₂ : b ≤ id) (hb : b % slots.size = i) :
    (clearBetween slots head id)[i]?.getD 0 = 0 := by
  unfold clearBetween
  split
  · rw [Array.getElem?_replicate]
    split <;> rfl
  · exact getD_clearSlots_of_mem (by omega) (by omega) hb

/-- A move leaves the slots of the buckets that it does not pass. -/
theorem getD_clearBetween_of_ne (hi : i < slots.size) (h : ∀ b, head < b → b ≤ id → b % slots.size ≠ i) :
    (clearBetween slots head id)[i]?.getD 0 = slots[i]?.getD 0 := by
  unfold clearBetween
  split
  · rename_i hfar
    -- a move over the whole ring passes every slot
    obtain ⟨b, h₁, h₂, hb⟩ := exists_mod_eq hi hfar
    exact absurd hb (h b h₁ h₂)
  · exact getD_clearSlots_of_ne fun b h₁ h₂ => h b (by omega) (by omega)

end Clearing

/-! ## What the slot of a bucket holds after a write -/

section Count

variable {r : Ring} {id b c : Nat}

theorem count_eq_getD (r : Ring) (b : Nat) : r.count b = r.slots[b % r.size]?.getD 0 := by
  have hget : r.slots[b % r.size]? = some (r.count b) := Array.getElem?_eq_getElem (r.index_lt b)
  rw [hget, Option.getD_some]

@[simp] theorem count_empty (n : Nat) (h : 0 < n) (b : Nat) : (empty n h).count b = 0 := by
  simp [count, empty]

@[simp] theorem size_advance (r : Ring) (id : Nat) : (r.advance id).size = r.size := size_clearBetween ..

theorem count_advance_of_mem (h₁ : r.head < c) (h₂ : c ≤ id) (hc : c % r.size = b % r.size) :
    (r.advance id).count b = 0 := by
  rw [count_eq_getD, size_advance]
  exact getD_clearBetween_of_mem h₁ h₂ hc

theorem count_advance_of_ne (h : ∀ c, r.head < c → c ≤ id → c % r.size ≠ b % r.size) :
    (r.advance id).count b = r.count b := by
  rw [count_eq_getD, count_eq_getD, size_advance]
  exact getD_clearBetween_of_ne (Nat.mod_lt _ r.slots_pos) h

theorem count_reach_of_ne (h : ∀ c, r.head < c → c ≤ id → c % r.size ≠ b % r.size) :
    (r.reach id).count b = r.count b := by
  unfold reach
  split
  · exact count_advance_of_ne h
  · rfl

theorem count_touch :
    (r.touch id).count b = if id = r.head ∧ id % r.size = b % r.size then r.count b + 1 else r.count b := by
  unfold touch
  by_cases hid : id = r.head
  · rw [if_pos hid]
    simp only [count, index, size, Array.size_modify, Array.getElem_modify, hid, true_and]
  · rw [if_neg hid, if_neg (fun h => hid h.1)]

/-- A bucket that is in the ring before and after an event loses nothing by it. -/
theorem count_le_add (hb : b ≤ r.head) (hlive : (r.add id).head < b + r.size) : r.count b ≤ (r.add id).count b := by
  rw [head_add] at hlive
  have hreach : (r.reach id).count b = r.count b :=
    count_reach_of_ne fun c h₁ h₂ => mod_ne_of_passed hb h₁ h₂ (by omega)
  rw [add, ← hreach, count_touch]
  split <;> omega

end Count

end CallGuard.Rolling.Ring
