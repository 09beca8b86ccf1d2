import CallGuard.Proofs.Rolling.Rotation

/-!
# Every way to a newer bucket

A ring comes to a newer bucket in one move or with stops on the way, and a move clears the slots that it reuses one by
one or, if it is long enough, all slots at once. `Ring.Turned` says what is to become of the slots without any of this: a
slot that has its turn between the two buckets is empty afterwards, and every other slot is as it was.

* **Uniqueness** (`Turned.eq`): only one array of slots is like that.
* **Ways to clear** (`turned_clearSlots`, `turned_replicate`): bucket by bucket, and at once if every slot has its turn.
* **Stops** (`Turned.trans`, `advance_advance`): a move to a bucket and on to a newer one is a move to the newer one.

**Main statement** (`Ring.advance_by_any_way`): neither the stops nor the way of clearing makes a difference.
-/

namespace CallGuard.Rolling.Ring

/-! ## Turns -/

/-- Of `n` slots slot `i` has its turn after bucket `head`, up to bucket `id`. -/
def HasTurn (n head id i : Nat) : Prop := ∃ b, head < b ∧ b ≤ id ∧ b % n = i

/-- What a move from bucket `head` to bucket `id` has to make of the slots. -/
structure Turned (slots : Array Nat) (head id : Nat) (after : Array Nat) : Prop where
  size_eq : after.size = slots.size
  empty : ∀ i < slots.size, HasTurn slots.size head id i → after[i]?.getD 0 = 0
  kept : ∀ i < slots.size, ¬ HasTurn slots.size head id i → after[i]?.getD 0 = slots[i]?.getD 0

section Turned

variable {slots after after' : Array Nat} {n head mid id i : Nat}

theorem hasTurn_trans (h₁ : head ≤ mid) (h₂ : mid ≤ id) :
    HasTurn n head id i ↔ HasTurn n head mid i ∨ HasTurn n mid id i := by
  constructor
  · rintro ⟨b, hb₁, hb₂, hmod⟩
    by_cases hb : b ≤ mid
    · exact .inl ⟨b, hb₁, hb, hmod⟩
    · exact .inr ⟨b, Nat.lt_of_not_le hb, hb₂, hmod⟩
  · rintro (⟨b, hb₁, hb₂, hmod⟩ | ⟨b, hb₁, hb₂, hmod⟩)
    · exact ⟨b, hb₁, Nat.le_trans hb₂ h₂, hmod⟩
    · exact ⟨b, Nat.lt_of_le_of_lt h₁ hb₁, hb₂, hmod⟩

/-- What a move has to make of the slots is determined. -/
theorem Turned.eq (h : Turned slots head id after) (h' : Turned slots head id after') : after = after' := by
  have hslot : ∀ i < slots.size, after[i]?.getD 0 = after'[i]?.getD 0 := by
    intro i hi
    by_cases hturn : HasTurn slots.size head id i
    · rw [h.empty i hi hturn, h'.empty i hi hturn]
    · rw [h.kept i hi hturn, h'.kept i hi hturn]
  refine Array.ext (h.size_eq.trans h'.size_eq.symm) fun i hi hi' => ?_
  have hval := hslot i (h.size_eq ▸ hi)
  rwa [Array.getElem?_eq_getElem hi, Array.getElem?_eq_getElem hi', Option.getD_some, Option.getD_some] at hval

/-- Clearing bucket by bucket is a way to clear. -/
theorem turned_clearSlots (slots : Array Nat) (head id : Nat) :
    Turned slots head id (clearSlots slots (head + 1) (id - head)) where
  size_eq := size_clearSlots ..
  empty := by
    rintro i - ⟨b, hb₁, hb₂, hmod⟩
    exact getD_clearSlots_of_mem hb₁ (by omega) hmod
  kept := by
    intro i _ hturn
    exact getD_clearSlots_of_ne fun b hb₁ hb₂ hmod => hturn ⟨b, hb₁, by omega, hmod⟩

/-- Clearing all slots at once is a way to clear if every slot has its turn. -/
theorem turned_replicate (hfar : slots.size ≤ id - head) : Turned slots head id (Array.replicate slots.size 0) where
  size_eq := Array.size_replicate
  empty := by
    intro i hi _
    rw [Array.getElem?_replicate, if_pos hi, Option.getD_some]
  kept := by
    intro i hi hturn
    exact absurd (exists_mod_eq hi hfar) hturn

theorem turned_clearBetween (slots : Array Nat) (head id : Nat) :
    Turned slots head id (clearBetween slots head id) := by
  unfold clearBetween
  split
  · rename_i hfar
    exact turned_replicate hfar
  · exact turned_clearSlots slots head id

/-- A move and a move on from there have to make of the slots what one move has to. -/
theorem Turned.trans (h₁ : head ≤ mid) (h₂ : mid ≤ id) (h : Turned slots head mid after)
    (h' : Turned after mid id after') : Turned slots head id after' where
  size_eq := h'.size_eq.trans h.size_eq
  empty := by
    intro i hi hturn
    by_cases hlater : HasTurn slots.size mid id i
    · exact h'.empty i (h.size_eq ▸ hi) (h.size_eq ▸ hlater)
    · -- the slot has its turn before the stop, and is left alone after it
      have hearlier := ((hasTurn_trans h₁ h₂).mp hturn).resolve_right hlater
      rw [h'.kept i (h.size_eq ▸ hi) (h.size_eq ▸ hlater), h.empty i hi hearlier]
  kept := by
    intro i hi hturn
    rw [hasTurn_trans h₁ h₂, not_or] at hturn
    rw [h'.kept i (h.size_eq ▸ hi) (h.size_eq ▸ hturn.2), h.kept i hi hturn.1]

end Turned

/-! ## Stops -/

/-- Open the given buckets, one after the other. -/
def follow (r : Ring) (stops : List Nat) : Ring := stops.foldl advance r

variable {r r' : Ring} {mid id : Nat} {stops : List Nat}

theorem eq_of_slots_eq (hslots : r.slots = r'.slots) (hhead : r.head = r'.head) : r = r' := by
  cases r
  cases r'
  cases hslots
  cases hhead
  rfl

theorem turned_advance (r : Ring) (id : Nat) : Turned r.slots r.head id (r.advance id).slots :=
  turned_clearBetween r.slots r.head id

/-- **A stop** makes no difference. -/
theorem advance_advance (h₁ : r.head ≤ mid) (h₂ : mid ≤ id) : (r.advance mid).advance id = r.advance id :=
  eq_of_slots_eq (((r.turned_advance mid).trans h₁ h₂ ((r.advance mid).turned_advance id)).eq (r.turned_advance id)) rfl

/-- **Any stops** that never go back make no difference. -/
theorem follow_concat (h : (r.head :: stops ++ [id]).Pairwise (· ≤ ·)) : r.follow (stops ++ [id]) = r.advance id := by
  induction stops generalizing r with
  | nil => rfl
  | cons stop stops ih =>
    obtain ⟨hhead, hrest⟩ := List.pairwise_cons.mp h
    obtain ⟨hstop, -⟩ := List.pairwise_cons.mp hrest
    have honward : (r.advance stop).follow (stops ++ [id]) = (r.advance stop).advance id := ih hrest
    exact honward.trans (advance_advance (hhead stop List.mem_cons_self) (hstop id (by simp)))

/-- **Rotation is the same by every way.** Take any ring and any bucket to open. If that is so far ahead that the ring
is cleared at once, clearing bucket by bucket leaves the same slots. Whatever the stops on the way, as long as they do
not go back, the ring arrives with the same open bucket and the same slots. However it arrives, exactly the slots of the
buckets after the formerly open one are emptied, and every bucket that is still less than a ring behind keeps what it
held. -/
theorem advance_by_any_way (r : Ring) (id : Nat) :
    (r.size ≤ id - r.head → Array.replicate r.size 0 = clearSlots r.slots (r.head + 1) (id - r.head)) ∧
    (r.advance id).slots = clearSlots r.slots (r.head + 1) (id - r.head) ∧
    (∀ stops, (r.head :: stops ++ [id]).Pairwise (· ≤ ·) → r.follow (stops ++ [id]) = r.advance id) ∧
    (r.advance id).head = id ∧
    Turned r.slots r.head id (r.advance id).slots ∧
    ∀ b, b ≤ r.head → id < b + r.size → (r.advance id).count b = r.count b := by
  have hslowly := turned_clearSlots r.slots r.head id
  refine ⟨?_, (r.turned_advance id).eq hslowly, fun stops => follow_concat, rfl, r.turned_advance id, ?_⟩
  · intro hfar
    exact (turned_replicate hfar).eq hslowly
  · intro b hb hlive
    exact count_advance_of_ne fun c h₁ h₂ => mod_ne_of_passed hb h₁ h₂ hlive

/-- A ring of three slots that is open at bucket 4 goes to bucket 6 with a stop, and keeps bucket 4 only; it goes to
bucket 9 with two stops, and keeps nothing. -/
theorem advance_by_any_way_three :
    let r : Ring := ⟨#[5, 7, 6], 4, by decide⟩
    r.follow [5, 6] = r.advance 6 ∧ (r.advance 6).slots = #[0, 7, 0] ∧ (r.advance 6).count 4 = r.count 4 ∧
      r.follow [5, 8, 9] = r.advance 9 ∧ #[0, 0, 0] = clearSlots r.slots 5 5 := by
  intro r
  obtain ⟨-, -, hnear, -, -, hkept⟩ := r.advance_by_any_way 6
  obtain ⟨hfast, -, hfar, -, -, -⟩ := r.advance_by_any_way 9
  exact ⟨hnear [5] (by decide), by decide, hkept 4 (by decide) (by decide), hfar [5, 8] (by decide), hfast (by decide)⟩

end CallGuard.Rolling.Ring
