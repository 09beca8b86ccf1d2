import CallGuard.Proofs.Execution.Polls

/-!
# Raised signals stay raised

The runner of a group polls again as long as the number of raised signals changes. That number tells all there is to
tell: acts only raise signals, never take one back, and each signal that they raise adds one
(`Engine.Acts.signals_grow`). So if it is the same after a poll, every signal is as it was.
-/

namespace CallGuard

namespace Signals

variable (s : Signals) (n m : String)

/-! ## What the operations do to signals -/

theorem raised_cancel : ((s.cancel n).get m).raised = (decide (m = n) || (s.get m).raised) := by
  rw [cancel, Table.get_update]
  by_cases h : m = n <;> simp [h]

theorem raised_enter : ((s.enter n).get m).raised = (s.get m).raised := by
  rw [enter, Table.get_update]
  by_cases h : m = n <;> simp [h]

theorem raised_leave : ((s.leave n).get m).raised = (s.get m).raised := by
  rw [leave, Table.get_update]
  by_cases h : m = n <;> simp [h]

/-- An update changes the number of raised signals by what it does to its own signal. -/
theorem raisedCount_update (f : Signal → Signal) : raisedCount (s.update n f) + (s.get n).raised.toNat =
    s.raisedCount + (f (s.get n)).raised.toNat := by
  unfold raisedCount Table.update Table.get
  dsimp only
  induction s.entries with
  | nil => cases h : (f default).raised <;> simp [Table.updateEntries, Table.find, h] <;> rfl
  | cons x xs ih =>
    obtain ⟨k, v⟩ := x
    by_cases hk : k = n
    · cases hv : v.raised <;> cases hf : (f v).raised <;> simp [Table.updateEntries, Table.find, hk, hv, hf]
    · simp only [Table.updateEntries, Table.find, hk, if_false, List.countP_cons]
      omega

theorem raisedCount_enter : (s.enter n).raisedCount = s.raisedCount := by
  have h := raisedCount_update s n fun x => { x with waiting := x.waiting + 1 }
  exact Nat.add_right_cancel h

theorem raisedCount_leave : (s.leave n).raisedCount = s.raisedCount := by
  have h := raisedCount_update s n fun x => { x with waiting := x.waiting - 1 }
  exact Nat.add_right_cancel h

theorem raisedCount_cancel : (s.cancel n).raisedCount + (s.get n).raised.toNat = s.raisedCount + 1 :=
  raisedCount_update s n fun x => { x with raised := true }

end Signals

/-! ## Rows of acts -/

/-- Signals were only raised, and if their number is the same, none was. -/
structure Signals.Grow (s s' : Signals) : Prop where
  raised : ∀ n, (s.get n).raised = true → (s'.get n).raised = true
  count_le : s.raisedCount ≤ s'.raisedCount
  same : s'.raisedCount = s.raisedCount → ∀ n, (s'.get n).raised = (s.get n).raised

namespace Signals.Grow

variable {s s' s'' : Signals}

theorem of_eq (hr : ∀ n, (s'.get n).raised = (s.get n).raised) (hc : s'.raisedCount = s.raisedCount) : Grow s s' :=
  ⟨fun n h => (hr n).trans h, Nat.le_of_eq hc.symm, fun _ => hr⟩

theorem trans (h : Grow s s') (h' : Grow s' s'') : Grow s s'' := by
  refine ⟨fun n hn => h'.raised n (h.raised n hn), Nat.le_trans h.count_le h'.count_le, ?_⟩
  intro hc n
  have hle := h.count_le
  have hle' := h'.count_le
  rw [h'.same (by omega), h.same (by omega)]

theorem cancel (s : Signals) (n : String) : Grow s (s.cancel n) := by
  have hc := raisedCount_cancel s n
  have hb := (s.get n).raised.toNat_le
  refine ⟨?_, by omega, ?_⟩
  · intro m hm
    rw [raised_cancel, hm, Bool.or_true]
  · intro hsame m
    -- the number is the same, so the signal was raised before
    have hn : (s.get n).raised = true := by
      cases h : (s.get n).raised with
      | true => rfl
      | false => rw [h, hsame] at hc; simp at hc
    rw [raised_cancel]
    by_cases hm : m = n
    · rw [hm, hn]
      exact Bool.or_true _
    · rw [decide_eq_false hm, Bool.false_or]

end Signals.Grow

namespace Engine

variable {e e' : Engine} {x : Context}

theorem raised_signals_enter (n : String) : ((e.enter x).signals.get n).raised = (e.signals.get n).raised := by
  unfold enter
  split
  · exact Signals.raised_enter ..
  · rfl

theorem raised_signals_leave (n : String) : ((e.leave x).signals.get n).raised = (e.signals.get n).raised := by
  unfold leave
  split
  · exact Signals.raised_leave ..
  · rfl

theorem raisedCount_enter : (e.enter x).signals.raisedCount = e.signals.raisedCount := by
  unfold enter
  split
  · exact Signals.raisedCount_enter ..
  · rfl

theorem raisedCount_leave : (e.leave x).signals.raisedCount = e.signals.raisedCount := by
  unfold leave
  split
  · exact Signals.raisedCount_leave ..
  · rfl

theorem signals_acquire? {c : Circuit} {p : Part} (h : e.acquire? c p = some e') : e'.signals = e.signals := by
  rw [(acquire?_eq_some_iff.mp h).2]
  rfl

/-- **Acts only raise signals**, and each that they raise adds one to the number. -/
theorem Acts.signals_grow (h : Acts e e') : e.signals.Grow e'.signals := by
  induction h with
  | refl => exact .of_eq (fun _ => rfl) rfl
  | tail _ hact ih =>
    refine ih.trans ?_
    cases hact with
    | cancel n => exact .cancel _ n
    | enter => exact .of_eq raised_signals_enter raisedCount_enter
    | leave => exact .of_eq raised_signals_leave raisedCount_leave
    | acquire ha => rw [signals_acquire? ha]; exact .of_eq (fun _ => rfl) rfl
    | _ => exact .of_eq (fun _ => rfl) rfl

/-! ## The signal of a context -/

/-- The signal of a context is raised. -/
def raised (e : Engine) (x : Context) : Bool := (e.cancelled? x).getD false

theorem interrupts_eq_true_iff :
    e.interrupts x = true ↔ (∃ d, x.deadline = some d ∧ d ≤ e.now) ∨ e.raised x = true := by
  unfold interrupts
  rw [Bool.or_eq_true]
  cases x.deadline <;> simp [raised]

theorem raised_congr (h : ∀ n, (e'.signals.get n).raised = (e.signals.get n).raised) (x : Context) :
    e'.raised x = e.raised x := by
  unfold raised cancelled?
  cases x.signal with
  | none => rfl
  | some n => exact h n

/-- A raised signal stays raised. -/
theorem Acts.raised (h : Acts e e') (hr : e.raised x = true) : e'.raised x = true := by
  unfold Engine.raised cancelled? at hr ⊢
  cases hx : x.signal with
  | none => rw [hx] at hr; cases hr
  | some n => rw [hx] at hr; exact h.signals_grow.raised n hr

/-- Acts that leave the number of raised signals alone leave the signal of every context alone. -/
theorem Acts.raised_eq (h : Acts e e') (hc : e'.signals.raisedCount = e.signals.raisedCount) (x : Context) :
    e'.raised x = e.raised x :=
  raised_congr (h.signals_grow.same hc) x

end Engine
end CallGuard
