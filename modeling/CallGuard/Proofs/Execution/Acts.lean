import CallGuard.Execution.Call

/-!
# What the elementary acts leave alone

Guarded calls act on the engine by taking and giving back permits, by waiting for signals and by reports. None of these
acts moves the clock; only reports touch the counters of circuits, and only the acts on permits touch permits.
-/

namespace CallGuard

variable {α : Type}

namespace Engine

variable (e : Engine) (c : Circuit) (p : Part) (x : Context) (l : Limiter) (event : Event)

/-! ## The clock -/

@[simp] theorem now_putLimiter : (e.putLimiter c p l).now = e.now := rfl
@[simp] theorem now_release : (e.release c p).now = e.now := rfl
@[simp] theorem now_cancel (s : String) : (e.cancel s).now = e.now := rfl
@[simp] theorem now_note : (e.note event).now = e.now := rfl

@[simp] theorem now_enter : (e.enter x).now = e.now := by
  unfold enter
  split <;> rfl

@[simp] theorem now_leave : (e.leave x).now = e.now := by
  unfold leave
  split <;> rfl

/-! ## The counters of circuits -/

@[simp] theorem circuits_release : (e.release c p).registry.circuits = e.registry.circuits := rfl
@[simp] theorem circuits_cancel (s : String) : (e.cancel s).registry.circuits = e.registry.circuits := rfl
@[simp] theorem circuits_note : (e.note event).registry.circuits = e.registry.circuits := rfl

@[simp] theorem circuits_enter : (e.enter x).registry.circuits = e.registry.circuits := by
  unfold enter
  split <;> rfl

@[simp] theorem circuits_leave : (e.leave x).registry.circuits = e.registry.circuits := by
  unfold leave
  split <;> rfl

/-! ## Permits -/

variable {e c p}

/-- A permit is taken by counting it, if the limit is not reached. -/
theorem acquire?_eq_some_iff {e' : Engine} : e.acquire? c p = some e' ↔
    ¬ (e.limiter c p).Full ∧ e' = e.putLimiter c p { e.limiter c p with active := (e.limiter c p).active + 1 } := by
  unfold acquire? Limiter.acquire?
  by_cases h : (e.limiter c p).Full <;> simp [h, eq_comm]

theorem exists_acquire? (h : ¬ (e.limiter c p).Full) : ∃ e', e.acquire? c p = some e' :=
  ⟨_, acquire?_eq_some_iff.mpr ⟨h, rfl⟩⟩

theorem now_acquire? {e' : Engine} (h : e.acquire? c p = some e') : e'.now = e.now := by
  rw [(acquire?_eq_some_iff.mp h).2, now_putLimiter]

theorem circuits_acquire? {e' : Engine} (h : e.acquire? c p = some e') :
    e'.registry.circuits = e.registry.circuits := by
  rw [(acquire?_eq_some_iff.mp h).2]
  rfl

theorem limiter_leave : (e.leave x).limiter c p = e.limiter c p := by
  unfold leave
  split <;> rfl

/-- The permits of the two parts are counted apart. -/
theorem limiter_putLimiter_of_ne {q : Part} (h : q ≠ p) : (e.putLimiter c p l).limiter c q = e.limiter c q := by
  rw [limiter, limiter, putLimiter, Table.get_update, if_neg (by simp [h])]

end Engine

/-! ## Work that is given up -/

@[simp] theorem Suspended.now_abandon (s : Suspended α) (e : Engine) : (s.abandon e).now = e.now := by
  induction s generalizing e with
  | waiting | hanging => rfl
  | calling f stage inner ih => rw [abandon, Engine.now_release, Engine.now_leave, ih]

@[simp] theorem Suspended.circuits_abandon (s : Suspended α) (e : Engine) :
    (s.abandon e).registry.circuits = e.registry.circuits := by
  induction s generalizing e with
  | waiting | hanging => rfl
  | calling f stage inner ih => rw [abandon, Engine.circuits_release, Engine.circuits_leave, ih]

end CallGuard
