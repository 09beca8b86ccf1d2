import CallGuard.Outcome
import CallGuard.Rolling.Counter

/-!
# Families of counters

`Stats κ` holds one rolling counter for each category in `κ`, all of one window and one origin. `Stats.create` makes the
counters one after the other, and is refused with the first of them (`create_of_not_valid`). `Stats.record` moves the
counter of one category and no other (`counter_record`). Errors in the window are the real failures; legitimate attempts
are the successes and the real failures.

The calls of a circuit are counted in `CallStats`, its fallbacks in `FallbackStats`.
-/

namespace CallGuard

open Rolling

/-- A finite type of counter names, among them the successes and the real failures. -/
class Category (κ : Type) where
  size : Nat
  index : κ → Fin size
  index_injective : ∀ {a b : κ}, index a = index b → a = b
  successes : κ
  failures : κ

instance : Category CallCategory where
  size := 7
  index
    | .successes => 0
    | .failures => 1
    | .badRequests => 2
    | .interrupts => 3
    | .timeouts => 4
    | .concurrencyRejections => 5
    | .shortCircuits => 6
  index_injective {a b} h := by cases a <;> cases b <;> first | rfl | exact absurd h (by decide)
  successes := .successes
  failures := .failures

instance : Category FallbackCategory where
  size := 5
  index
    | .successes => 0
    | .failures => 1
    | .badRequests => 2
    | .interrupts => 3
    | .concurrencyRejections => 4
  index_injective {a b} h := by cases a <;> cases b <;> first | rfl | exact absurd h (by decide)
  successes := .successes
  failures := .failures

/-- One counter for each category. -/
structure Stats (κ : Type) [Category κ] where
  counters : Vector Counter (Category.size κ)

/-- What a family of counters shows at one instant. -/
structure StatsReading (κ : Type) where
  errors : Nat
  legitimateAttempts : Nat
  counter : κ → Reading

/-- The counters of a circuit's calls. -/
abbrev CallStats := Stats CallCategory

/-- The counters of a circuit's fallbacks. -/
abbrev FallbackStats := Stats FallbackCategory

namespace Stats

variable {κ : Type} [Category κ]

/-- Counters that have seen nothing. -/
def start (window : Window) (valid : window.Valid) (origin : Int) : Stats κ :=
  ⟨Vector.replicate _ (Counter.start window valid origin)⟩

/-- `n` new counters, made one after the other until one is refused. -/
def createCounters (window : Window) (origin : Int) : (n : Nat) → Except SettingsError (Vector Counter n)
  | 0 => .ok #v[]
  | n + 1 => do
    let counters ← createCounters window origin n
    let counter ← Counter.create window origin
    .ok (counters.push counter)

/-- New counters for all categories, unless their window has a problem. -/
def create (window : Window) (origin : Int) : Except SettingsError (Stats κ) := do
  let counters ← createCounters window origin _
  .ok ⟨counters⟩

/-- The counter of a category. -/
def counter (s : Stats κ) (k : κ) : Counter := s.counters[Category.index k]

/-- Count one event of category `k` at `t`. -/
def record (s : Stats κ) (k : κ) (t : Int) : Stats κ :=
  ⟨⟨s.counters.toArray.modify (Category.index k) (·.increment t), by simp⟩⟩

/-- The real failures in the window that ends at `t`. -/
def errors (s : Stats κ) (t : Int) : Nat := (s.counter Category.failures).rollingSum t

/-- The successes and real failures in the window that ends at `t`. -/
def legitimateAttempts (s : Stats κ) (t : Int) : Nat :=
  (s.counter Category.successes).rollingSum t + (s.counter Category.failures).rollingSum t

/-- What all counters show at `t`. -/
def reading (s : Stats κ) (t : Int) : StatsReading κ where
  errors := s.errors t
  legitimateAttempts := s.legitimateAttempts t
  counter k := (s.counter k).reading t

theorem createCounters_of_valid {window : Window} (valid : window.Valid) (origin : Int) (n : Nat) :
    createCounters window origin n = .ok (Vector.replicate n (Counter.start window valid origin)) := by
  induction n with
  | zero => rfl
  | succ n ih =>
    rw [createCounters, ih, Counter.create_of_valid valid, Vector.replicate_succ]
    rfl

/-- The first counter to be made is refused, so there has to be one. -/
theorem createCounters_of_not_valid {window : Window} (h : ¬ window.Valid) (origin : Int) {n : Nat} (hn : 0 < n) :
    createCounters window origin n = .error (.invalid (window.problems Window.commonScope)) := by
  induction n with
  | zero => exact absurd hn (Nat.lt_irrefl 0)
  | succ n ih =>
    cases n with
    | zero =>
      rw [createCounters, createCounters, Counter.create_of_not_valid h]
      rfl
    | succ n =>
      rw [createCounters, ih n.succ_pos]
      rfl

theorem create_of_valid {window : Window} (valid : window.Valid) (origin : Int) :
    (create window origin : Except SettingsError (Stats κ)) = .ok (start window valid origin) := by
  rw [create, createCounters_of_valid valid]
  rfl

theorem create_of_not_valid {window : Window} (h : ¬ window.Valid) (origin : Int) :
    (create window origin : Except SettingsError (Stats κ)) =
      .error (.invalid (window.problems Window.commonScope)) := by
  rw [create, createCounters_of_not_valid h origin (Category.index Category.successes).pos]
  rfl

@[simp] theorem counter_start (window : Window) (valid : window.Valid) (origin : Int) (k : κ) :
    (start window valid origin).counter k = Counter.start window valid origin := by
  simp [counter, start]

/-- An event moves the counter of its category and no other. -/
theorem counter_record [DecidableEq κ] (s : Stats κ) (k l : κ) (t : Int) :
    (s.record k t).counter l = if k = l then (s.counter l).increment t else s.counter l := by
  have hinj : (Category.index k : Fin (Category.size κ)).val = (Category.index l).val ↔ k = l :=
    ⟨fun h => Category.index_injective (Fin.ext h), fun h => by rw [h]⟩
  simp only [record, counter, Fin.getElem_fin, Vector.getElem_mk, Array.getElem_modify, hinj, Vector.getElem_toArray]

end Stats
end CallGuard
