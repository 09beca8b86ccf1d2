/-!
# Finite tables with a default

A `Table κ ν` gives every key a value, and all but finitely many keys the default value. Its entries stand in the
order in which the keys were first written, each key once.

**Main statement.** `get_update` says what an update does to every key.
-/

namespace CallGuard

/-- Values for finitely many keys, in the order of their first writing. -/
structure Table (κ ν : Type) where
  entries : List (κ × ν) := []
deriving Repr, Inhabited

namespace Table

variable {κ ν : Type} [DecidableEq κ] [Inhabited ν]

/-- The value that stands for `k` in a list of entries. -/
def find (k : κ) : List (κ × ν) → ν
  | [] => default
  | (l, v) :: rest => if l = k then v else find k rest

/-- The value of a key. -/
def get (t : Table κ ν) (k : κ) : ν := find k t.entries

/-- Entries with the value of `k` replaced by its image under `f`. -/
def updateEntries (k : κ) (f : ν → ν) : List (κ × ν) → List (κ × ν)
  | [] => [(k, f default)]
  | (l, v) :: rest => if l = k then (l, f v) :: rest else (l, v) :: updateEntries k f rest

/-- Replace the value of a key by its image under `f`. -/
def update (t : Table κ ν) (k : κ) (f : ν → ν) : Table κ ν := ⟨updateEntries k f t.entries⟩

theorem find_updateEntries (k l : κ) (f : ν → ν) (es : List (κ × ν)) :
    find l (updateEntries k f es) = if l = k then f (find k es) else find l es := by
  induction es with
  | nil => simp only [updateEntries, find, eq_comm (a := k)]
  | cons e es ih =>
    obtain ⟨m, v⟩ := e
    by_cases hk : m = k
    · subst hk
      by_cases hl : m = l
      · simp [updateEntries, find, hl]
      · simp [updateEntries, find, hl, Ne.symm hl]
    · by_cases hl : l = k
      · subst hl
        simp [updateEntries, find, hk, ih]
      · by_cases hm : m = l <;> simp [updateEntries, find, hk, hl, hm, ih]

/-- An update changes the value of its key and of no other key. -/
theorem get_update (t : Table κ ν) (k l : κ) (f : ν → ν) :
    (t.update k f).get l = if l = k then f (t.get k) else t.get l :=
  find_updateEntries k l f t.entries

end Table
end CallGuard
