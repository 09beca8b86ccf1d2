import CallGuard.Toml.Scan
import CallGuard.Toml.Text
import CallGuard.Toml.Value

/-!
# Moments

A moment is a day `2001-02-03`, a time of day `04:05:06.7`, or a day and a time joined by `T` or a blank, with an
optional `Z` or offset `+08:00`. The day must exist in the calendar; a second 60 is allowed everywhere. Fractions of a
second are cut to nanoseconds.
-/

namespace CallGuard.Toml

/-- Read a number of exactly `n` digits that lies between two bounds. -/
def field (n low high : Nat) : Scan Nat := fun s => do
  let (ds, s) ← exactly Char.isDigit n s
  let v := digitsValue 10 ds
  if low ≤ v ∧ v ≤ high then some (v, s) else none

/-- A year with 29 days in February. -/
def isLeapYear (year : Nat) : Bool := year % 4 = 0 && (year % 100 ≠ 0 || year % 400 = 0)

/-- The number of days of a month. -/
def daysInMonth (year month : Nat) : Nat :=
  if month = 2 then (if isLeapYear year then 29 else 28)
  else if month = 4 ∨ month = 6 ∨ month = 9 ∨ month = 11 then 30
  else 31

/-- Read a day. -/
def day : Scan Day := fun s => do
  let (year, s) ← field 4 0 9999 s
  let (_, s) ← literal ['-'] s
  let (month, s) ← field 2 1 12 s
  let (_, s) ← literal ['-'] s
  let (d, s) ← field 2 1 (daysInMonth year month) s
  some (⟨year, month, d⟩, s)

/-- The nanoseconds of a fraction of a second. -/
def fractionNanos (ds : List Char) : Nat :=
  let kept := ds.take 9
  digitsValue 10 kept * Nat.pow 10 (9 - kept.length)

/-- Read a time of day. -/
def clock : Scan Clock := fun s => do
  let (hour, s) ← field 2 0 23 s
  let (_, s) ← literal [':'] s
  let (minute, s) ← field 2 0 59 s
  let (_, s) ← literal [':'] s
  let (second, s) ← field 2 0 60 s
  match s with
  | '.' :: r =>
    let (ds, r) ← textOf Char.isDigit r
    some (⟨hour, minute, second, fractionNanos ds⟩, r)
  | _ => some (⟨hour, minute, second, 0⟩, s)

/-- Read by how many minutes a clock is ahead. -/
def offset : Scan Int
  | 'Z' :: s | 'z' :: s => some (0, s)
  | c :: s => do
    if c ≠ '+' ∧ c ≠ '-' then none
    let (hours, s) ← field 2 0 23 s
    let (_, s) ← literal [':'] s
    let (minutes, s) ← field 2 0 59 s
    let n : Int := hours * 60 + minutes
    some (if c = '-' then -n else n, s)
  | [] => none

/-- Read what joins a day and a time. -/
def joiner : Scan Char := charOf fun c => c = 'T' || c = 't' || c = ' '

/-- Read a moment. -/
def moment : Scan Moment := fun s =>
  match day s with
  | some (d, s) =>
    match joiner s >>= fun (_, r) => clock r with
    | some (c, s) =>
      let (o, s) := optional offset s
      some (.both d c o, s)
    | none => some (.day d, s)
  | none => (clock s).map fun (c, s) => (.clock c, s)

end CallGuard.Toml
