/-!
# Lengths of time

A `Duration` is a whole number of nanoseconds. Arithmetic on durations is bounded by `Duration.limit`, the largest
whole second count of 64 bits plus a last partial second: `Duration.scale?` refuses a product beyond it.

`Duration.text` writes a duration in the largest unit that it fills, with as many decimals as it needs:
`1.5s`, `20.0001ms`, `1.001µs`, `0ns`.
-/

namespace CallGuard

/-- A length of time in nanoseconds. -/
structure Duration where
  nanos : Nat
deriving DecidableEq, Repr, Inhabited

namespace Duration

/-- The number of nanoseconds in a second. -/
def perSecond : Nat := 1000000000

/-- The number of nanoseconds in a millisecond. -/
def perMilli : Nat := 1000000

/-- The number of nanoseconds in a microsecond. -/
def perMicro : Nat := 1000

/-- The first length that is too long: `2 ^ 64` seconds. -/
def limit : Nat := UInt64.size * perSecond

/-- `s` seconds and `n` nanoseconds; the nanoseconds may exceed one second. -/
def ofParts (s n : Nat) : Duration := ⟨s * perSecond + n⟩

/-- `ms` milliseconds. -/
def ofMillis (ms : Nat) : Duration := ⟨ms * perMilli⟩

/-- The whole seconds of a duration. -/
def seconds (d : Duration) : Nat := d.nanos / perSecond

/-- The nanoseconds beyond the whole seconds. -/
def subsecond (d : Duration) : Nat := d.nanos % perSecond

/-- The whole milliseconds of a duration. -/
def millis (d : Duration) : Nat := d.nanos / perMilli

/-- The whole milliseconds of a duration, and one more if there is a partial millisecond in its last second. -/
def millisUp (d : Duration) : Nat := d.millis + if d.subsecond % perMilli = 0 then 0 else 1

/-- `n` times a duration, if that is shorter than `limit`. -/
def scale? (d : Duration) (n : Nat) : Option Duration :=
  if d.nanos * n < limit then some ⟨d.nanos * n⟩ else none

/-! ## Text -/

/-- The decimals of `n / 10 ^ places`, without trailing zeros. -/
def decimals : (places n : Nat) → List Char
  | 0, _ => []
  | places + 1, n =>
    if n = 0 then [] else Nat.digitChar (n / 10 ^ places) :: decimals places (n % 10 ^ places)

/-- `whole` and, if there is a rest of `rest / 10 ^ places`, a point and its decimals. -/
def decimalText (whole places rest : Nat) : String :=
  match decimals places rest with
  | [] => toString whole
  | ds => toString whole ++ "." ++ String.ofList ds

/-- A duration in the largest unit that it fills. -/
def text (d : Duration) : String :=
  if perSecond ≤ d.nanos then decimalText (d.nanos / perSecond) 9 (d.nanos % perSecond) ++ "s"
  else if perMilli ≤ d.nanos then decimalText (d.nanos / perMilli) 6 (d.nanos % perMilli) ++ "ms"
  else if perMicro ≤ d.nanos then decimalText (d.nanos / perMicro) 3 (d.nanos % perMicro) ++ "µs"
  else toString d.nanos ++ "ns"

end Duration
end CallGuard
