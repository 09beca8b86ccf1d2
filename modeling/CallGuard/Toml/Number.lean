import CallGuard.Toml.Text
import CallGuard.Toml.Value

/-!
# Numbers

An integer is written in base ten with an optional sign and no leading zero, or without a sign in base 16, 8 or 2; a
single underscore may stand between two digits. It must fit into 64 bits with a sign. A real number has a fraction, an
exponent or both after its whole part, or is `inf` or `nan`. A positive number that rounds to infinity is refused.
-/

namespace CallGuard.Toml

/-- Read digits, where one underscore may stand between two of them; the underscores are dropped. -/
def digitRun (isDigit : Char → Bool) : Scan (List Char) := fun s => do
  let (d, s) ← charOf isDigit s
  let (ds, s) := many (fun s => charOf isDigit (optional (charOf (· = '_')) s).2) s
  some (d :: ds, s)

/-- Read a sign, and tell whether it is a minus. -/
def sign (s : List Char) : Bool × List Char :=
  match s with
  | '+' :: r => (false, r)
  | '-' :: r => (true, r)
  | _ => (false, s)

/-- Read decimal digits without a leading zero, or a single zero. -/
def wholeDigits : Scan (List Char)
  | '0' :: s => some (['0'], s)
  | s => digitRun Char.isDigit s

/-! ## Integers -/

/-- The number, if it fits into 64 bits with a sign. -/
def fitting (negative : Bool) (n : Nat) : Option Value :=
  if negative then if n ≤ UInt64.size / 2 then some (.integer (-(n : Int))) else none
  else if n < UInt64.size / 2 then some (.integer n) else none

/-- Read an integer in a base other than ten, after its mark. -/
def basedInteger (base : Nat) (isDigit : Char → Bool) : Scan Value := fun s => do
  let (ds, s) ← digitRun isDigit s
  let v ← fitting false (digitsValue base ds)
  some (v, s)

/-- Read an integer. -/
def integer : Scan Value
  | '0' :: 'x' :: s => basedInteger 16 isHexDigit s
  | '0' :: 'o' :: s => basedInteger 8 (fun c => '0' ≤ c && c ≤ '7') s
  | '0' :: 'b' :: s => basedInteger 2 (fun c => c = '0' || c = '1') s
  | s => do
    let (negative, s) := sign s
    let (ds, s) ← wholeDigits s
    let v ← fitting negative (digitsValue 10 ds)
    some (v, s)

/-! ## Real numbers -/

/-- The least positive number that rounds to infinity in double precision. -/
def doubleOverflow : Nat := ((1 <<< 54) - 1) <<< 970

/-- `mantissa` times ten to the `exponent` rounds to infinity in double precision. Numbers whose count of digits shows
it are not multiplied out. -/
def overflows (mantissa : Nat) (exponent : Int) : Bool :=
  let top := (Nat.toDigits 10 mantissa).length + exponent
  if mantissa = 0 || top < 300 then false
  else if 320 < top then true
  else match exponent with
    | .ofNat e => decide (doubleOverflow ≤ mantissa * Nat.pow 10 e)
    | .negSucc e => decide (doubleOverflow * Nat.pow 10 (e + 1) ≤ mantissa)

/-- Read a fraction: a point and at least one digit. -/
def fraction : Scan (List Char)
  | '.' :: s => digitRun Char.isDigit s
  | _ => none

/-- Read an exponent. -/
def exponent : Scan Int := fun s => do
  let (_, s) ← charOf (fun c => c = 'e' || c = 'E') s
  let (negative, s) := sign s
  let (ds, s) ← digitRun Char.isDigit s
  let n : Int := digitsValue 10 ds
  some (if negative then -n else n, s)

/-- Read a fraction, an exponent, or both. -/
def fractionOrExponent : Scan (List Char × Int) := fun s =>
  match fraction s with
  | some (ds, s) =>
    let (e, s) := optional exponent s
    some ((ds, e.getD 0), s)
  | none => (exponent s).map fun (e, s) => (([], e), s)

/-- Read a real number that is written in digits. -/
def finiteReal : Scan Value := fun s => do
  let (negative, s) := sign s
  let (whole, s) ← wholeDigits s
  let ((ds, e), s) ← fractionOrExponent s
  let mantissa := digitsValue 10 (whole ++ ds)
  let e := e - ds.length
  if !negative && overflows mantissa e then none else some (.real (.finite negative mantissa e), s)

/-- Read a real number that is written as a word. -/
def wordReal : Scan Value := fun s =>
  let (negative, s) := sign s
  match s with
  | 'i' :: 'n' :: 'f' :: s => some (.real (.infinite negative), s)
  | 'n' :: 'a' :: 'n' :: s => some (.real .notANumber, s)
  | _ => none

/-- Read a number. -/
def number : Scan Value := fun s => finiteReal s <|> wordReal s <|> integer s

end CallGuard.Toml
