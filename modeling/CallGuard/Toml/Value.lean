/-!
# Values of a document

A document is a tree of tables and arrays over texts, numbers, truth values and moments. A table lists its entries in
the order in which they were written; no key stands twice in a table that was read from a document.
-/

namespace CallGuard.Toml

/-- A day of the calendar. -/
structure Day where
  year : Nat
  month : Nat
  day : Nat
deriving DecidableEq, Repr

/-- A time of day, to the nanosecond. -/
structure Clock where
  hour : Nat
  minute : Nat
  second : Nat
  nanos : Nat
deriving DecidableEq, Repr

/-- A moment: a day, a time of day, or both, with or without the minutes by which its clock is ahead. -/
inductive Moment
  | day (d : Day)
  | clock (c : Clock)
  | both (d : Day) (c : Clock) (ahead : Option Int)
deriving DecidableEq, Repr

/-- A number with a fraction or an exponent. -/
inductive RealNumber
  /-- `mantissa` times ten to the `exponent`. -/
  | finite (negative : Bool) (mantissa : Nat) (exponent : Int)
  | infinite (negative : Bool)
  | notANumber
deriving DecidableEq, Repr

/-- A value of a document. -/
inductive Value
  | text (s : String)
  | integer (n : Int)
  | real (x : RealNumber)
  | boolean (b : Bool)
  | moment (m : Moment)
  | array (items : List Value)
  | table (entries : List (String × Value))
deriving Repr, Inhabited

end CallGuard.Toml
