/-!
# Scanners

A scanner reads a value off the front of a text and returns the rest, or fails. `many` applies a scanner as often as
it succeeds, up to once for each character of the text, so it ends whatever the scanner does.
-/

namespace CallGuard.Toml

/-- Read a value off the front of a text. -/
abbrev Scan (α : Type) := List Char → Option (α × List Char)

variable {α : Type}

/-- Read one character with a property. -/
def charOf (p : Char → Bool) : Scan Char
  | c :: s => if p c then some (c, s) else none
  | [] => none

/-- Read the given text. -/
def literal : List Char → Scan Unit
  | [], s => some ((), s)
  | c :: cs, d :: s => if c = d then literal cs s else none
  | _ :: _, [] => none

/-- Read the longest text of characters with a property, which must not be empty. -/
def textOf (p : Char → Bool) : Scan (List Char) := fun s =>
  match s.span p with
  | ([], _) => none
  | (cs, rest) => some (cs, rest)

/-- Read exactly `n` characters with a property. -/
def exactly (p : Char → Bool) : Nat → Scan (List Char)
  | 0, s => some ([], s)
  | n + 1, s => do
    let (c, s) ← charOf p s
    let (cs, s) ← exactly p n s
    some (c :: cs, s)

/-- Read with a scanner as often as it succeeds, up to once for each character of `bound`. -/
def manyUpTo (p : Scan α) : (bound s : List Char) → List α × List Char
  | [], s => ([], s)
  | _ :: bound, s =>
    match p s with
    | none => ([], s)
    | some (a, rest) =>
      let (as, last) := manyUpTo p bound rest
      (a :: as, last)

/-- Read with a scanner as often as it succeeds. The text itself is bound enough for a scanner that shortens it. -/
def many (p : Scan α) (s : List Char) : List α × List Char := manyUpTo p s s

/-- Read with a scanner if it succeeds. -/
def optional (p : Scan α) (s : List Char) : Option α × List Char :=
  match p s with
  | some (a, rest) => (some a, rest)
  | none => (none, s)

/-! ## Blanks, line ends and comments -/

/-- A blank inside a line. -/
def isBlank (c : Char) : Bool := c = ' ' || c = '\t'

/-- A character beyond ASCII. -/
def isWide (c : Char) : Bool := 0x80 ≤ c.toNat

/-- A character that a comment may hold. -/
def isCommentChar (c : Char) : Bool := c = '\t' || (0x20 ≤ c.toNat && c.toNat ≤ 0x7E) || isWide c

/-- Drop blanks. -/
def dropBlanks (s : List Char) : List Char := s.dropWhile isBlank

/-- Read a line end. -/
def newline : Scan Unit
  | '\n' :: s => some ((), s)
  | '\r' :: '\n' :: s => some ((), s)
  | _ => none

/-- Read a comment up to its line end. -/
def comment : Scan Unit
  | '#' :: s => some ((), s.dropWhile isCommentChar)
  | _ => none

/-- Read a line end, or nothing at the end of the text. -/
def lineEnd : Scan Unit
  | [] => some ((), [])
  | s => newline s

/-- Read what may follow on the line of a statement: blanks, a comment and the line end. -/
def restOfLine : Scan Unit := fun s => lineEnd (optional comment (dropBlanks s)).2

/-- Drop blanks, line ends and comments. -/
def dropLayout (s : List Char) : List Char :=
  (many (fun s => ((textOf isBlank s).map fun (_, r) => ((), r)) <|> newline s <|> comment s) s).2

end CallGuard.Toml
