import CallGuard.Text.Excerpt

/-!
# The signs of a search pattern

A pattern is written in signs: characters, classes, and places between characters. `readEscape` reads the sign behind
a backslash.

The options of a pattern can change inside of it. There are tables neither of the case nor of the classes of all
scripts, so a pattern about all scripts may not fold the case of a character, and holds no class and no word
boundary (`Options.allows`). A pattern about ASCII may not match a part of a longer character.
-/

namespace CallGuard.Text.Pattern

/-- The options in force at a place of a pattern. -/
structure Options where
  /-- The pattern is about the characters of all scripts, not of ASCII. -/
  allScripts : Bool := true
  /-- The case of letters does not matter. -/
  foldsCase : Bool := false
  /-- Blanks and comments are no part of the pattern. -/
  spaced : Bool := false
deriving DecidableEq, Repr

/-- A sign of a pattern. -/
inductive Sign
  /-- A character; one that is written by two digits stands for a byte. -/
  | char (c : Char) (byte : Bool)
  /-- A class of characters, or all that are not in it. -/
  | charClass (outside : Bool)
  | wordBoundary
  /-- The start or the end of a text. -/
  | anchor
deriving DecidableEq, Repr

namespace Options

/-- A sign may stand in a pattern. -/
def allows (o : Options) : Sign → Bool
  | .char c byte => if o.allScripts then !o.foldsCase else !(byte && 0x80 ≤ c.toNat)
  | .charClass outside => !o.allScripts && !outside
  | .wordBoundary => !o.allScripts
  | .anchor => true

/-- A sign may stand in a set. -/
def allowsInSet (o : Options) : Sign → Bool
  | .char c _ => if o.allScripts then !o.foldsCase else c.toNat < 0x80
  | .charClass outside => !o.allScripts && !outside
  | .wordBoundary | .anchor => false

end Options

/-! ## Blanks -/

/-- A text without the blanks and comments in front; a comment runs from `#` to the end of its line. -/
def dropSpace : (comment : Bool) → List Char → List Char
  | _, [] => []
  | true, c :: s => dropSpace (c ≠ '\n') s
  | false, c :: s => if isBlank c then dropSpace false s else if c = '#' then dropSpace true s else c :: s

namespace Options

/-- A text without what the options pass over in front of it. -/
def skip (o : Options) (s : List Char) : List Char := if o.spaced then dropSpace false s else s

/-- The character that counts as the next one behind a hyphen. Blanks are passed over, and so is one mark of a
comment; if nothing else is left, it is the very next character. -/
def next? (o : Options) (s : List Char) : Option Char :=
  if o.spaced then
    (match s.dropWhile isBlank with
      | '#' :: s => (s.dropWhile isBlank).head?
      | s => s.head?) <|> s.head?
  else s.head?

end Options

/-! ## Escapes -/

/-- The value of a hexadecimal digit. -/
def hexValue? (c : Char) : Option Nat :=
  if c.isDigit then some (c.toNat - '0'.toNat)
  else if 'a' ≤ c ∧ c ≤ 'f' then some (c.toNat - 'a'.toNat + 10)
  else if 'A' ≤ c ∧ c ≤ 'F' then some (c.toNat - 'A'.toNat + 10)
  else none

/-- Read `n` hexadecimal digits, which continue the number `value`; blanks may follow each of them. -/
def readHex (o : Options) : (n value : Nat) → List Char → Option (Nat × List Char)
  | 0, value, s => some (value, s)
  | _ + 1, _, [] => none
  | n + 1, value, c :: s => do readHex o n (16 * value + (← hexValue? c)) (o.skip s)

/-- Read a character that is given by the `n` hexadecimal digits of its number. -/
def readNumbered (o : Options) (n : Nat) (s : List Char) : Option (Sign × List Char) := do
  let (value, s) ← readHex o n 0 (o.skip s)
  if value < 0xD800 ∨ 0xDFFF < value ∧ value < 0x110000 then some (.char (Char.ofNat value) (n = 2), s) else none

/-- The control characters that have a letter. -/
def controls : List (Char × Char) :=
  [('a', '\x07'), ('f', '\x0C'), ('n', '\n'), ('r', '\r'), ('t', '\t'), ('v', '\x0B')]

/-- The sign that a character stands for behind a backslash. A mark stands for itself. -/
def escaped? (c : Char) : Option Sign :=
  match controls.lookup c with
  | some control => some (.char control false)
  | none =>
    if ['d', 's', 'w'].contains c then some (.charClass false)
    else if ['D', 'S', 'W'].contains c then some (.charClass true)
    else if ['b', 'B', '<', '>'].contains c then some .wordBoundary
    else if c = 'A' ∨ c = 'z' then some .anchor
    else if c.toNat < 0x80 ∧ !c.isAlphanum then some (.char c false)
    else none

/-- Read the sign behind a backslash. -/
def readEscape (o : Options) : List Char → Option (Sign × List Char)
  | 'x' :: s => readNumbered o 2 s
  | 'u' :: s => readNumbered o 4 s
  | 'U' :: s => readNumbered o 8 s
  | c :: s => (escaped? c).map (·, s)
  | [] => none

end CallGuard.Text.Pattern
