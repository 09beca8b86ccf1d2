import CallGuard.Toml.Scan

/-!
# Quoted texts

Texts stand in double quotes with escapes or in single quotes without, on one line; or in three quotes of either kind
on several lines. A line end directly after the opening three quotes is dropped, and every other line end is read as a
line feed. In double quotes on several lines, a backslash at the end of a line drops the line end and all blanks and
line ends after it. One or two quotes may stand before the closing three.
-/

namespace CallGuard.Toml

/-- A character that stands for itself in double quotes. -/
def isPlain (c : Char) : Bool := isCommentChar c && c ≠ '"' && c ≠ '\\'

/-- A character that stands for itself in single quotes. -/
def isRaw (c : Char) : Bool := isCommentChar c && c ≠ '\''

/-- A hexadecimal digit. -/
def isHexDigit (c : Char) : Bool := c.isDigit || ('a' ≤ c && c ≤ 'f') || ('A' ≤ c && c ≤ 'F')

/-- The value of a digit in a base up to 16. -/
def digitValue (c : Char) : Nat :=
  if c.isDigit then c.toNat - '0'.toNat
  else if 'a' ≤ c then c.toNat - 'a'.toNat + 10
  else c.toNat - 'A'.toNat + 10

/-- The number that digits write in a base. -/
def digitsValue (base : Nat) (ds : List Char) : Nat := ds.foldl (fun n d => n * base + digitValue d) 0

/-- Read `n` hexadecimal digits that are the code of a character. -/
def codePoint (n : Nat) : Scan Char := fun s => do
  let (ds, s) ← exactly isHexDigit n s
  let code := digitsValue 16 ds
  if code.isValidChar then some (Char.ofNat code, s) else none

/-- Read what follows the backslash of an escape. -/
def escaped : Scan Char
  | 'b' :: s => some ('\x08', s)
  | 't' :: s => some ('\t', s)
  | 'n' :: s => some ('\n', s)
  | 'f' :: s => some ('\x0c', s)
  | 'r' :: s => some ('\r', s)
  | '"' :: s => some ('"', s)
  | '\\' :: s => some ('\\', s)
  | 'u' :: s => codePoint 4 s
  | 'U' :: s => codePoint 8 s
  | _ => none

/-- Read a piece of a text in double quotes. -/
def plainPiece : Scan (List Char)
  | '\\' :: s => (escaped s).map fun (c, r) => ([c], r)
  | s => textOf isPlain s

/-- Read a text in double quotes. -/
def basicText : Scan String
  | '"' :: s =>
    match many plainPiece s with
    | (cs, '"' :: rest) => some (String.ofList cs.flatten, rest)
    | _ => none
  | _ => none

/-- Read a text in single quotes. -/
def rawText : Scan String
  | '\'' :: s =>
    match s.span isRaw with
    | (cs, '\'' :: rest) => some (String.ofList cs, rest)
    | _ => none
  | _ => none

/-! ## Several lines -/

/-- Read a backslash that ends a line, the line end, and all blanks and line ends after it. -/
def lineContinuation : Scan (List Char)
  | '\\' :: s => do
    let (_, s) ← newline (dropBlanks s)
    some ([], (many (fun s => ((textOf isBlank s).map fun (_, r) => ((), r)) <|> newline s) s).2)
  | _ => none

/-- Read a line end as a line feed. -/
def lineFeed : Scan (List Char) := fun s => (newline s).map fun (_, r) => (['\n'], r)

/-- Read a quote that is not the first of three. -/
def innerQuote (q : Char) : Scan (List Char)
  | a :: b :: c :: s => if a = q && !(b = q && c = q) then some ([a], b :: c :: s) else none
  | a :: s => if a = q then some ([a], s) else none
  | [] => none

/-- Read the closing three quotes and up to two quotes before them, which belong to the text. -/
def closingQuotes (q : Char) : Scan (List Char) := fun s =>
  match s.span (· = q) with
  | (qs, rest) =>
    if qs.length < 3 then none
    else
      let inner := min (qs.length - 3) 2
      some (qs.take inner, qs.drop (inner + 3) ++ rest)

/-- Read a text between three quotes each, made of the given pieces. -/
def longText (q : Char) (piece : Scan (List Char)) : Scan String := fun s => do
  let (_, s) ← literal [q, q, q] s
  let (_, s) := optional newline s
  let (cs, s) := many (fun s => piece s <|> lineFeed s <|> innerQuote q s) s
  let (last, s) ← closingQuotes q s
  some (String.ofList (cs.flatten ++ last), s)

/-- Read a text of several lines in double quotes. -/
def longBasicText : Scan String := longText '"' fun s => lineContinuation s <|> plainPiece s

/-- Read a text of several lines in single quotes. -/
def longRawText : Scan String := longText '\'' (textOf isRaw)

/-- Read any quoted text. -/
def quotedText : Scan String := fun s => longBasicText s <|> longRawText s <|> basicText s <|> rawText s

end CallGuard.Toml
