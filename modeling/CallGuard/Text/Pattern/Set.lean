import CallGuard.Text.Pattern.Sign

/-!
# The sets of a search pattern

A set stands in brackets. It holds signs, ranges of characters, named classes and further sets, in unions that `&&`,
`--` and `~~` combine from left to right. A circumflex at its head makes it a complement. Hyphens at its head are
characters of it, and so is a closing bracket right at its head.

`readSet` reads a set and answers how deeply its parts are nested.
-/

namespace CallGuard.Text.Pattern

/-- How deeply the union of some parts is nested: a single part is not wrapped. -/
def nesting : List Nat → Nat
  | [] => 0
  | [n] => n
  | ns => 1 + ns.foldl max 0

/-- The names of classes of ASCII characters. -/
def classNames : List String :=
  ["alnum", "alpha", "ascii", "blank", "cntrl", "digit", "graph", "lower", "print", "punct", "space", "upper", "word",
    "xdigit"]

/-- Read a named class behind its opening bracket, as in `[:alpha:]`; a circumflex before the name asks for what is
not in the class. -/
def readClass : List Char → Option (Bool × List Char)
  | ':' :: s =>
    let (outside, s) := match s with
      | '^' :: s => (true, s)
      | s => (false, s)
    match s.span (· ≠ ':') with
    | (name, ':' :: ']' :: s) => if classNames.contains (String.ofList name) then some (outside, s) else none
    | _ => none
  | _ => none

/-- The parts of a set that have been read: the nesting of each part of its last union, and of what is combined with
that union. -/
structure SetParts where
  combined : Option Nat := none
  union : List Nat := []
deriving DecidableEq, Repr

namespace SetParts

/-- A set with one more part. -/
def push (p : SetParts) (n : Nat) : SetParts := { p with union := n :: p.union }

/-- How deeply a set is nested. -/
def nesting (p : SetParts) : Nat :=
  match p.combined with
  | none => Pattern.nesting p.union
  | some n => 1 + max n (Pattern.nesting p.union)

/-- The set in which an operation follows. -/
def combine (p : SetParts) : SetParts := { combined := some p.nesting }

end SetParts

/-- How far the head of a set has been read. -/
inductive SetHead
  /-- Nothing stands behind the opening bracket. -/
  | opened
  /-- A circumflex, hyphens or both stand behind it. -/
  | begun
  /-- The head is over. -/
  | over
deriving DecidableEq, Repr

/-- A set in reading, with the sets around it from the inside out. -/
structure SetReading where
  head : SetHead := .opened
  parts : SetParts := {}
  outer : List SetParts := []
deriving DecidableEq, Repr

namespace SetReading

/-- The reading with one more part of the innermost set. -/
def push (r : SetReading) (n : Nat) : SetReading := { r with head := .over, parts := r.parts.push n }

/-- Read a sign of a set. -/
def readSign (o : Options) : List Char → Option (Sign × List Char)
  | '\\' :: s => readEscape o s
  | c :: s => some (.char c false, s)
  | [] => none

/-- Read a sign, or the two ends of a range with a hyphen between them. -/
def readRange (o : Options) (s : List Char) : Option (List Char) := do
  let (first, s) ← readSign o s
  if !o.allowsInSet first then none
  else
    let s := o.skip s
    match s with
    | '-' :: rest =>
      if o.next? rest = some ']' ∨ o.next? rest = some '-' then some s
      else
        let (last, rest) ← readSign o (o.skip rest)
        match first, last with
        | .char a _, .char b _ => if o.allowsInSet last && a ≤ b then some rest else none
        | _, _ => none
    | _ => some s

/-- Read a part of the innermost set. The answer is the reading that goes on, or the nesting of the whole set. -/
def step (o : Options) (r : SetReading) (s : List Char) : Option ((SetReading ⊕ Nat) × List Char) :=
  let char (c : Char) (head : SetHead) (s : List Char) :=
    if o.allowsInSet (.char c false) then some (.inl { r.push 0 with head }, s) else none
  let operation (s : List Char) := some (.inl { r with head := .over, parts := r.parts.combine }, s)
  match r.head, s with
  | .opened, '^' :: s => if o.allScripts then some (.inl { r with head := .begun }, s) else none
  | .opened, '-' :: s | .begun, '-' :: s => char '-' .begun s
  | head, ']' :: s =>
    if head ≠ .over ∧ r.parts.union = [] then char ']' .over s
    else match r.outer with
      | [] => some (.inr r.parts.nesting, s)
      | p :: outer => some (.inl { head := .over, parts := p.push (1 + r.parts.nesting), outer }, s)
  | _, '[' :: s =>
    match readClass s with
    | some (outside, s) =>
      if o.allowsInSet (.char 'a' false) && (o.allScripts || !outside) then some (.inl (r.push 0), s) else none
    | none => some (.inl { outer := r.parts :: r.outer }, s)
  | _, '&' :: '&' :: s => operation s
  | _, '-' :: '-' :: s => operation s
  | _, '~' :: '~' :: s => operation s
  | _, s => (readRange o s).map fun s => (.inl (r.push 0), s)

/-- Read on to the end of the outermost set, in at most as many parts as `bound` has characters. -/
def read (o : Options) : (bound : List Char) → SetReading → List Char → Option (Nat × List Char)
  | [], _, _ => none
  | _ :: bound, r, s =>
    match r.step o (o.skip s) with
    | some (.inl r, rest) => read o bound r rest
    | some (.inr n, rest) => some (n, rest)
    | none => none

end SetReading

/-- Read a set behind its opening bracket; the answer is its nesting. Each part takes at least a character of the
text, so the text is bound enough. -/
def readSet (o : Options) (s : List Char) : Option (Nat × List Char) := SetReading.read o s {} s

end CallGuard.Text.Pattern
