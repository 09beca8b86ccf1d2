/-!
# Names of circuits

A circuit is named inside a scope; the empty scope is the common one. The label of a name, which exported series and
log events show, puts the scope and a point before the name. Names are ordered by scope and then by name, both byte by
byte, which for text in UTF-8 is the order of the code points.
-/

namespace CallGuard

/-- The name of a circuit inside a scope. -/
structure CircuitName where
  scope : String := ""
  name : String
deriving DecidableEq, Repr, Inhabited

namespace CircuitName

/-- The text of a name. -/
def label (n : CircuitName) : String :=
  if n.scope = "" then n.name else n.scope ++ "." ++ n.name

/-- The order of names. -/
def le (a b : CircuitName) : Bool :=
  decide (a.scope < b.scope) || (decide (a.scope = b.scope) && decide (a.name ≤ b.name))

/-- Names in increasing order. -/
def sort (names : List CircuitName) : List CircuitName := names.mergeSort le

end CircuitName
end CallGuard
