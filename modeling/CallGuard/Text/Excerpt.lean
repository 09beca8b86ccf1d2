/-!
# Pieces of a text without its outer blanks

An `Excerpt` is a text together with its body, the text without the blanks around it. Pieces are found in the body
and cut out of the text at the same bytes, so blanks in front of the body shift each piece, and blanks behind it
belong to the last one.

**Main statement.** In a text without outer blanks a piece is what stands between its two ends
(`between_of_append`).
-/

namespace CallGuard.Text

/-- A blank of any script: the characters that Unicode counts as white space. -/
def isBlank (c : Char) : Bool :=
  ('\t' ≤ c && c ≤ '\r') || ('\u2000' ≤ c && c ≤ '\u200A') ||
    [' ', '\u0085', '\u00A0', '\u1680', '\u2028', '\u2029', '\u202F', '\u205F', '\u3000'].contains c

/-- A text without the blanks around it. -/
def trim (s : List Char) : List Char := ((s.dropWhile isBlank).reverse.dropWhile isBlank).reverse

/-! ## Bytes -/

/-- The number of bytes of a text. -/
def size : List Char → Nat
  | [] => 0
  | c :: s => c.utf8Size + size s

/-- The characters that start at byte `n` or later. -/
def dropBytes : Nat → List Char → List Char
  | 0, s => s
  | _ + 1, [] => []
  | n + 1, c :: s => dropBytes (n + 1 - c.utf8Size) s

/-- The characters that start before byte `n`. -/
def takeBytes : Nat → List Char → List Char
  | 0, _ => []
  | _ + 1, [] => []
  | n + 1, c :: s => c :: takeBytes (n + 1 - c.utf8Size) s

theorem size_append (s t : List Char) : size (s ++ t) = size s + size t := by
  induction s with
  | nil => simp [size]
  | cons c s ih => simp only [List.cons_append, size, ih]; omega

theorem dropBytes_cons (c : Char) (n : Nat) (s : List Char) :
    dropBytes (c.utf8Size + n) (c :: s) = dropBytes n s := by
  have := c.utf8Size_pos
  obtain ⟨k, hk⟩ : ∃ k, c.utf8Size + n = k + 1 := ⟨c.utf8Size + n - 1, by omega⟩
  rw [hk, dropBytes, show k + 1 - c.utf8Size = n by omega]

theorem takeBytes_cons (c : Char) (n : Nat) (s : List Char) :
    takeBytes (c.utf8Size + n) (c :: s) = c :: takeBytes n s := by
  have := c.utf8Size_pos
  obtain ⟨k, hk⟩ : ∃ k, c.utf8Size + n = k + 1 := ⟨c.utf8Size + n - 1, by omega⟩
  rw [hk, takeBytes, show k + 1 - c.utf8Size = n by omega]

theorem dropBytes_append (s t : List Char) : dropBytes (size s) (s ++ t) = t := by
  induction s with
  | nil => cases t <;> rfl
  | cons c s ih => rw [size, List.cons_append, dropBytes_cons, ih]

theorem takeBytes_append (s t : List Char) : takeBytes (size s) (s ++ t) = s := by
  induction s with
  | nil => cases t <;> rfl
  | cons c s ih => rw [size, List.cons_append, takeBytes_cons, ih]

/-! ## Excerpts -/

/-- A text and the part of it in which pieces are looked for. -/
structure Excerpt where
  text : List Char
  body : List Char
deriving DecidableEq, Repr

namespace Excerpt

/-- A text, of which the part without outer blanks is looked at. -/
def ofText (s : List Char) : Excerpt := ⟨s, trim s⟩

/-- The piece of the text from the place on where `rest` ends the body. -/
def onward (e : Excerpt) (rest : List Char) : List Char := dropBytes (size e.body - size rest) e.text

/-- The piece of the text between the places where `start` and `rest` end the body. -/
def between (e : Excerpt) (start rest : List Char) : List Char := takeBytes (size start - size rest) (e.onward start)

theorem onward_of_append (p rest : List Char) : onward ⟨p ++ rest, p ++ rest⟩ rest = rest := by
  rw [onward, size_append, Nat.add_sub_cancel, dropBytes_append]

theorem between_of_append (p s rest : List Char) :
    between ⟨p ++ (s ++ rest), p ++ (s ++ rest)⟩ (s ++ rest) rest = s := by
  rw [between, onward_of_append, size_append, Nat.add_sub_cancel, takeBytes_append]

end Excerpt
end CallGuard.Text
