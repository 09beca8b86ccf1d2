import Mathlib.Tactic.SplitIfs

/-!
# The order of texts by their bytes

Texts are compared character by character, by the numbers of the characters. In UTF-8 a greater number has a longer row
of bytes, which begins with a greater byte, or a row of the same length, which is greater at the first byte that
differs. Rows of bytes are therefore ordered as their texts are (`Text.bytes_lt`).
-/

namespace CallGuard.Text

/-! ## Rows of bytes -/

/-- Two rows of bytes have a common beginning, and the first byte after it is less in the first row. -/
def Apart (l m : List UInt8) : Prop := ∃ p x y s t, l = p ++ x :: s ∧ m = p ++ y :: t ∧ x < y

namespace Apart

variable {l m : List UInt8} {x y : UInt8}

theorem head (h : x < y) (s t : List UInt8) : Apart (x :: s) (y :: t) := ⟨[], x, y, s, t, rfl, rfl, h⟩

theorem last (h : x < y) (p : List UInt8) : Apart (p ++ [x]) (p ++ [y]) := ⟨p, x, y, [], [], rfl, rfl, h⟩

theorem append (h : Apart l m) (u v : List UInt8) : Apart (l ++ u) (m ++ v) := by
  obtain ⟨p, x, y, s, t, rfl, rfl, hxy⟩ := h
  exact ⟨p, x, y, s ++ u, t ++ v, by simp, by simp, hxy⟩

theorem lt (h : Apart l m) : l < m := by
  obtain ⟨p, x, y, s, t, rfl, rfl, hxy⟩ := h
  induction p with
  | nil => exact List.Lex.rel hxy
  | cons z p ih => exact List.Lex.cons ih

end Apart

theorem ofNat_lt {a b : Nat} (hb : b < 256) (h : a < b) : UInt8.ofNat a < UInt8.ofNat b := by
  have hsize : UInt8.size = 256 := rfl
  rw [UInt8.lt_iff_toNat_lt, UInt8.toNat_ofNat_of_lt' (by omega), UInt8.toNat_ofNat_of_lt' (by omega)]
  exact h

/-! ## Characters -/

/-- The last six bits of a number, marked as a byte that goes on. -/
def tail (v : Nat) : UInt8 := UInt8.ofNat (v % 64 + 128)

/-- If the bits before the last six do not tell which number is greater, the last six do. -/
theorem apart_snoc {l m : List UInt8} {v w : Nat} (hvw : v < w) (hlt : v / 64 < w / 64 → Apart l m)
    (heq : v / 64 = w / 64 → l = m) :
    Apart (l ++ [tail v]) (m ++ [tail w]) := by
  rcases Nat.lt_or_eq_of_le (Nat.div_le_div_right (c := 64) (Nat.le_of_lt hvw)) with hdiv | hdiv
  · exact (hlt hdiv).append _ _
  · rw [heq hdiv]
    exact Apart.last (ofNat_lt (by omega) (by omega)) _

/-- The bytes of the character of number `v`. -/
def encode (v : Nat) : List UInt8 :=
  if v ≤ 0x7f then [UInt8.ofNat v]
  else if v ≤ 0x7ff then [UInt8.ofNat (v / 64 % 32 + 192)] ++ [tail v]
  else if v ≤ 0xffff then [UInt8.ofNat (v / 4096 % 16 + 224)] ++ [tail (v / 64)] ++ [tail v]
  else [UInt8.ofNat (v / 262144 % 8 + 240)] ++ [tail (v / 4096)] ++ [tail (v / 64)] ++ [tail v]

theorem utf8EncodeChar_eq (c : Char) : String.utf8EncodeChar c = encode c.val.toNat := rfl

/-- A longer row of bytes begins with a greater byte; rows of one length differ as their numbers do. -/
theorem apart_encode {v w : Nat} (h : v < w) (hw : w < 0x110000) : Apart (encode v) (encode w) := by
  have head {a b : Nat} (hab : a < b) (hb : b < 256) (s t : List UInt8) :
      Apart (UInt8.ofNat a :: s) (UInt8.ofNat b :: t) := Apart.head (ofNat_lt hb hab) s t
  unfold encode
  split_ifs <;> try omega
  · exact head h (by omega) _ _
  · exact head (by omega) (by omega) _ _
  · exact head (by omega) (by omega) _ _
  · exact head (by omega) (by omega) _ _
  · refine apart_snoc h (fun _ => head (by omega) (by omega) _ _) (fun h₁ => ?_)
    rw [h₁]
  · exact head (by omega) (by omega) _ _
  · exact head (by omega) (by omega) _ _
  · refine apart_snoc h (fun h₁ => ?_) (fun h₁ => ?_)
    · refine apart_snoc h₁ (fun _ => head (by omega) (by omega) _ _) (fun h₂ => ?_)
      rw [show v / 4096 = w / 4096 by omega]
    · rw [h₁, show v / 4096 = w / 4096 by omega]
  · exact head (by omega) (by omega) _ _
  · refine apart_snoc h (fun h₁ => ?_) (fun h₁ => ?_)
    · refine apart_snoc h₁ (fun h₂ => ?_) (fun h₂ => ?_)
      · rw [Nat.div_div_eq_div_mul, Nat.div_div_eq_div_mul] at h₂
        refine apart_snoc h₂ (fun _ => head (by omega) (by omega) _ _) (fun h₃ => ?_)
        rw [show v / 262144 = w / 262144 by omega]
      · rw [show v / 262144 = w / 262144 by omega, show v / 4096 = w / 4096 by omega]
    · rw [h₁, show v / 262144 = w / 262144 by omega, show v / 4096 = w / 4096 by omega]

theorem toNat_lt (c : Char) : c.val.toNat < 0x110000 := by
  rcases c.valid with h | h <;> omega

/-! ## Texts -/

/-- A text in UTF-8. -/
def bytes (s : String) : List UInt8 := s.toUTF8.data.toList

theorem bytes_eq (s : String) : bytes s = s.toList.flatMap String.utf8EncodeChar := by
  have h : (String.ofList s.toList).toUTF8 = s.toList.utf8Encode := rfl
  rw [String.ofList_toList] at h
  rw [bytes, h, List.utf8Encode, List.toList_data_toByteArray]

/-- **The order of texts by their characters is the order by their bytes.** -/
theorem bytes_lt {a b : String} (h : a < b) : bytes a < bytes b := by
  rw [bytes_eq, bytes_eq]
  have hlex : a.toList < b.toList := h
  generalize a.toList = l at hlex
  generalize b.toList = m at hlex
  induction hlex with
  | @nil d m =>
    rw [List.flatMap_nil, List.flatMap_cons]
    cases hd : String.utf8EncodeChar d with
    | nil => exact absurd hd String.utf8EncodeChar_ne_nil
    | cons x r => exact List.Lex.nil
  | cons hlex ih =>
    rw [List.flatMap_cons, List.flatMap_cons]
    exact List.append_left_lt ih
  | rel hcd =>
    rw [List.flatMap_cons, List.flatMap_cons, utf8EncodeChar_eq, utf8EncodeChar_eq]
    exact ((apart_encode hcd (toNat_lt _)).append _ _).lt

end CallGuard.Text
