import Mathlib.Data.List.Basic
import Scribe.Cst.Parsed
import Scribe.Proofs.Text.Utf8

/-!
# Positions in characters and in bytes

The parser counts bytes and everything after it counts characters. `offset`
is the byte at which a character starts. Offsets keep the order of positions
(`offset_le_iff`), so a byte starts at most one character, and cutting the
bytes of a text at offsets is cutting the text (`slice_encode`).

The two counts agree on ASCII and nowhere else (`length_encode_eq_iff`).
-/

namespace Scribe.Text

variable {cs : List Char} {i j : Nat}

/-! ## Bytes of a text -/

theorem encode_append (as bs : List Char) : encode (as ++ bs) = encode as ++ encode bs :=
  List.flatMap_append

/-- A character takes one byte exactly if it is ASCII. -/
theorem length_encodeChar_cases (c : Char) :
    (c.toNat < 0x80 ∧ (String.utf8EncodeChar c).length = 1) ∨
      (0x80 ≤ c.toNat ∧ 1 < (String.utf8EncodeChar c).length) := by
  simp only [String.utf8EncodeChar, Char.toNat]
  split
  · exact .inl ⟨by omega, rfl⟩
  · refine .inr ⟨by omega, ?_⟩
    split
    · simp
    · split <;> simp

theorem length_encode_cons (c : Char) (cs : List Char) :
    (encode (c :: cs)).length = (String.utf8EncodeChar c).length + (encode cs).length := by
  rw [encode, List.flatMap_cons, List.length_append]
  rfl

/-- A text has no fewer bytes than characters. -/
theorem length_le_length_encode (cs : List Char) : cs.length ≤ (encode cs).length := by
  induction cs with
  | nil => exact Nat.le_refl 0
  | cons c cs ih =>
    have hchar := length_encodeChar_cases c
    rw [length_encode_cons, List.length_cons]
    omega

/-- **A text has as many bytes as characters** exactly if it is ASCII. -/
theorem length_encode_eq_iff (cs : List Char) :
    (encode cs).length = cs.length ↔ ∀ c ∈ cs, c.toNat < 0x80 := by
  induction cs with
  | nil => simp [encode]
  | cons c cs ih =>
    have hchar := length_encodeChar_cases c
    have hrest := length_le_length_encode cs
    rw [List.forall_mem_cons, ← ih, length_encode_cons, List.length_cons]
    omega

/-! ## Offsets -/

/-- **The byte at which the character at a position starts.** -/
def offset (cs : List Char) (i : Nat) : Nat :=
  (encode (cs.take i)).length

/-- The characters from one position up to another. -/
def segment (cs : List Char) (i j : Nat) : List Char :=
  (cs.take j).drop i

theorem take_append_segment (h : i ≤ j) : cs.take i ++ segment cs i j = cs.take j := by
  have hcut := List.take_append_drop i (cs.take j)
  rwa [List.take_take, Nat.min_eq_left h] at hcut

theorem segment_append_drop (h : i ≤ j) : segment cs i j ++ cs.drop j = cs.drop i := by
  have hcut := List.take_append_drop (j - i) (cs.drop i)
  rwa [← List.drop_take, List.drop_drop, Nat.add_sub_cancel' h] at hcut

theorem offset_add (h : i ≤ j) :
    offset cs j = offset cs i + (encode (segment cs i j)).length := by
  rw [offset, ← take_append_segment h, encode_append, List.length_append]
  rfl

theorem length_segment (hj : j ≤ cs.length) : (segment cs i j).length = j - i := by
  rw [segment, List.length_drop, List.length_take, Nat.min_eq_left hj]

/-- Between two positions of the text there is a byte. -/
theorem length_encode_segment_pos (h : i < j) (hj : j ≤ cs.length) :
    0 < (encode (segment cs i j)).length := by
  have hlength := length_le_length_encode (segment cs i j)
  rw [length_segment hj] at hlength
  omega

/-- **Offsets keep the order of positions** in the text. -/
theorem offset_le_iff (hi : i ≤ cs.length) : offset cs i ≤ offset cs j ↔ i ≤ j := by
  have hlt : ∀ {i j}, i < j → j ≤ cs.length → offset cs i < offset cs j := by
    intro i j hij hj
    rw [offset_add (Nat.le_of_lt hij)]
    exact Nat.lt_add_of_pos_right (length_encode_segment_pos hij hj)
  constructor
  · intro hle
    by_contra hji
    exact absurd (hlt (Nat.lt_of_not_le hji) hi) (Nat.not_lt.2 hle)
  · intro hij
    rw [offset_add hij]
    exact Nat.le_add_right ..

/-- **Cutting the bytes at offsets is cutting the text.** -/
theorem slice_encode (h : i ≤ j) :
    ParsedTree.slice (encode cs) (offset cs i) (offset cs j) = encode (segment cs i j) := by
  have hbytes : (encode cs).take (offset cs j) = encode (cs.take j) := by
    conv_lhs => rw [← List.take_append_drop j cs, encode_append]
    exact List.take_left' (by simp [offset])
  rw [ParsedTree.slice, hbytes, ← take_append_segment h, encode_append]
  exact List.drop_left' rfl

end Scribe.Text
