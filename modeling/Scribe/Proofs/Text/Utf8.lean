import Scribe.Text.Utf8

/-!
# Reading back what was written

Decoding the UTF-8 bytes of a text gives the text back (`decode_encode`),
one character after another. A character of each length has a lemma of its
own; the bounds on its bytes are those of the encoding.
-/

namespace Scribe.Text

variable {position : Nat} {b b₁ b₂ b₃ : UInt8} {bs : List UInt8}

/-- A tail byte starts with the bits `10`. -/
theorem isTail_iff : isTail b = true ↔ 0x80 ≤ b.toNat ∧ b.toNat < 0xc0 := by
  simp [isTail, UInt8.le_iff_toNat_le, UInt8.lt_iff_toNat_lt]

/-- The second byte has a narrower range where the encoding would be too long,
a surrogate or too large. -/
theorem isSecond_iff : isSecond b b₁ = true ↔ (0x80 ≤ b₁.toNat ∧ b₁.toNat < 0xc0) ∧
    (b.toNat ≠ 0xe0 ∨ 0xa0 ≤ b₁.toNat) ∧ (b.toNat ≠ 0xed ∨ b₁.toNat < 0xa0) ∧
    (b.toNat ≠ 0xf0 ∨ 0x90 ≤ b₁.toNat) ∧ (b.toNat ≠ 0xf4 ∨ b₁.toNat < 0x90) := by
  simp [isSecond, isTail_iff, UInt8.le_iff_toNat_le, UInt8.lt_iff_toNat_lt, ← UInt8.toNat_inj,
    and_assoc]

/-! ## One character -/

theorem decodeFrom_one (h : b.toNat < 0x80) :
    decodeFrom position (b :: bs) = decodeCons b.toNat (decodeFrom (position + 1) bs) := by
  rw [decodeFrom.eq_def]
  simp [UInt8.lt_iff_toNat_lt, h]

theorem decodeFrom_two (hb : 0xc2 ≤ b.toNat ∧ b.toNat < 0xe0)
    (h₁ : 0x80 ≤ b₁.toNat ∧ b₁.toNat < 0xc0) :
    decodeFrom position (b :: b₁ :: bs) =
      decodeCons ((b.toNat - 0xc0) * 64 + tailBits b₁) (decodeFrom (position + 2) bs) := by
  have hsecond : isSecond b b₁ = true := isSecond_iff.2 (by omega)
  have hascii : ¬ b.toNat < 0x80 := by omega
  have hstart : ¬ b.toNat < 0xc2 ∧ ¬ 0xf5 ≤ b.toNat := by omega
  rw [decodeFrom.eq_def]
  simp [UInt8.lt_iff_toNat_lt, UInt8.le_iff_toNat_le, hsecond, hascii, hstart, hb.2]

theorem decodeFrom_three (hb : 0xe0 ≤ b.toNat ∧ b.toNat < 0xf0) (h₁ : isSecond b b₁ = true)
    (h₂ : isTail b₂ = true) : decodeFrom position (b :: b₁ :: b₂ :: bs) =
      decodeCons ((b.toNat - 0xe0) * 4096 + tailBits b₁ * 64 + tailBits b₂)
        (decodeFrom (position + 3) bs) := by
  have hascii : ¬ b.toNat < 0x80 := by omega
  have hstart : ¬ b.toNat < 0xc2 ∧ ¬ 0xf5 ≤ b.toNat := by omega
  have hlong : ¬ b.toNat < 0xe0 := by omega
  rw [decodeFrom.eq_def]
  simp [UInt8.lt_iff_toNat_lt, UInt8.le_iff_toNat_le, h₁, h₂, hascii, hstart, hlong, hb.2]

theorem decodeFrom_four (hb : 0xf0 ≤ b.toNat ∧ b.toNat < 0xf5) (h₁ : isSecond b b₁ = true)
    (h₂ : isTail b₂ = true) (h₃ : isTail b₃ = true) :
    decodeFrom position (b :: b₁ :: b₂ :: b₃ :: bs) =
      decodeCons ((b.toNat - 0xf0) * 262144 + tailBits b₁ * 4096 + tailBits b₂ * 64 + tailBits b₃)
        (decodeFrom (position + 4) bs) := by
  have hascii : ¬ b.toNat < 0x80 := by omega
  have hstart : ¬ b.toNat < 0xc2 ∧ ¬ 0xf5 ≤ b.toNat := by omega
  have hlong : ¬ b.toNat < 0xe0 ∧ ¬ b.toNat < 0xf0 := by omega
  rw [decodeFrom.eq_def]
  simp [UInt8.lt_iff_toNat_lt, UInt8.le_iff_toNat_le, h₁, h₂, h₃, hascii, hstart, hlong]

theorem toNat_byte {n : Nat} (h : n < 256) : (UInt8.ofNat n).toNat = n := by
  simp [UInt8.toNat_ofNat', Nat.mod_eq_of_lt h]

/-- A tail byte carries six bits. -/
theorem tailBits_byte {n : Nat} (h : n < 64) : tailBits (UInt8.ofNat (n + 128)) = n := by
  unfold tailBits
  rw [toNat_byte (by omega)]
  omega

/-- **One character** is read back, wherever it stands. -/
theorem decodeFrom_encodeChar (c : Char) (position : Nat) (bs : List UInt8) :
    ∃ next, decodeFrom position (String.utf8EncodeChar c ++ bs) =
      decodeCons c.toNat (decodeFrom next bs) := by
  have hvalid : c.val.toNat < 0xd800 ∨ 0xdfff < c.val.toNat ∧ c.val.toNat < 0x110000 := by
    simpa [UInt32.isValidChar, Nat.isValidChar] using c.valid
  simp only [String.utf8EncodeChar, Char.toNat]
  generalize c.val.toNat = v at hvalid ⊢
  have h₃ : v % 64 < 64 := Nat.mod_lt _ (by omega)
  have h₂ : v / 64 % 64 < 64 := Nat.mod_lt _ (by omega)
  have h₁ : v / 4096 % 64 < 64 := Nat.mod_lt _ (by omega)
  split
  · have h : (UInt8.ofNat v).toNat = v := toNat_byte (by omega)
    refine ⟨position + 1, ?_⟩
    rw [List.cons_append, List.nil_append, decodeFrom_one (by omega), h]
  · split
    · have h := toNat_byte (show v / 64 % 32 + 192 < 256 by omega)
      have ht₁ := toNat_byte (show v % 64 + 128 < 256 by omega)
      have hv : (v / 64 % 32 + 192 - 0xc0) * 64 + v % 64 = v := by omega
      refine ⟨position + 2, (decodeFrom_two (by omega) (by omega)).trans ?_⟩
      rw [h, tailBits_byte h₃, hv]
      rfl
    · split
      · have h := toNat_byte (show v / 4096 % 16 + 224 < 256 by omega)
        have ht₁ := toNat_byte (show v / 64 % 64 + 128 < 256 by omega)
        have ht₂ := toNat_byte (show v % 64 + 128 < 256 by omega)
        have hv : (v / 4096 % 16 + 224 - 0xe0) * 4096 + v / 64 % 64 * 64 + v % 64 = v := by omega
        refine ⟨position + 3, (decodeFrom_three (by omega) (isSecond_iff.2 (by omega))
          (isTail_iff.2 (by omega))).trans ?_⟩
        rw [h, tailBits_byte h₂, tailBits_byte h₃, hv]
        rfl
      · have h := toNat_byte (show v / 262144 % 8 + 240 < 256 by omega)
        have ht₁ := toNat_byte (show v / 4096 % 64 + 128 < 256 by omega)
        have ht₂ := toNat_byte (show v / 64 % 64 + 128 < 256 by omega)
        have ht₃ := toNat_byte (show v % 64 + 128 < 256 by omega)
        have hv : (v / 262144 % 8 + 240 - 0xf0) * 262144 + v / 4096 % 64 * 4096
            + v / 64 % 64 * 64 + v % 64 = v := by omega
        refine ⟨position + 4, (decodeFrom_four (by omega) (isSecond_iff.2 (by omega))
          (isTail_iff.2 (by omega)) (isTail_iff.2 (by omega))).trans ?_⟩
        rw [h, tailBits_byte h₁, tailBits_byte h₂, tailBits_byte h₃, hv]
        rfl

/-! ## A text -/

/-- **Decoding undoes encoding.** -/
theorem decode_encode (cs : List Char) : decode (encode cs) = .ok cs := by
  have hfrom : ∀ position, decodeFrom position (encode cs) = .ok cs := by
    induction cs with
    | nil => exact fun _ => by simp [encode, decodeFrom]
    | cons c cs ih =>
      intro position
      obtain ⟨next, hnext⟩ := decodeFrom_encodeChar c position (encode cs)
      rw [encode, List.flatMap_cons, ← encode, hnext, ih next, decodeCons, Char.ofNat_toNat]
      rfl
  exact hfrom 0

/-- Different texts have different bytes. -/
theorem encode_injective {cs ds : List Char} (h : encode cs = encode ds) : cs = ds := by
  have hdecode := decode_encode cs
  rw [h, decode_encode] at hdecode
  exact (Except.ok.inj hdecode).symm

end Scribe.Text
