import Scribe.Text.Quote

/-!
# Reading UTF-8

Texts arrive as bytes. `encode` writes characters as UTF-8 and `decode` reads them back strictly:
overlong forms, surrogates, numbers above U+10FFFF, stray continuation bytes and truncated
sequences are refused, and the refusal names the bytes of the first sequence that is no character
and the reason.
-/

namespace Scribe.Text

/-- Why a byte sequence is no character. -/
inductive Utf8Reason where
  /-- The first byte starts no sequence. -/
  | start
  /-- A byte inside the sequence does not continue it. -/
  | continuation
  /-- The bytes end inside the sequence. -/
  | truncated
  deriving DecidableEq, Repr

/-- The first bytes of a text that are no character: where they start, the bytes, and the reason. -/
structure Utf8Error where
  position : Nat
  bytes : List UInt8
  reason : Utf8Reason
  deriving DecidableEq, Repr

/-- The reason in words. -/
def Utf8Reason.message : Utf8Reason → String
  | .start => "invalid start byte"
  | .continuation => "invalid continuation byte"
  | .truncated => "unexpected end of data"

/-- The refusal in words: a single byte is shown, several are given by their positions. -/
def Utf8Error.message (e : Utf8Error) : String :=
  match e.bytes with
  | [b] =>
    "'utf-8' codec can't decode byte 0x" ++ .ofList (hexDigits 2 b.toNat) ++ " in position "
      ++ e.position.repr ++ ": " ++ e.reason.message
  | bs =>
    "'utf-8' codec can't decode bytes in position " ++ e.position.repr ++ "-"
      ++ (e.position + bs.length - 1).repr ++ ": " ++ e.reason.message

/-- The UTF-8 bytes of a text. -/
def encode (cs : List Char) : List UInt8 :=
  cs.flatMap String.utf8EncodeChar

/-- A continuation byte. -/
def isTail (b : UInt8) : Bool :=
  0x80 ≤ b && b < 0xc0

/-- A second byte that may follow the first byte `b`. -/
def isSecond (b b₁ : UInt8) : Bool :=
  isTail b₁ && !(b == 0xe0 && b₁ < 0xa0) && !(b == 0xed && 0xa0 ≤ b₁)
    && !(b == 0xf0 && b₁ < 0x90) && !(b == 0xf4 && 0x90 ≤ b₁)

/-- The payload of a continuation byte. -/
def tailBits (b : UInt8) : Nat :=
  b.toNat - 0x80

/-- Puts a character in front of what the rest decodes to. -/
def decodeCons (n : Nat) (rest : Except Utf8Error (List Char)) : Except Utf8Error (List Char) :=
  rest.map (Char.ofNat n :: ·)

/-- The characters of the bytes that start at `position`. -/
def decodeFrom (position : Nat) : List UInt8 → Except Utf8Error (List Char)
  | [] => .ok []
  | b :: bs =>
    if b < 0x80 then decodeCons b.toNat (decodeFrom (position + 1) bs)
    else if b < 0xc2 || 0xf5 ≤ b then .error ⟨position, [b], .start⟩
    else match bs with
      | [] => .error ⟨position, [b], .truncated⟩
      | b₁ :: bs =>
        if !isSecond b b₁ then .error ⟨position, [b], .continuation⟩
        else if b < 0xe0 then
          decodeCons ((b.toNat - 0xc0) * 64 + tailBits b₁) (decodeFrom (position + 2) bs)
        else match bs with
          | [] => .error ⟨position, [b, b₁], .truncated⟩
          | b₂ :: bs =>
            if !isTail b₂ then .error ⟨position, [b, b₁], .continuation⟩
            else if b < 0xf0 then
              decodeCons ((b.toNat - 0xe0) * 4096 + tailBits b₁ * 64 + tailBits b₂)
                (decodeFrom (position + 3) bs)
            else match bs with
              | [] => .error ⟨position, [b, b₁, b₂], .truncated⟩
              | b₃ :: bs =>
                if !isTail b₃ then .error ⟨position, [b, b₁, b₂], .continuation⟩
                else
                  decodeCons ((b.toNat - 0xf0) * 262144 + tailBits b₁ * 4096 + tailBits b₂ * 64
                    + tailBits b₃) (decodeFrom (position + 4) bs)

/-- The characters of a byte sequence, or its first bytes that are no character. -/
def decode (bs : List UInt8) : Except Utf8Error (List Char) :=
  decodeFrom 0 bs

end Scribe.Text
