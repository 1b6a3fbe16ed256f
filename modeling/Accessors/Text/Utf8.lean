/-
  Accessors.Text.Utf8 — UTF-8, and what is reported of bytes that are not.

  A decoder that meets a byte no character can start with, or a byte that does not
  continue the character under way, or the end of the bytes inside a character, stops
  there and names the bytes of the piece that went wrong: those that a character could
  still have started with. Surrogates, overlong forms and code points past the last
  plane are refused at their second byte.

  `Text.Utf8.Lemmas` proves that `decode` reads what `encode` writes.
-/
import Accessors.Text.Basic

namespace Accessors.Utf8

inductive Reason where
  | startByte
  | continuationByte
  | endOfData
  deriving DecidableEq, Repr

/-- The bytes `culprit`, found at `position`, are no part of a character. -/
structure Fault where
  position : Nat
  culprit : List UInt8
  reason : Reason
  deriving DecidableEq, Repr

def Reason.text : Reason → Text
  | .startByte => "invalid start byte".toList
  | .continuationByte => "invalid continuation byte".toList
  | .endOfData => "unexpected end of data".toList

def Fault.message (f : Fault) : Text :=
  let place := match f.culprit with
    | [b] => "byte 0x".toList ++ Text.hex 2 b.toNat ++ " in position ".toList ++ Text.ofNat f.position
    | bs => "bytes in position ".toList ++ Text.ofNat f.position ++ "-".toList ++
        Text.ofNat (f.position + bs.length - 1)
  "'utf-8' codec can't decode ".toList ++ place ++ ": ".toList ++ f.reason.text

def isTail (b : UInt8) : Bool := 0x80 ≤ b && b < 0xc0

/-- Whether `b` can follow the first byte `a` of a character of three bytes. -/
def secondOfThree (a b : UInt8) : Bool := isTail b && (a != 0xe0 || 0xa0 ≤ b) && (a != 0xed || b < 0xa0)

/-- Whether `b` can follow the first byte `a` of a character of four bytes. -/
def secondOfFour (a b : UInt8) : Bool := isTail b && (a != 0xf0 || 0x90 ≤ b) && (a != 0xf4 || b < 0x90)

def charOf2 (a b : UInt8) : Char := Char.ofNat ((a.toNat - 0xc0) * 0x40 + (b.toNat - 0x80))

def charOf3 (a b c : UInt8) : Char :=
  Char.ofNat ((a.toNat - 0xe0) * 0x1000 + (b.toNat - 0x80) * 0x40 + (c.toNat - 0x80))

def charOf4 (a b c d : UInt8) : Char :=
  Char.ofNat ((a.toNat - 0xf0) * 0x40000 + (b.toNat - 0x80) * 0x1000 + (c.toNat - 0x80) * 0x40 + (d.toNat - 0x80))

/-- The character that the bytes start with and how many of them it takes, or the bytes
    that went wrong and why. -/
def readChar (a : UInt8) (r : List UInt8) : Except (List UInt8 × Reason) (Char × Nat) :=
  if a < 0x80 then .ok (Char.ofNat a.toNat, 1)
  else if a < 0xc2 then .error ([a], .startByte)
  else if a < 0xe0 then
    match r with
    | [] => .error ([a], .endOfData)
    | b :: _ => if isTail b then .ok (charOf2 a b, 2) else .error ([a], .continuationByte)
  else if a < 0xf0 then
    match r with
    | [] => .error ([a], .endOfData)
    | b :: r =>
      if !secondOfThree a b then .error ([a], .continuationByte)
      else match r with
        | [] => .error ([a, b], .endOfData)
        | c :: _ => if isTail c then .ok (charOf3 a b c, 3) else .error ([a, b], .continuationByte)
  else if a < 0xf5 then
    match r with
    | [] => .error ([a], .endOfData)
    | b :: r =>
      if !secondOfFour a b then .error ([a], .continuationByte)
      else match r with
        | [] => .error ([a, b], .endOfData)
        | c :: r =>
          if !isTail c then .error ([a, b], .continuationByte)
          else match r with
            | [] => .error ([a, b, c], .endOfData)
            | d :: _ => if isTail d then .ok (charOf4 a b c d, 4) else .error ([a, b, c], .continuationByte)
  else .error ([a], .startByte)

/-- `done` holds the characters read so far, the last first; `left` bytes of the last one
    are still to be passed over, and `position` bytes have been passed. -/
def decodeFrom (done : Text) (position : Nat) : (left : Nat) → List UInt8 → Except Fault Text
  | _, [] => .ok done.reverse
  | left + 1, _ :: r => decodeFrom done (position + 1) left r
  | 0, a :: r =>
    match readChar a r with
    | .ok (c, size) => decodeFrom (c :: done) (position + 1) (size - 1) r
    | .error (culprit, reason) => .error ⟨position, culprit, reason⟩

def decode (bytes : List UInt8) : Except Fault Text := decodeFrom [] 0 0 bytes

def encodeChar (c : Char) : List UInt8 :=
  let n := c.toNat
  if n < 0x80 then [.ofNat n]
  else if n < 0x800 then [.ofNat (0xc0 + n / 0x40), .ofNat (0x80 + n % 0x40)]
  else if n < 0x10000 then [.ofNat (0xe0 + n / 0x1000), .ofNat (0x80 + n / 0x40 % 0x40), .ofNat (0x80 + n % 0x40)]
  else [.ofNat (0xf0 + n / 0x40000), .ofNat (0x80 + n / 0x1000 % 0x40), .ofNat (0x80 + n / 0x40 % 0x40),
    .ofNat (0x80 + n % 0x40)]

def encode (t : Text) : List UInt8 := t.flatMap encodeChar

end Accessors.Utf8
