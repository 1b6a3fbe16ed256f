/-
  Accessors.Log.Field — texts and numbers laid out in a width.

  What is shorter than the field is filled up with spaces, on the left unless the field
  is aligned to the left. Numbers have a sign first, then the mark of their base, then
  digits, and can be filled up with zeros before the digits.
-/
import Accessors.Text.Codes

namespace Accessors.Log

structure Field where
  leftAligned : Bool
  /-- A number that is not negative has a plus sign. -/
  plus : Bool
  /-- A number without a sign has a space in its place. -/
  gap : Bool
  /-- A base has its mark, and a point stays with nothing behind it. -/
  marked : Bool
  zeroFilled : Bool
  width : Nat
  /-- How much of a text is shown, or how many digits of a number. -/
  precision : Option Nat
  deriving DecidableEq, Repr

/-- A number in parts, before it is laid out. -/
structure Numeral where
  negative : Bool
  mark : Text
  digits : Text
  deriving DecidableEq, Repr

/-- No field is wider, and no precision greater. -/
def maxCount : Nat := 2147483647

namespace Field

/-- The field of some flags, width and precision. A negative width aligns to the left,
    a negative precision is zero. -/
def ofCounts? (flags : Codes) (width precision : Option Int) : Option Field :=
  let width := width.getD 0
  let fits := width.natAbs ≤ maxCount ∧ ∀ p ∈ precision, -(maxCount + 1 : Int) ≤ p ∧ p ≤ maxCount
  if fits then some {
    leftAligned := flags.contains '-'.toNat || decide (width < 0)
    plus := flags.contains '+'.toNat
    gap := flags.contains ' '.toNat
    marked := flags.contains '#'.toNat
    zeroFilled := flags.contains '0'.toNat
    width := width.natAbs
    precision := precision.map Int.toNat }
  else none

/-- As much of a string as is shown. -/
def cut (f : Field) (s : Codes) : Codes :=
  match f.precision with
  | some n => s.take n
  | none => s

def text (f : Field) (s : Codes) : Codes :=
  let missing := Text.codes (Text.spaces (f.width - s.length))
  if f.leftAligned then s ++ missing else missing ++ s

def sign (f : Field) (negative : Bool) : Text :=
  if negative then ['-'] else if f.plus then ['+'] else if f.gap then [' '] else []

def number (f : Field) (n : Numeral) : Codes :=
  let head := f.sign n.negative ++ n.mark
  let missing := f.width - (head ++ n.digits).length
  if f.zeroFilled && !f.leftAligned then Text.codes (head ++ List.replicate missing '0' ++ n.digits)
  else f.text (Text.codes (head ++ n.digits))

/-- A whole number in a base, with as many digits as the precision at least. -/
def whole (f : Field) (base : Nat) (mark : Text) (n : Int) : Numeral :=
  let digits := Nat.toDigits base n.natAbs
  { negative := decide (n < 0)
    mark := if f.marked then mark else []
    digits := List.replicate (f.precision.getD 0 - digits.length) '0' ++ digits }

end Field

end Accessors.Log
