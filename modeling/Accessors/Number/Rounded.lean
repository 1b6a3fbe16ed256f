/-
  Accessors.Number.Rounded — numbers with as many digits as are asked for.

  Digits lie on a decimal grid, and the number is rounded to it, a half to the even
  neighbour. The grid is given by its last place, or by the count of digits from the
  first one on. The digits are then written with the point in its place, or with the
  point behind the first of them and an exponent. Signs are left to the caller.
-/
import Accessors.Number.Shortest

namespace Accessors.Binary64

/-- How many digits a number gets. -/
inductive Precision where
  /-- So many behind the point. -/
  | places (n : Nat)
  /-- So many behind the point, which has one digit before it; with an exponent. -/
  | scientific (n : Nat)
  /-- So many in all, but one at least; with an exponent only if there are places for
      more digits before the point, or more than three zeros behind it. -/
  | digits (n : Nat)
  deriving DecidableEq, Repr

/-- Every finite number ends at this place behind the point, and before it has had as
    many digits: from there on are zeros only. -/
def lastPlace : Nat := 1074

/-! ## Digits -/

/-- The digits up to a place behind the point, one before it at least. -/
def fixedDigits (mantissa : Nat) (exponent : Int) (places : Nat) : Text :=
  let r := ratio mantissa exponent
  Text.padded (places + 1) (roundHalfEven (r.1 * Nat.pow 10 places) r.2)

/-- The first `count` digits, and how many of them stand before the point. -/
def firstDigits (mantissa : Nat) (exponent : Int) (count : Nat) : Text × Int :=
  let point := leadingPlace mantissa exponent
  let p := point - count
  let r := ratio mantissa exponent
  let ds := Text.ofNat (roundHalfEven (r.1 * Nat.pow 10 (-p).toNat) (r.2 * Nat.pow 10 p.toNat))
  (ds.take count, point + (ds.length - count))

def zeros (n : Nat) : Text := List.replicate n '0'

/-- The first `count` digits of any number, with zeros where none are left. -/
def leadingDigits (mantissa : Nat) (exponent : Int) (count : Nat) : Text × Int :=
  if mantissa = 0 then (zeros count, 1)
  else
    let d := firstDigits mantissa exponent (min count lastPlace)
    (d.1 ++ zeros (count - lastPlace), d.2)

/-! ## Text -/

/-- Digits with a point behind the first `whole`; at the end it stands only if `keep`. -/
def pointed (keep : Bool) (ds : Text) (whole : Nat) : Text :=
  match ds.drop whole with
  | [] => if keep then ds ++ ['.'] else ds
  | places => ds.take whole ++ '.' :: places

/-- Digits with the point in its place, which may lie outside of them. -/
def positional (keep : Bool) (ds : Text) (point : Int) : Text :=
  if point ≤ 0 then pointed keep ('0' :: zeros (-point).toNat ++ ds) 1
  else pointed keep (ds ++ zeros (point.toNat - ds.length)) point.toNat

def withExponent (keep : Bool) (ds : Text) (point : Int) : Text :=
  pointed keep ds 1 ++ exponentText 'e' 2 (point - 1)

/-- The text of `mantissa · 2 ^ exponent`. With `keep` no zeros are left out at the end,
    and the point stays even with nothing behind it. -/
def Precision.text (keep : Bool) (mantissa : Nat) (exponent : Int) : Precision → Text
  | .places n =>
    let ds := fixedDigits mantissa exponent (min n lastPlace)
    pointed keep (ds ++ zeros (n - lastPlace)) (ds.length - min n lastPlace)
  | .scientific n =>
    let d := leadingDigits mantissa exponent (n + 1)
    withExponent keep d.1 d.2
  | .digits n =>
    let count := max n 1
    let d := leadingDigits mantissa exponent count
    let ds := if keep then d.1 else Text.dropEndWhile (· = '0') d.1
    if -4 < d.2 ∧ d.2 ≤ count then positional keep ds d.2 else withExponent keep ds d.2

/-- The text of a number without its sign. -/
def rounded (keep : Bool) (p : Precision) : Binary64 → Text
  | .nan => "nan".toList
  | .infinite _ => "inf".toList
  | .finite _ mantissa exponent => p.text keep mantissa exponent

def isNegative : Binary64 → Bool
  | .nan => false
  | .infinite negative => negative
  | .finite negative _ _ => negative

example : rounded false (.places 0) (ofRatio false 5 2) = "2".toList := by decide
example : rounded false (.places 2) (ofRatio false 1005 1000) = "1.00".toList := by decide
example : rounded false (.scientific 3) (ofRatio false 99996 10000) = "1.000e+01".toList := by decide +kernel
example : rounded false (.digits 6) (ofRatio false 1 10000) = "0.0001".toList := by decide +kernel
example : rounded true (.digits 6) (ofRatio false 3 1) = "3.00000".toList := by decide +kernel

end Accessors.Binary64
