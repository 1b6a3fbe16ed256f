/-
  Accessors.Number.Binary64 — floating-point numbers as exact values.

  A number of the binary64 format of IEEE 754 is kept as what it stands for, so that
  reading, comparing and printing it need no machine arithmetic: a finite number is
  `± mantissa · 2 ^ exponent` with a mantissa below 2^53 and an exponent of at least
  -1074. A quotient of natural numbers becomes the nearest such number, a tie going to
  the even mantissa. Powers are those of the natural numbers (`Nat.pow`), whichever `^`
  is in scope.
-/
import Accessors.Text.Basic

namespace Accessors

inductive Binary64 where
  | nan
  | infinite (negative : Bool)
  | finite (negative : Bool) (mantissa : Nat) (exponent : Int)
  deriving DecidableEq, Repr

/-- The natural number nearest to `n / d`; of two equally near the even one. -/
def roundHalfEven (n d : Nat) : Nat :=
  let q := n / d
  let r := n % d
  if 2 * r < d then q else if d < 2 * r then q + 1 else q + q % 2

namespace Binary64

def minExponent : Int := -1074

def maxExponent : Int := 971

/-- `num / den` scaled by `2 ^ -exponent`, as a quotient. -/
def scaled (num den : Nat) (exponent : Int) : Nat × Nat :=
  if exponent < 0 then (num * Nat.pow 2 (-exponent).toNat, den) else (num, den * Nat.pow 2 exponent.toNat)

/-- The exponent at which `num / den` has a mantissa of 53 bits, or the least there is. -/
def exponentFor (num den : Nat) : Int :=
  let guess : Int := num.log2 - den.log2 - 53
  let s := scaled num den guess
  let exact := if Nat.pow 2 53 ≤ s.1 / s.2 then guess + 1 else guess
  max exact minExponent

/-- The number nearest to `± num / den`. -/
def ofRatio (negative : Bool) (num den : Nat) : Binary64 :=
  if num = 0 then .finite negative 0 minExponent
  else
    let exponent := exponentFor num den
    let s := scaled num den exponent
    let mantissa := roundHalfEven s.1 s.2
    let carried := if mantissa = Nat.pow 2 53 then (Nat.pow 2 52, exponent + 1) else (mantissa, exponent)
    if maxExponent < carried.2 then .infinite negative else .finite negative carried.1 carried.2

/-- The number nearest to `± digits · 10 ^ exponent`; far outside the range the power is
    not worked out. -/
def ofDecimal (negative : Bool) (digits : Nat) (exponent : Int) : Binary64 :=
  let magnitude : Int := (Text.ofNat digits).length + exponent
  if digits = 0 ∨ magnitude < -400 then .finite negative 0 minExponent
  else if 400 < magnitude then .infinite negative
  else if exponent < 0 then ofRatio negative digits (Nat.pow 10 (-exponent).toNat)
  else ofRatio negative (digits * Nat.pow 10 exponent.toNat) 1

/-- A mantissa scaled by its exponent, as a quotient. -/
def ratio (mantissa : Nat) (exponent : Int) : Nat × Nat := scaled mantissa 1 (-exponent)

/-- The whole number that is left without the fraction; `none` for what is not finite. -/
def truncated? : Binary64 → Option Int
  | .finite negative mantissa exponent =>
    let r := ratio mantissa exponent
    let whole : Int := (r.1 / r.2 : Nat)
    some (if negative then -whole else whole)
  | _ => none

end Binary64

end Accessors
