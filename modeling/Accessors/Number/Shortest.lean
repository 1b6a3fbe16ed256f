/-
  Accessors.Number.Shortest — the shortest decimal that reads back as the same number.

  The reals that round to a number are an interval around it, its ends included when
  the mantissa is even. A decimal of `n` digits lies on a grid; the number has two
  neighbours on it, and the first grid with a neighbour inside the interval gives the
  digits, of two such neighbours the nearer. Seventeen digits always suffice.

  `DecimalForm` says how digits become text: from where to where the point is written
  in its place, and how an exponent looks outside of that.
-/
import Accessors.Number.Binary64

namespace Accessors.Binary64

/-- Whether `x · 2 ^ s ≤ d · 10 ^ p`, or `<` if `strict`. -/
def below (strict : Bool) (x : Nat) (s : Int) (d : Nat) (p : Int) : Bool :=
  let l := x * Nat.pow 2 s.toNat * Nat.pow 10 (-p).toNat
  let r := d * Nat.pow 10 p.toNat * Nat.pow 2 (-s).toNat
  if strict then decide (l < r) else decide (l ≤ r)

/-- Whether `d · 10 ^ p ≤ x · 2 ^ s`, or `<` if `strict`. -/
def above (strict : Bool) (d : Nat) (p : Int) (x : Nat) (s : Int) : Bool :=
  let l := d * Nat.pow 10 p.toNat * Nat.pow 2 (-s).toNat
  let r := x * Nat.pow 2 s.toNat * Nat.pow 10 (-p).toNat
  if strict then decide (l < r) else decide (l ≤ r)

/-- Whether `d · 10 ^ p` rounds to `mantissa · 2 ^ exponent`: in quarters of the last
    place, the interval reaches two up and two down, but one down from a power of two. -/
def roundsBack (mantissa : Nat) (exponent : Int) (d : Nat) (p : Int) : Bool :=
  let down := if mantissa = Nat.pow 2 52 ∧ minExponent < exponent then 1 else 2
  let strict := mantissa % 2 == 1
  below strict (4 * mantissa - down) (exponent - 2) d p && above strict d p (4 * mantissa + 2) (exponent - 2)

/-- The place of the leading digit: `10 ^ (k - 1) ≤ mantissa · 2 ^ exponent < 10 ^ k`. -/
def leadingPlace (mantissa : Nat) (exponent : Int) : Int :=
  let r := ratio mantissa exponent
  (Text.ofNat (r.1 * Nat.pow 10 400 / r.2)).length - 400

/-- The nearer of the neighbours `d` and `d + 1` on the grid of `10 ^ p`; of two equally
    near the even one. -/
def nearer (mantissa : Nat) (exponent : Int) (d : Nat) (p : Int) : Nat :=
  let num := 2 * mantissa * Nat.pow 2 exponent.toNat * Nat.pow 10 (-p).toNat
  let den := Nat.pow 10 p.toNat * Nat.pow 2 (-exponent).toNat
  if num < (2 * d + 1) * den then d
  else if (2 * d + 1) * den < num then d + 1
  else d + d % 2

/-- Digits and their exponent on the first grid that has a decimal to offer, of those of
    `n` digits and more. -/
def shortestFrom (mantissa : Nat) (exponent : Int) : (left n : Nat) → Nat × Int
  | left, n =>
    let p := leadingPlace mantissa exponent - n
    let r := ratio mantissa exponent
    let d := r.1 * Nat.pow 10 (-p).toNat / (r.2 * Nat.pow 10 p.toNat)
    match left with
    | 0 => (nearer mantissa exponent d p, p)
    | left + 1 =>
      match roundsBack mantissa exponent d p, roundsBack mantissa exponent (d + 1) p with
      | true, true => (nearer mantissa exponent d p, p)
      | true, false => (d, p)
      | false, true => (d + 1, p)
      | false, false => shortestFrom mantissa exponent left (n + 1)

def shortest (mantissa : Nat) (exponent : Int) : Nat × Int := shortestFrom mantissa exponent 16 1

/-! ## Text -/

/-- How a decimal is written. The point is the count of digits before it, which may be
    negative; with a point from `firstPoint` to `lastPoint` all places are written out. -/
structure DecimalForm where
  firstPoint : Int
  lastPoint : Int
  /-- What a whole number gets behind it. -/
  wholeEnding : Text
  mark : Char
  exponentWidth : Nat
  nanText : Text
  infiniteText : Text

/-- Settings are shown with places written out from 0.0001 up to below 10^16, a whole
    number with one zero behind the point, and signed exponents of two digits at least. -/
def settingForm : DecimalForm :=
  ⟨-3, 16, ".0".toList, 'e', 2, "nan".toList, "inf".toList⟩

def exponentText (mark : Char) (width : Nat) (e : Int) : Text :=
  mark :: (if e < 0 then '-' else '+') :: Text.padded width e.natAbs

def DecimalForm.digits (form : DecimalForm) (ds : Text) (point : Int) : Text :=
  if form.firstPoint ≤ point ∧ point ≤ form.lastPoint then
    if point ≤ 0 then "0.".toList ++ List.replicate (-point).toNat '0' ++ ds
    else if ds.length ≤ point.toNat then ds ++ List.replicate (point.toNat - ds.length) '0' ++ form.wholeEnding
    else ds.take point.toNat ++ '.' :: ds.drop point.toNat
  else
    let mantissa := match ds with
      | [] => []
      | [d] => [d]
      | d :: r => d :: '.' :: r
    mantissa ++ exponentText form.mark form.exponentWidth (point - 1)

def DecimalForm.text (form : DecimalForm) : Binary64 → Text
  | .nan => form.nanText
  | .infinite negative => (if negative then ['-'] else []) ++ form.infiniteText
  | .finite negative 0 _ => (if negative then ['-'] else []) ++ '0' :: form.wholeEnding
  | .finite negative mantissa exponent =>
    let s := shortest mantissa exponent
    let ds := Text.ofNat s.1
    (if negative then ['-'] else []) ++ form.digits (Text.dropEndWhile (· = '0') ds) (ds.length + s.2)

def text (x : Binary64) : Text := settingForm.text x

end Accessors.Binary64
