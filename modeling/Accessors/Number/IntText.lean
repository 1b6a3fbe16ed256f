/-
  Accessors.Number.IntText — whole numbers as people type them.

  An integer may stand between blanks, with one sign, in the decimal digits of any
  script, and with single underscores between digits. The information separators, blank
  elsewhere, are not blanks here. A run of more than 4300 digits is refused before it is
  worked out, and a number of more digits is not written either.
-/
import Accessors.Text.Blank
import Accessors.Text.Digit
import Accessors.Text.Quoted

namespace Accessors.IntText

inductive Fault where
  | notInteger (text : Codes)
  | tooManyDigits (count : Nat)
  /-- A number of too many digits to be written. -/
  | tooLarge
  deriving DecidableEq, Repr

def maxDigits : Nat := 4300

/-- The text is shown quoted, and no more than two hundred characters of that. -/
def Fault.message : Fault → Text
  | .notInteger t => "invalid literal for int() with base 10: ".toList ++ (Text.quotedCodes t).take 200
  | .tooManyDigits n =>
    "Exceeds the limit (".toList ++ Text.ofNat maxDigits ++
      " digits) for integer string conversion: value has ".toList ++ Text.ofNat n ++
      " digits; use sys.set_int_max_str_digits() to increase the limit".toList
  | .tooLarge =>
    "Exceeds the limit (".toList ++ Text.ofNat maxDigits ++
      " digits) for integer string conversion; use sys.set_int_max_str_digits() to increase the limit".toList

def isSpace (c : Char) : Bool := Text.isBlank c && !(decide (28 ≤ c.toNat) && decide (c.toNat ≤ 31))

/-- The digits of a run, without the underscores between them; `none` if an underscore
    stands where it may not. `fresh` says that no digit has just been passed. -/
def digitsOf? (fresh : Bool) : Text → Option (List Nat)
  | [] => if fresh then none else some []
  | c :: r =>
    if c = '_' then if fresh then none else digitsOf? true r
    else match Text.digitValue? c with
      | some d => (digitsOf? false r).map (d :: ·)
      | none => none

def valueOf (digits : List Nat) : Nat := digits.foldl (fun n d => 10 * n + d) 0

/-- The sign, and what follows it. -/
def signOf : Text → Bool × Text
  | '-' :: r => (true, r)
  | '+' :: r => (false, r)
  | r => (false, r)

def read (s : Codes) : Except Fault Int :=
  let t := Text.dropEndWhile isSpace ((Text.ofCodes s).dropWhile isSpace)
  let (negative, run) := signOf t
  match digitsOf? true (run.takeWhile fun c => c = '_' || Text.isDigit c) with
  | none => .error (.notInteger s)
  | some digits =>
    if maxDigits < digits.length then .error (.tooManyDigits digits.length)
    else if run.any (fun c => !(c = '_' || Text.isDigit c)) then .error (.notInteger s)
    else .ok (if negative then -valueOf digits else valueOf digits)

def readText (t : Text) : Except Fault Int := read t.codes

def write (n : Int) : Except Fault Text :=
  if maxDigits < (Text.ofNat n.natAbs).length then .error .tooLarge else .ok (Text.ofInt n)

end Accessors.IntText
