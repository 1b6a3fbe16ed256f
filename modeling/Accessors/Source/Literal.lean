/-
  Accessors.Source.Literal — what type a default value shows by its shape.

  Only the shape counts: a value between two equal quotes is a string, one between
  brackets an array, and a number is told from the letters, digits and signs that it is
  made of. What is no literal at all has no type.
-/
import Accessors.Text.Blank
import Accessors.Text.Case
import Accessors.Text.Digit

namespace Accessors

inductive Literal where
  | string
  | int
  | float
  | bool
  | array
  | null
  deriving DecidableEq, Repr

namespace Literal

def name : Literal → Text
  | string => "string".toList
  | int => "int".toList
  | float => "float".toList
  | bool => "bool".toList
  | array => "array".toList
  | null => "null".toList

def isQuote (c : Char) : Bool := c = '\x27' || c = '\x22'

def unsigned : Text → Text
  | c :: r => if c = '+' ∨ c = '-' then r else c :: r
  | [] => []

/-! ## Strings and arrays -/

def isString (v : Text) : Bool :=
  match v with
  | q :: c :: r => isQuote q && (c :: r).getLast? == some q
  | _ => false

def isBracketed (v : Text) : Bool := v.head? == some '[' && v.getLast? == some ']'

/-- The word `array` in any letter case, and parentheses around whatever there is. -/
def isArrayCall (v : Text) : Bool :=
  (v.take 5).map Char.toLower == "array".toList &&
    match Text.trimStart (v.drop 5) with
    | '(' :: c :: r => (c :: r).getLast? == some ')'
    | _ => false

/-! ## Numbers -/

def isHexChar (c : Char) : Bool :=
  (decide ('0' ≤ c) && decide (c ≤ '9')) || (decide ('a' ≤ c) && decide (c ≤ 'f')) ||
    (decide ('A' ≤ c) && decide (c ≤ 'F')) || c = '_'

def isDecimalChar (c : Char) : Bool := (decide ('0' ≤ c) && decide (c ≤ '9')) || c = '_'

def isOctalChar (c : Char) : Bool := (decide ('0' ≤ c) && decide (c ≤ '7')) || c = '_'

def isBinaryChar (c : Char) : Bool := c = '0' || c = '1' || c = '_'

/-- At least one character, and all of the class. -/
def isRunOf (p : Char → Bool) (t : Text) : Bool := !t.isEmpty && t.all p

/-- A whole number without its sign: hexadecimal, binary, octal or decimal. -/
def isUnsignedInt : Text → Bool
  | '0' :: [] => true
  | '0' :: c :: r =>
    if c = 'x' ∨ c = 'X' then isRunOf isHexChar r
    else if c = 'b' ∨ c = 'B' then isRunOf isBinaryChar r
    else if c = 'o' ∨ c = 'O' then isRunOf isOctalChar r
    else (c :: r).all isOctalChar
  | c :: r => decide ('1' ≤ c) && decide (c ≤ '9') && r.all isDecimalChar
  | [] => false

def isInt (v : Text) : Bool := isUnsignedInt (unsigned v)

def isRunChar (c : Char) : Bool := Text.isDigit c || c = '_'

/-- A digit of any script, then digits and underscores. -/
def isDigitRun : Text → Bool
  | c :: r => Text.isDigit c && r.all isRunChar
  | [] => false

def isExponent : Text → Bool
  | c :: r => (c = 'e' || c = 'E') && isRunOf Text.isDigit (unsigned r)
  | [] => false

def isExponentOrNothing (t : Text) : Bool := t.isEmpty || isExponent t

/-- A floating-point number without its sign: digits with a point before, between or
    behind them, or digits with an exponent. -/
def isUnsignedFloat (v : Text) : Bool :=
  let whole := v.takeWhile isRunChar
  match v.dropWhile isRunChar with
  | '.' :: r =>
    let fraction := r.takeWhile isRunChar
    let rest := r.dropWhile isRunChar
    if fraction.isEmpty then isDigitRun whole && isExponentOrNothing rest
    else (whole.isEmpty || isDigitRun whole) && isDigitRun fraction && isExponentOrNothing rest
  | r => isDigitRun whole && isExponent r

def isFloat (v : Text) : Bool := isUnsignedFloat (unsigned v)

/-! ## The type of a value -/

/-- An expression without blanks around it and without semicolons behind it. -/
def bare (expression : Text) : Text := Text.trim (Text.dropEndWhile (· = ';') (Text.trim expression))

/-- The type of a bare value. -/
def ofBare? (v : Text) : Option Literal :=
  if isString v then some string
  else if isInt v then some int
  else if isFloat v then some float
  else if Text.lower v = "true".toList ∨ Text.lower v = "false".toList then some bool
  else if Text.lower v = "null".toList then some null
  else if isBracketed v ∨ isArrayCall v then some array
  else none

def infer? (expression : Text) : Option Literal := ofBare? (bare expression)

end Literal

end Accessors
