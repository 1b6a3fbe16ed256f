/-
  Accessors.Value.Reader — values read from JSON.

  The reader takes the usual grammar and the three names for numbers that are not
  finite. It stops at the first character that fits nowhere; what it says then names
  what it expected and the place by line, column and index. Of members with one name
  the first gives the place and the last the value. Lists and objects are read within
  each other to the depth that the reader is given; one that is nested deeper is not
  looked into. To tell a fault takes some levels as well, as many as the reader is given
  for it, and a number that is not finite takes one.

  Each reading function returns what it read and the text behind it, or stops with the
  text that was left at the place of the fault. A character opens no more than one part,
  and a part takes two steps to begin, so twice the length serves as fuel: `readWhole`.
-/
import Accessors.Number.IntText
import Accessors.Value.Basic

namespace Accessors.Value

inductive Cause where
  | byteOrderMark
  | value
  | memberName
  | colon
  | comma
  | extraData
  | controlCharacter
  | unterminatedString
  | escapeCharacter
  | unicodeEscape
  deriving DecidableEq, Repr

def Cause.text : Cause → Text
  | .byteOrderMark => "Unexpected UTF-8 BOM (decode using utf-8-sig)".toList
  | .value => "Expecting value".toList
  | .memberName => "Expecting property name enclosed in double quotes".toList
  | .colon => "Expecting ':' delimiter".toList
  | .comma => "Expecting ',' delimiter".toList
  | .extraData => "Extra data".toList
  | .controlCharacter => "Invalid control character at".toList
  | .unterminatedString => "Unterminated string starting at".toList
  | .escapeCharacter => "Invalid \\escape".toList
  | .unicodeEscape => "Invalid \\uXXXX escape".toList

/-- Lines and columns count from one, the index from zero. -/
structure Place where
  line : Nat
  column : Nat
  index : Nat
  deriving DecidableEq, Repr

/-- The place behind the characters of `passed`. -/
def Place.after (passed : Text) : Place :=
  ⟨passed.count '\n' + 1, (passed.reverse.takeWhile (· ≠ '\n')).length + 1, passed.length⟩

inductive ReadFault where
  | malformed (cause : Cause) (place : Place)
  | wholeNumber (fault : IntText.Fault)
  | tooDeep
  deriving DecidableEq, Repr

def ReadFault.message : ReadFault → Text
  | .malformed cause place =>
    cause.text ++ ": line ".toList ++ Text.ofNat place.line ++ " column ".toList ++ Text.ofNat place.column ++
      " (char ".toList ++ Text.ofNat place.index ++ ")".toList
  | .wholeNumber f => f.message
  | .tooDeep => []

/-- Why reading stopped, with the text from that place on. -/
inductive Stop where
  | at (cause : Cause) (left : Text)
  | wholeNumber (fault : IntText.Fault)
  | tooDeep

/-- How deep lists and objects may be nested, and the levels below a fault that telling it
    takes; a missing value is told without. -/
structure Bounds where
  depth : Nat
  margin : Nat
  deriving DecidableEq, Repr

/-- A stop where lists and objects could be nested `depth` deeper. -/
def Stop.told (margin depth : Nat) : Stop → Stop
  | .at .value left => .at .value left
  | .at cause left => if depth < margin then .tooDeep else .at cause left
  | stop => stop

abbrev Reading (α : Type) := Except Stop (α × Text)

/-- Blanks between the parts. -/
def isGap (c : Char) : Bool := c = ' ' || c = '\t' || c = '\n' || c = '\r'

def skipGap (t : Text) : Text := t.dropWhile isGap

/-! ## Strings -/

def hexValue? (c : Char) : Option Nat :=
  if '0' ≤ c ∧ c ≤ '9' then some (c.toNat - '0'.toNat)
  else if 'a' ≤ c ∧ c ≤ 'f' then some (c.toNat - 'a'.toNat + 10)
  else if 'A' ≤ c ∧ c ≤ 'F' then some (c.toNat - 'A'.toNat + 10)
  else none

/-- The number that the first four characters write in hexadecimal digits. -/
def fourHex? : Text → Option Nat
  | a :: b :: c :: d :: _ => do
    let a ← hexValue? a
    let b ← hexValue? b
    let c ← hexValue? c
    let d ← hexValue? d
    pure (((a * 16 + b) * 16 + c) * 16 + d)
  | _ => none

def letterEscape? (c : Char) : Option Nat :=
  if c = '\x22' ∨ c = '\x5c' ∨ c = '/' then some c.toNat
  else if c = 'b' then some 8
  else if c = 'f' then some 12
  else if c = 'n' then some 10
  else if c = 'r' then some 13
  else if c = 't' then some 9
  else none

/-- The text behind the start of another escape of four digits, if enough follows. -/
def secondEscape? : Text → Option Text
  | '\x5c' :: 'u' :: r => if 4 < r.length then some r else none
  | _ => none

/-- The code point of the escape whose digits start `r`, and the length of the escape.
    A high surrogate joins a low one that follows it as an escape. -/
def unicodeEscape (r : Text) : Except Stop (Nat × Nat) :=
  if r.length ≤ 4 then .error (.at .unicodeEscape ('u' :: r))
  else match fourHex? r with
    | none => .error (.at .unicodeEscape ('u' :: r))
    | some high =>
      if Codes.isHighSurrogate high then
        match secondEscape? (r.drop 4) with
        | none => .ok (high, 5)
        | some r' =>
          match fourHex? r' with
          | none => .error (.at .unicodeEscape ('u' :: r'))
          | some low =>
            if Codes.isLowSurrogate low then .ok (Codes.joinSurrogates high low, 11) else .ok (high, 5)
      else .ok (high, 5)

/-- The code point of the escape behind a backslash, and the length of the escape. -/
def escape (start : Text) : Text → Except Stop (Nat × Nat)
  | [] => .error (.at .unterminatedString start)
  | c :: r =>
    if c = 'u' then unicodeEscape r
    else match letterEscape? c with
      | some code => .ok (code, 1)
      | none => .error (.at .escapeCharacter ('\x5c' :: c :: r))

/-- `start` begins at the opening quote; `done` holds the code points so far, the last
    first, and `left` characters of an escape are still to be passed over. -/
def stringFrom (start : Text) (done : Codes) : (left : Nat) → Text → Reading Codes
  | _, [] => .error (.at .unterminatedString start)
  | left + 1, _ :: r => stringFrom start done left r
  | 0, c :: r =>
    if c = '\x22' then .ok (done.reverse, r)
    else if c = '\x5c' then
      match escape start r with
      | .ok (code, size) => stringFrom start (code :: done) size r
      | .error stop => .error stop
    else if c.toNat < 0x20 then .error (.at .controlCharacter (c :: r))
    else stringFrom start (c.toNat :: done) 0 r

/-- The string whose opening quote stood before `r`. -/
def stringAt (margin depth : Nat) (r : Text) : Reading Codes :=
  (stringFrom ('\x22' :: r) [] 0 r).mapError (Stop.told margin depth)

/-! ## Numbers -/

def isAsciiDigit (c : Char) : Bool := decide ('0' ≤ c) && decide (c ≤ '9')

def asciiValue (digits : Text) : Nat := IntText.valueOf (digits.map fun c => c.toNat - '0'.toNat)

/-- The digits before the point: a zero stands alone. -/
def wholeDigits? : Text → Option (Text × Text)
  | '0' :: r => some (['0'], r)
  | c :: r => if isAsciiDigit c then some ((c :: r).span isAsciiDigit) else none
  | [] => none

/-- The digits behind a point, if there are a point and digits. -/
def fraction : Text → Text × Text
  | '.' :: r => if (r.takeWhile isAsciiDigit).isEmpty then ([], '.' :: r) else r.span isAsciiDigit
  | t => ([], t)

/-- The exponent, if there are a mark and digits. -/
def exponent? (t : Text) : Option Int × Text :=
  match t with
  | c :: r =>
    if c = 'e' ∨ c = 'E' then
      let (negative, ds) := IntText.signOf r
      let digits := ds.takeWhile isAsciiDigit
      if digits.isEmpty then (none, t)
      else (some (if negative then -asciiValue digits else asciiValue digits), ds.dropWhile isAsciiDigit)
    else (none, t)
  | [] => (none, t)

/-- A number with its sign taken off. It is a floating-point number if it has a fraction
    or an exponent. -/
def unsigned? (negative : Bool) (t : Text) : Option (Except IntText.Fault Value × Text) :=
  match wholeDigits? t with
  | none => none
  | some (whole, r) =>
    let (frac, r) := fraction r
    let (exp, r) := exponent? r
    if frac.isEmpty && exp.isNone then
      if IntText.maxDigits < whole.length then some (.error (.tooManyDigits whole.length), r)
      else some (.ok (.int (if negative then -asciiValue whole else asciiValue whole)), r)
    else
      some (.ok (.float (Binary64.ofDecimal negative (asciiValue (whole ++ frac)) (exp.getD 0 - frac.length))), r)

def number? : Text → Option (Except IntText.Fault Value × Text)
  | '-' :: r => unsigned? true r
  | t => unsigned? false t

/-! ## Values -/

/-- The values that have a name. -/
def named : List (Text × Value) := [
  ("null".toList, .null), ("true".toList, .bool true), ("false".toList, .bool false),
  ("NaN".toList, .float .nan), ("Infinity".toList, .float (.infinite false)),
  ("-Infinity".toList, .float (.infinite true))]

def named? (t : Text) : Option (Value × Text) :=
  named.findSome? fun n => (Text.after? n.1 t).map fun r => (n.2, r)

def isFloat : Value → Bool
  | .float _ => true
  | _ => false

/-- A value that is neither a string nor made of other values. The name of a number
    takes a level. -/
def scalar (depth : Nat) (t : Text) : Reading Value :=
  match named? t with
  | some (v, r) => if depth = 0 ∧ isFloat v then .error .tooDeep else .ok (v, r)
  | none =>
    match number? t with
    | some (.ok v, r) => .ok (v, r)
    | some (.error f, _) => .error (.wholeNumber f)
    | none => .error (.at .value t)

mutual

/-- The value that `t` starts with, in which lists and objects may be nested `depth` deep. -/
def readValue (margin : Nat) : (fuel depth : Nat) → (t : Text) → Reading Value
  | 0, _, t => .error (.at .value t)
  | fuel + 1, depth, t =>
    match t, depth with
    | '\x22' :: r, depth => (stringAt margin depth r).map fun s => (.str s.1, s.2)
    | '[' :: _, 0 => .error .tooDeep
    | '[' :: r, depth + 1 =>
      match skipGap r with
      | ']' :: r => .ok (.list [], r)
      | r => readItems margin fuel depth [] r
    | '\x7b' :: _, 0 => .error .tooDeep
    | '\x7b' :: r, depth + 1 =>
      match skipGap r with
      | '\x7d' :: r => .ok (.object [], r)
      | r => readMembers margin fuel depth [] r
    | t, depth => scalar depth t

/-- The items from the one that `t` starts with to the closing bracket, behind those in
    `done`, the last first. -/
def readItems (margin : Nat) : (fuel depth : Nat) → (done : List Value) → (t : Text) → Reading Value
  | 0, _, _, t => .error (.at .value t)
  | fuel + 1, depth, done, t =>
    match readValue margin fuel depth t with
    | .error stop => .error stop
    | .ok (v, r) =>
      match skipGap r with
      | ']' :: r => .ok (.list (v :: done).reverse, r)
      | ',' :: r => readItems margin fuel depth (v :: done) (skipGap r)
      | r => .error (Stop.told margin depth (.at .comma r))

/-- The members from the one that `t` starts with to the closing brace, added to `done`. -/
def readMembers (margin : Nat) : (fuel depth : Nat) → (done : Entries Codes Value) → (t : Text) → Reading Value
  | 0, _, _, t => .error (.at .memberName t)
  | fuel + 1, depth, done, t =>
    match t with
    | '\x22' :: r =>
      match stringAt margin depth r with
      | .error stop => .error stop
      | .ok (name, r) =>
        match skipGap r with
        | ':' :: r =>
          match readValue margin fuel depth (skipGap r) with
          | .error stop => .error stop
          | .ok (v, r) =>
            match skipGap r with
            | '\x7d' :: r => .ok (.object (Entries.assign name v done), r)
            | ',' :: r => readMembers margin fuel depth (Entries.assign name v done) (skipGap r)
            | r => .error (Stop.told margin depth (.at .comma r))
        | r => .error (Stop.told margin depth (.at .colon r))
    | t => .error (Stop.told margin depth (.at .memberName t))

end

/-- A value with nothing but blanks around it. -/
def readWhole (bounds : Bounds) (t : Text) : Except Stop Value :=
  if Text.startsWith ['\ufeff'] t then .error (.at .byteOrderMark t)
  else match readValue bounds.margin (2 * t.length + 2) bounds.depth (skipGap t) with
    | .error stop => .error stop
    | .ok (v, r) => if (skipGap r).isEmpty then .ok v else .error (.at .extraData (skipGap r))

/-- The value that a text writes within the bounds. -/
def read (bounds : Bounds) (t : Text) : Except ReadFault Value :=
  match readWhole bounds t with
  | .ok v => .ok v
  | .error (.at cause left) => .error (.malformed cause (Place.after (t.take (t.length - left.length))))
  | .error (.wholeNumber f) => .error (.wholeNumber f)
  | .error .tooDeep => .error .tooDeep

end Accessors.Value
