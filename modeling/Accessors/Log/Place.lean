/-
  Accessors.Log.Place — the places of a message, where arguments are put in.

  A percent sign starts a place. Behind it stand, each if it is wanted and in this
  order: a key in parentheses, which may hold pairs of them; flags; a width; a point
  and a precision, which is zero if nothing else is written; and a letter for the size
  of the argument, which does nothing. The letter of a style ends the place. A width or
  a precision is written in digits, or it is an asterisk and an argument gives it. Two
  percent signs stand for one.
-/
import Accessors.Entries
import Accessors.Text.Codes

namespace Accessors.Log

/-- How a value is shown; some numbers with capital letters, if wanted. -/
inductive Style where
  | plain
  | quoted
  | ascii
  | character
  | decimal
  | octal
  | hexadecimal (capitals : Bool)
  | places (capitals : Bool)
  | scientific (capitals : Bool)
  | digits (capitals : Bool)
  deriving DecidableEq, Repr

/-- A width or a precision. -/
inductive Count where
  | written (n : Nat)
  /-- The next argument gives it. -/
  | argument
  deriving DecidableEq, Repr

structure Place where
  key : Option Codes
  flags : Codes
  width : Option Count
  precision : Option Count
  style : Style
  deriving DecidableEq, Repr

/-- A part of a message. -/
inductive Piece where
  | code (code : Nat)
  | place (p : Place)
  deriving DecidableEq, Repr

/-! ## Reading a place -/

def Style.letters : List (Char × Style) := [
  ('s', .plain), ('r', .quoted), ('a', .ascii), ('c', .character),
  ('d', .decimal), ('i', .decimal), ('u', .decimal), ('o', .octal), ('x', .hexadecimal false), ('X', .hexadecimal true),
  ('f', .places false), ('F', .places true), ('e', .scientific false), ('E', .scientific true),
  ('g', .digits false), ('G', .digits true)]

def Style.ofCode? (code : Nat) : Option Style := Entries.find? (Text.charOfCode code) letters

def isFlag (code : Nat) : Bool := (Text.codes "-+ #0".toList).contains code

def isSize (code : Nat) : Bool := (Text.codes "hlL".toList).contains code

def isDigit (code : Nat) : Bool := decide ('0'.toNat ≤ code) && decide (code ≤ '9'.toNat)

/-- The key up to the parenthesis that closes it, with `depth` more to be closed before,
    and what follows. -/
def keyFrom? (depth : Nat) : Codes → Option (Codes × Codes)
  | [] => none
  | c :: r =>
    if c = ')'.toNat ∧ depth = 0 then some ([], r)
    else
      let depth := if c = '('.toNat then depth + 1 else if c = ')'.toNat then depth - 1 else depth
      (keyFrom? depth r).map fun k => (c :: k.1, k.2)

def valueOf (digits : Codes) : Nat := digits.foldl (fun n c => 10 * n + (c - '0'.toNat)) 0

/-- A count, if the message starts with one, and what follows. -/
def Count.read (t : Codes) : Option Count × Codes :=
  if t.head? = some '*'.toNat then (some .argument, t.tail)
  else
    match t.takeWhile isDigit with
    | [] => (none, t)
    | ds => (some (.written (valueOf ds)), t.dropWhile isDigit)

/-- A precision, if the message starts with one, and what follows. -/
def Count.readPrecision (t : Codes) : Option Count × Codes :=
  if t.head? = some '.'.toNat then
    let c := Count.read t.tail
    (some (c.1.getD (.written 0)), c.2)
  else (none, t)

def dropSize (t : Codes) : Codes := if t.head?.any isSize then t.tail else t

/-- A place from its flags on, and what follows. -/
def Place.afterKey? (key : Option Codes) (t : Codes) : Option (Place × Codes) :=
  let width := Count.read (t.dropWhile isFlag)
  let precision := Count.readPrecision width.2
  match dropSize precision.2 with
  | [] => none
  | c :: r => (Style.ofCode? c).map fun style => (⟨key, t.takeWhile isFlag, width.1, precision.1, style⟩, r)

/-- A place behind its percent sign, and what follows. -/
def Place.read? (t : Codes) : Option (Place × Codes) :=
  if t.head? = some '('.toNat then do
    let (key, r) ← keyFrom? 0 t.tail
    afterKey? (some key) r
  else afterKey? none t

/-! ## Reading a message -/

/-- The pieces of a message, of which `k` code points are still to be skipped. -/
def piecesFrom : (k : Nat) → Codes → Option (List Piece)
  | _, [] => some []
  | k + 1, _ :: r => piecesFrom k r
  | 0, c :: r =>
    if c ≠ '%'.toNat then (piecesFrom 0 r).map (.code c :: ·)
    else if r.head? = some '%'.toNat then (piecesFrom 1 r).map (.code c :: ·)
    else match Place.read? r with
      | some (p, rest) => (piecesFrom (r.length - rest.length) r).map (.place p :: ·)
      | none => none

/-- The pieces of a message; `none` if a place is not well formed. -/
def pieces? (message : Codes) : Option (List Piece) := piecesFrom 0 message

example : pieces? (Text.codes "%%(a)".toList) = some ((Text.codes "%(a)".toList).map .code) := by decide
example : pieces? (Text.codes "%((a))-5.2ls".toList) = some [
    .place ⟨some (Text.codes "(a)".toList), Text.codes ['-'], some (.written 5), some (.written 2), .plain⟩] := by decide

end Accessors.Log
