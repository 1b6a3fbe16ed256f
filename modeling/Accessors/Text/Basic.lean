/-
  Accessors.Text.Basic — text as a list of characters.

  Everything the library reads or writes is a `Text`: source lines, rendered code,
  messages, settings files. The operations here know nothing of classes of characters;
  those are in `Text.Blank`, `Text.Lines`, `Text.Digit`, `Text.Case`, `Text.Printable`.

  - `splitOn`/`joinWith` cut at a separator and put it back: `joinWith_splitOn`.
  - `replaceAll` goes from left to right and never looks into what it has put in.
-/

namespace Accessors

abbrev Text := List Char

namespace Text

def singleQuote : Char := '\x27'

def doubleQuote : Char := '\x22'

def backslash : Char := '\x5c'

/-- The text without the characters of `p` at its end. -/
def dropEndWhile (p : Char → Bool) (t : Text) : Text := (t.reverse.dropWhile p).reverse

def startsWith (head t : Text) : Bool := head.isPrefixOf t

def endsWith (tail t : Text) : Bool := tail.isSuffixOf t

/-- What follows `head` at the start of `t`. -/
def after? (head t : Text) : Option Text := if startsWith head t then some (t.drop head.length) else none

def contains (part : Text) : Text → Bool
  | [] => part.isEmpty
  | c :: r => startsWith part (c :: r) || contains part r

/-! ## Pieces between separators -/

def consPiece (c : Char) : List Text → List Text
  | [] => [[c]]
  | p :: ps => (c :: p) :: ps

/-- The pieces between the separators: always one more than there are separators. -/
def splitOn (sep : Char) (t : Text) : List Text :=
  t.foldr (fun c ps => if c = sep then [] :: ps else consPiece c ps) [[]]

def joinWith (sep : Text) : List Text → Text
  | [] => []
  | [p] => p
  | p :: q :: ps => p ++ sep ++ joinWith sep (q :: ps)

theorem splitOn_ne_nil (sep : Char) (t : Text) : splitOn sep t ≠ [] := by
  cases t with
  | nil => simp [splitOn]
  | cons c r =>
    simp only [splitOn, List.foldr_cons]
    split
    · simp
    · cases r.foldr (fun c ps => if c = sep then [] :: ps else consPiece c ps) [[]] <;> simp [consPiece]

theorem joinWith_splitOn (sep : Char) (t : Text) : joinWith [sep] (splitOn sep t) = t := by
  induction t with
  | nil => rfl
  | cons c r ih =>
    have hne := splitOn_ne_nil sep r
    simp only [splitOn, List.foldr_cons] at hne ih ⊢
    revert hne ih
    generalize r.foldr (fun c ps => if c = sep then [] :: ps else consPiece c ps) [[]] = ps
    intro ih hne
    match ps with
    | [] => exact absurd rfl hne
    | [p] => split <;> simp_all [joinWith, consPiece]
    | p :: q :: ps => split <;> simp_all [joinWith, consPiece]

/-! ## Replacing -/

/-- `k` characters of an occurrence of `old` are still to be skipped. -/
def replaceFrom (old new : Text) : Nat → Text → Text
  | _, [] => []
  | k + 1, _ :: r => replaceFrom old new k r
  | 0, c :: r =>
    if startsWith old (c :: r) then new ++ replaceFrom old new (old.length - 1) r
    else c :: replaceFrom old new 0 r

/-- Every occurrence of `old`, found from left to right, becomes `new`; `old` is not empty. -/
def replaceAll (old new t : Text) : Text := replaceFrom old new 0 t

/-- The first occurrence of `old`, if there is one, becomes `new`. -/
def replaceFirst (old new : Text) : Text → Text
  | [] => if old.isEmpty then new else []
  | c :: r => if startsWith old (c :: r) then new ++ (c :: r).drop old.length else c :: replaceFirst old new r

/-! ## Numbers and runs -/

def spaces (n : Nat) : Text := List.replicate n ' '

def ofNat (n : Nat) : Text := Nat.toDigits 10 n

def ofInt (n : Int) : Text := if n < 0 then '-' :: ofNat n.natAbs else ofNat n.natAbs

/-- `n` with leading zeros up to `width` digits. -/
def padded (width n : Nat) : Text :=
  let digits := ofNat n
  List.replicate (width - digits.length) '0' ++ digits

def hexDigit (n : Nat) : Char := Nat.digitChar (n % 16)

/-- The last `width` hexadecimal digits of `n`. -/
def hex : (width n : Nat) → Text
  | 0, _ => []
  | width + 1, n => hex width (n / 16) ++ [hexDigit n]

end Text

end Accessors
