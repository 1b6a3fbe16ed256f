/-
  Accessors.CommandLine.Grammar — arguments sorted into flags and words.

  A grammar has flags and one slot for words. First every argument is classified: a flag
  may be written by any beginning of its long name that fits no other, with a value
  behind an equals sign; numbers below zero and texts with a space in them are words, and
  so is all that follows a double dash. Then the arguments are taken from left to right.
  A flag of a value takes the next argument if that is a word; with a double dash behind
  its equals sign it has been given, but without a value. The slot takes its word or words
  at the first place where it can; what nothing takes is left over.
-/
import Accessors.Text.Digit
import Accessors.Text.Quoted

namespace Accessors.CommandLine

inductive FlagKind where
  | help
  | switch
  /-- Takes a value, unless `check` has something against it. -/
  | value (check : Text → Option Text)

structure Flag where
  names : List Text
  kind : FlagKind

/-- The name under which messages speak of a flag. -/
def Flag.title (f : Flag) : Text := Text.joinWith ['/'] f.names

/-- The longest name, under which a flag is recorded. -/
def Flag.key (f : Flag) : Text := f.names.getLast?.getD []

/-- What takes words: nothing, one word, or all that is left. -/
inductive Slot where
  | none
  | one
  | rest
  deriving DecidableEq, Repr

structure Grammar where
  flags : List Flag
  slot : Slot

/-- Why the arguments are not taken. -/
inductive Halt where
  | help
  | error (text : Text)
  deriving DecidableEq, Repr

def argumentError (title text : Text) : Halt := .error ("argument ".toList ++ title ++ ": ".toList ++ text)

def invalidChoice (choices : List Text) (value : Text) : Text :=
  "invalid choice: ".toList ++ Text.quoted value ++ " (choose from ".toList ++
    Text.joinWith ", ".toList (choices.map Text.quoted) ++ ")".toList

/-- Accepts the choices only. -/
def oneOf (choices : List Text) (value : Text) : Option Text :=
  if choices.contains value then Option.none else some (invalidChoice choices value)

/-! ## Classes of arguments -/

/-- What is joined to a flag: behind an equals sign, or right behind a name of one letter. -/
structure Joined where
  value : Text
  /-- Whether the name before it is one of one letter. -/
  isShort : Bool
  deriving DecidableEq, Repr

inductive Piece where
  | word (text : Text)
  | flag (flag : Flag) (joined : Option Joined)
  /-- Looks like a flag, but is none. -/
  | unknown (text : Text)

/-- The text before the first equals sign, and that behind it if there is one. -/
def splitEquals (t : Text) : Text × Option Text :=
  match t.dropWhile (· ≠ '=') with
  | _ :: value => (t.takeWhile (· ≠ '='), some value)
  | [] => (t, Option.none)

def Grammar.named? (g : Grammar) (name : Text) : Option Flag := g.flags.find? fun f => f.names.contains name

/-- The names that start with `head`, with their flags. -/
def Grammar.namesFrom (g : Grammar) (head : Text) : List (Text × Flag) :=
  g.flags.flatMap fun f => (f.names.filter (Text.startsWith head)).map fun n => (n, f)

/-- Digits, or digits or nothing with a point and digits behind them, below zero. -/
def isNegativeNumber (t : Text) : Bool :=
  match if t.getLast? = some '\n' then t.dropLast else t with
  | '-' :: r =>
    let whole := r.takeWhile Text.isDigit
    match r.dropWhile Text.isDigit with
    | [] => !whole.isEmpty
    | '.' :: fraction => !fraction.isEmpty && fraction.all Text.isDigit
    | _ => false
  | _ => false

def plainPiece (t : Text) : Piece := if isNegativeNumber t || Text.contains [' '] t then .word t else .unknown t

def ambiguous (t : Text) (names : List Text) : Halt :=
  .error ("ambiguous option: ".toList ++ t ++ " could match ".toList ++ Text.joinWith ", ".toList names)

/-- An argument that starts with two dashes, other than by a full name. -/
def Grammar.longPiece (g : Grammar) (t : Text) : Except Halt Piece :=
  let parts := splitEquals t
  match g.namesFrom parts.1 with
  | [] => .ok (plainPiece t)
  | [n] => .ok (.flag n.2 (parts.2.map fun value => ⟨value, false⟩))
  | ns => .error (ambiguous t (ns.map (·.1)))

/-- An argument that starts with one dash, other than by a full name. -/
def Grammar.shortPiece (g : Grammar) (t : Text) : Piece :=
  match g.named? (t.take 2) with
  | some f => .flag f (some ⟨t.drop 2, true⟩)
  | Option.none => plainPiece t

def doubleDash : Text := "--".toList

def isLong (t : Text) : Bool := Text.startsWith doubleDash t

/-- The flag whose full name stands before an equals sign, with what stands behind it. -/
def Grammar.namedWithValue? (g : Grammar) (t : Text) : Option (Flag × Joined) :=
  match splitEquals t with
  | (name, some value) => (g.named? name).map fun f => (f, ⟨value, !isLong name⟩)
  | _ => Option.none

def Grammar.dashedPiece (g : Grammar) (t : Text) : Except Halt Piece :=
  match g.named? t with
  | some f => .ok (.flag f Option.none)
  | Option.none =>
    match g.namedWithValue? t with
    | some (f, joined) => .ok (.flag f (some joined))
    | Option.none => if isLong t then g.longPiece t else .ok (g.shortPiece t)

def Grammar.piece (g : Grammar) (t : Text) : Except Halt Piece :=
  match t with
  | '-' :: _ :: _ => g.dashedPiece t
  | t => .ok (.word t)

/-- The arguments before a double dash, classified, and those behind it. -/
structure Sorted where
  pieces : List (Text × Piece)
  behind : Option (List Text)

def Grammar.sort (g : Grammar) : List Text → Except Halt Sorted
  | [] => .ok ⟨[], Option.none⟩
  | t :: ts =>
    if t = doubleDash then .ok ⟨[], some ts⟩
    else do
      let p ← g.piece t
      let s ← g.sort ts
      pure ⟨(t, p) :: s.pieces, s.behind⟩

/-! ## Taking them -/

structure Taken where
  /-- The values of flags, by their keys, in order; a flag can be given without one. -/
  values : List (Text × Option Text)
  /-- The words in the slot, if it has been filled. -/
  words : Option (List Text)
  leftOver : List Text
  deriving DecidableEq, Repr

def Taken.leave (s : Taken) (ts : List Text) : Taken := { s with leftOver := s.leftOver ++ ts }

def Taken.fill (s : Taken) (ts : List Text) : Taken := { s with words := some ts }

/-- The words with the double dash and those behind it. -/
def withBehind (ts : List Text) (behind : Option (List Text)) : List Text :=
  match behind with
  | some more => ts ++ doubleDash :: more
  | Option.none => ts

/-- Takes words behind the last flag. A double dash goes with the one word beside it. -/
def Taken.finish (slot : Slot) (s : Taken) (ws : List Text) (behind : Option (List Text)) : Taken :=
  match s.words, slot, ws, behind with
  | Option.none, .one, [w], some more => (s.fill [w]).leave more
  | Option.none, .one, w :: ws, behind => (s.fill [w]).leave (withBehind ws behind)
  | Option.none, .one, [], some (w :: more) => (s.fill [w]).leave more
  | Option.none, .rest, w :: ws, behind => s.fill (withBehind (w :: ws) behind)
  | Option.none, .rest, [], some (w :: more) => s.fill (doubleDash :: w :: more)
  | _, _, ws, behind => s.leave (withBehind ws behind)

def ignored (f : Flag) (value : Text) : Halt :=
  argumentError f.title ("ignored explicit argument ".toList ++ Text.quoted value)

/-- What the flag of help makes of letters joined to it: each must be its own again. -/
def cluster (f : Flag) : Text → Halt
  | [] => ignored f []
  | c :: r =>
    if f.names.contains ['-', c] then if r.isEmpty then .help else cluster f r
    else ignored f (c :: r)

def isWord : Text × Piece → Bool
  | (_, .word _) => true
  | _ => false

def Taken.give (s : Taken) (f : Flag) (value : Option Text) : Taken :=
  { s with values := s.values ++ [(f.key, value)] }

/-- Records a value that its flag has nothing against. A double dash is no value. -/
def Taken.record (s : Taken) (f : Flag) (check : Text → Option Text) (value : Text) : Except Halt Taken :=
  if value = doubleDash then .ok (s.give f Option.none)
  else match check value with
    | some complaint => .error (argumentError f.title complaint)
    | Option.none => .ok (s.give f (some value))

def take (slot : Slot) (behind : Option (List Text)) (s : Taken) : List (Text × Piece) → Except Halt Taken
  | [] => .ok (s.finish slot [] behind)
  | (t, .word w) :: ps =>
    if ps.all isWord then .ok (s.finish slot (w :: ps.map (·.1)) behind)
    else match s.words, slot with
      | Option.none, .one => take slot behind (s.fill [w]) ps
      | Option.none, .rest => .ok (s.fill (withBehind (t :: ps.map (·.1)) behind))
      | _, _ => take slot behind (s.leave [w]) ps
  | (t, .unknown _) :: ps => take slot behind (s.leave [t]) ps
  | (_, .flag f joined) :: ps =>
    match f.kind, joined with
    | .help, Option.none => .error .help
    | .help, some joined => .error (if joined.isShort then cluster f joined.value else ignored f joined.value)
    | .switch, Option.none => take slot behind (s.give f Option.none) ps
    | .switch, some joined => .error (ignored f joined.value)
    | .value check, some joined => do take slot behind (← s.record f check joined.value) ps
    | .value check, Option.none =>
      match ps with
      | (_, .word value) :: ps => do take slot behind (← s.record f check value) ps
      | _ => .error (argumentError f.title "expected one argument".toList)

def Grammar.parse (g : Grammar) (args : List Text) : Except Halt Taken := do
  let sorted ← g.sort args
  take g.slot sorted.behind ⟨[], Option.none, []⟩ sorted.pieces

end Accessors.CommandLine
