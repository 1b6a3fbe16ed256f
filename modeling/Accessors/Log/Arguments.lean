/-
  Accessors.Log.Arguments — arguments put into a message.

  A message without arguments stays as it is. Otherwise each of its places takes the
  next argument, behind those for its width and its precision, and shows it in its
  style. If the only argument is an object that has members, a key takes the member of
  its name, and the first place without a key takes the object as a whole; then there is
  nothing to take until the next key. Places and arguments must come out even, unless
  the argument is such an object.
-/
import Accessors.Log.Field
import Accessors.Log.Place
import Accessors.Number.Rounded
import Accessors.Value.Display

namespace Accessors.Log

/-! ## A value in a field -/

/-- The one code point that a value is or has the number of. -/
def code? : Value → Option Nat
  | .str [code] => some code
  | v => v.whole?.bind fun n => if 0 ≤ n ∧ n < 0x110000 then some n.toNat else none

def Numeral.withCapitals (n : Numeral) (capitals : Bool) : Numeral :=
  if capitals then { n with mark := n.mark.map Char.toUpper, digits := n.digits.map Char.toUpper } else n

def Field.binary64 (f : Field) (p : Binary64.Precision) (x : Binary64) : Numeral :=
  ⟨x.isNegative, [], x.rounded f.marked p⟩

/-- The places or digits of a number whose field has no precision. -/
def usualPrecision : Nat := 6

/-- A value as a style shows it; `none` if it cannot. -/
def Style.shown? (f : Field) (v : Value) : Style → Option Codes
  | .plain => some (f.text (f.cut v.plain))
  | .quoted => some (f.text (f.cut v.display.codes))
  | .ascii => some (f.text (f.cut (Text.ascii v.display).codes))
  | .character => (code? v).map fun code => f.text [code]
  | .decimal => v.truncated?.map fun n => f.number (f.whole 10 [] n)
  | .octal => v.whole?.map fun n => f.number (f.whole 8 "0o".toList n)
  | .hexadecimal capitals =>
    v.whole?.map fun n => f.number ((f.whole 16 "0x".toList n).withCapitals capitals)
  | .places capitals => shownNumber capitals .places
  | .scientific capitals => shownNumber capitals .scientific
  | .digits capitals => shownNumber capitals .digits
where
  shownNumber (capitals : Bool) (p : Nat → Binary64.Precision) : Option Codes :=
    v.binary64?.map fun x =>
      f.number ((f.binary64 (p (f.precision.getD usualPrecision)) x).withCapitals capitals)

/-! ## Taking arguments -/

/-- What is left to be put in. -/
inductive Supply where
  | queue (args : List Value)
  /-- The members that keys take, and what the next place takes. -/
  | members (members : Entries Codes Value) (next : Option Value)

namespace Supply

def ofArgs : List Value → Supply
  | [.object ms] => if ms.isEmpty then .queue [.object []] else .members ms (some (.object ms))
  | args => .queue args

/-- The next value and what is left behind it. -/
def next? : Supply → Option (Value × Supply)
  | .queue [] => none
  | .queue (v :: vs) => some (v, .queue vs)
  | .members ms next => next.map fun v => (v, .members ms none)

/-- What is left where a place has a key, or none. -/
def keyed? (key : Option Codes) (s : Supply) : Option Supply :=
  match key, s with
  | none, s => some s
  | some _, .queue _ => none
  | some key, .members ms _ => (Entries.find? key ms).map fun v => .members ms (some v)

/-- A width or precision, if there is one, and what is left behind it. -/
def count? (count : Option Count) (s : Supply) : Option (Option Int × Supply) :=
  match count with
  | none => some (none, s)
  | some (.written n) => some (some n, s)
  | some .argument => s.next?.bind fun x => x.1.whole?.map fun n => (some n, x.2)

/-- What a place shows, and what is left behind it. -/
def fill? (s : Supply) (p : Place) : Option (Codes × Supply) := do
  let s ← s.keyed? p.key
  let (width, s) ← s.count? p.width
  let (precision, s) ← s.count? p.precision
  let field ← Field.ofCounts? p.flags width precision
  let (v, s) ← s.next?
  let t ← p.style.shown? field v
  pure (t, s)

/-- Whether a message may end here. -/
def isSpent : Supply → Bool
  | .queue vs => vs.isEmpty
  | .members _ _ => true

end Supply

/-! ## Messages -/

def filledFrom (s : Supply) : List Piece → Option Codes
  | [] => if s.isSpent then some [] else none
  | .code c :: ps => (filledFrom s ps).map (c :: ·)
  | .place p :: ps => do
    let (t, s) ← s.fill? p
    let rest ← filledFrom s ps
    pure (t ++ rest)

/-- The message with its arguments; `none` if they do not fit. -/
def filled? (message : Codes) (args : List Value) : Option Codes :=
  if args.isEmpty then some message else (pieces? message).bind (filledFrom (Supply.ofArgs args))

end Accessors.Log
