/-
  Accessors.Log.Record — a notice with its time, and with what its message is filled with.

  The message of a record has places for its arguments. An exception that comes with a
  record comes as the text that is shown of it.

  Moments come as whole or floating-point seconds. A clock shows the second that has
  begun; a stamp counts microseconds, where the fraction of a second is scaled as a
  floating-point number and then rounded, a half to the even neighbour.
-/
import Accessors.Log.Notice
import Accessors.Value.Basic

namespace Accessors.Log

/-- A moment: the second that has begun, and the nearest microsecond. -/
structure Moment where
  second : Int
  microsecond : Int
  deriving DecidableEq, Repr

namespace Moment

def ofSeconds (n : Int) : Moment := ⟨n, n * 1000000⟩

def signed (negative : Bool) (n : Nat) : Int := if negative then -n else n

/-- The natural number nearest to a finite number without its sign. -/
def nearest : Binary64 → Nat
  | .finite _ mantissa exponent => let r := Binary64.ratio mantissa exponent; roundHalfEven r.1 r.2
  | _ => 0

/-- Only finite seconds are a moment. -/
def ofBinary64? : Binary64 → Option Moment
  | .finite negative mantissa exponent =>
    let r := Binary64.ratio mantissa exponent
    let whole := r.1 / r.2
    let micros := nearest (Binary64.ofRatio false (r.1 % r.2 * 1000000) r.2)
    some {
      second := if negative && r.1 % r.2 != 0 then -(whole : Int) - 1 else signed negative whole
      microsecond := signed negative (whole * 1000000 + micros) }
  | _ => none

end Moment

structure Record where
  notice : Notice
  args : List Value
  moment : Moment
  exception : Option Codes
  deriving Repr

end Accessors.Log
