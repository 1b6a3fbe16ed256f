/-
  Accessors.Value.Basic — the values that settings files and editor clients send.

  A value is one of JSON. A whole number and a floating-point number are different
  things, however equal, strings are of code points, and the members of an object keep
  the order in which their names first appeared, each name once.
-/
import Accessors.Entries
import Accessors.Number.Binary64
import Accessors.Text.Codes

namespace Accessors

inductive Value where
  | null
  | bool (b : Bool)
  | int (n : Int)
  | float (x : Binary64)
  | str (s : Codes)
  | list (items : List Value)
  | object (members : List (Codes × Value))
  deriving Repr

namespace Value

def text (t : Text) : Value := .str t.codes

/-- An object whose members are strings. -/
def ofStrings (members : List (Codes × Codes)) : Value := .object (members.map fun m => (m.1, .str m.2))

/-- Null, false, zeros and everything empty do not count as given. -/
def isTrue : Value → Bool
  | .null => false
  | .bool b => b
  | .int n => n != 0
  | .float (.finite _ mantissa _) => mantissa != 0
  | .float _ => true
  | .str s => !s.isEmpty
  | .list items => !items.isEmpty
  | .object members => !members.isEmpty

def isNull : Value → Bool
  | .null => true
  | _ => false

/-! ## Numbers among values -/

/-- A whole number; true and false count as one and zero. -/
def whole? : Value → Option Int
  | .bool b => some (if b then 1 else 0)
  | .int n => some n
  | _ => none

/-- A number without its fraction; `none` for what is no number or not finite. -/
def truncated? : Value → Option Int
  | .float x => x.truncated?
  | v => v.whole?

/-- The floating-point number nearest to a number; `none` if it would not be finite. -/
def binary64? : Value → Option Binary64
  | .float x => some x
  | v => v.whole?.bind fun n =>
    match Binary64.ofRatio (decide (n < 0)) n.natAbs 1 with
    | .finite negative mantissa exponent => some (.finite negative mantissa exponent)
    | _ => none

/-! ## Kinds -/

/-- The name under which messages speak of a kind of value. -/
def kindName : Value → Text
  | .null => "NoneType".toList
  | .bool _ => "bool".toList
  | .int _ => "int".toList
  | .float _ => "float".toList
  | .str _ => "str".toList
  | .list _ => "list".toList
  | .object _ => "dict".toList

end Value

end Accessors
