/-
  Accessors.Value.Json — values as JSON in ASCII.

  Parts are separated by a comma and a space, a name and its value by a colon and a
  space. In a string the quote, the backslash and the five controls that have letters
  are escaped by a backslash; every other character outside of printable ASCII is
  written as its code units of sixteen bits, in four hexadecimal digits each.
-/
import Accessors.Number.Shortest
import Accessors.Value.Basic

namespace Accessors.Value

open Text (backslash doubleQuote)

def escapedUnit (unit : Nat) : Text := backslash :: 'u' :: Text.hex 4 unit

def escapedCode (code : Nat) : Text :=
  if code = doubleQuote.toNat then [backslash, doubleQuote]
  else if code = backslash.toNat then [backslash, backslash]
  else if code = 10 then [backslash, 'n']
  else if code = 13 then [backslash, 'r']
  else if code = 9 then [backslash, 't']
  else if code = 12 then [backslash, 'f']
  else if code = 8 then [backslash, 'b']
  else if 0x20 ≤ code ∧ code < 0x7f then [Char.ofNat code]
  else (Codes.units code).flatMap escapedUnit

def jsonString (s : Codes) : Text := doubleQuote :: s.flatMap escapedCode ++ [doubleQuote]

/-- Numbers that are not finite have names, as a reader of the same dialect takes them. -/
def jsonForm : Binary64.DecimalForm :=
  { Binary64.settingForm with nanText := "NaN".toList, infiniteText := "Infinity".toList }

mutual

def json : Value → Text
  | .null => "null".toList
  | .bool true => "true".toList
  | .bool false => "false".toList
  | .int n => Text.ofInt n
  | .float x => jsonForm.text x
  | .str s => jsonString s
  | .list items => '[' :: jsonItems items ++ [']']
  | .object members => '\x7b' :: jsonMembers members ++ ['\x7d']

def jsonItems : List Value → Text
  | [] => []
  | [v] => json v
  | v :: vs => json v ++ ", ".toList ++ jsonItems vs

def jsonMembers : List (Codes × Value) → Text
  | [] => []
  | [(name, v)] => jsonString name ++ ": ".toList ++ json v
  | (name, v) :: ms => jsonString name ++ ": ".toList ++ json v ++ ", ".toList ++ jsonMembers ms

end

end Accessors.Value
