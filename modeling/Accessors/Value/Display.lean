/-
  Accessors.Value.Display — values as messages show them.

  Strings are quoted, lists stand in brackets and objects in braces, with a comma and a
  space between their parts; null, true and false have names with a capital. A string
  that is inserted into a message by itself is not quoted: `plain`.
-/
import Accessors.Number.Shortest
import Accessors.Text.Quoted
import Accessors.Value.Basic

namespace Accessors.Value

mutual

def display : Value → Text
  | .null => "None".toList
  | .bool true => "True".toList
  | .bool false => "False".toList
  | .int n => Text.ofInt n
  | .float x => x.text
  | .str s => Text.quotedCodes s
  | .list items => '[' :: displayItems items ++ [']']
  | .object members => '\x7b' :: displayMembers members ++ ['\x7d']

def displayItems : List Value → Text
  | [] => []
  | [v] => display v
  | v :: vs => display v ++ ", ".toList ++ displayItems vs

def displayMembers : List (Codes × Value) → Text
  | [] => []
  | [(name, v)] => Text.quotedCodes name ++ ": ".toList ++ display v
  | (name, v) :: ms => Text.quotedCodes name ++ ": ".toList ++ display v ++ ", ".toList ++ displayMembers ms

end

def plain : Value → Codes
  | .str s => s
  | v => Text.codes (display v)

end Accessors.Value
