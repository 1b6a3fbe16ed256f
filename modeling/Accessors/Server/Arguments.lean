/-
  Accessors.Server.Arguments — what a client sends with a command.

  The first argument names the document and the selections. A selection is a line, or an
  object that leads to one: by its member `active`, or else `start`, or else `line`, where
  alone a number may be written in other ways than as a whole number. An argument list in
  place of a single argument is taken as the arguments.
-/
import Accessors.Number.IntText
import Accessors.Value.Display

namespace Accessors.Server

/-- Why the arguments are of no use. -/
inductive ArgumentFault where
  | noObject
  | noAddress
  | noSelections
  | unsupported (selection : Text)
  | notIterable (kind : Text)
  | noLine
  | notNumber (kind : Text)
  | number (fault : IntText.Fault)
  | undefinedNumber
  /-- Not foreseen: infinity as a line. -/
  | infiniteNumber
  /-- Not foreseen: a document of a kind that has no members. -/
  | noMembers
  deriving DecidableEq, Repr

/-- The message of a fault that is foreseen. -/
def ArgumentFault.message : ArgumentFault → Text
  | .noObject => "expected an object with textDocument and selections".toList
  | .noAddress => "missing document uri".toList
  | .noSelections => "missing selections".toList
  | .unsupported shown => "Unsupported selection: ".toList ++ shown
  | .notIterable kind => '\x27' :: kind ++ "' object is not iterable".toList
  | .noLine => "'line'".toList
  | .notNumber kind =>
    "int() argument must be a string, a bytes-like object or a real number, not '".toList ++ kind ++ "'".toList
  | .number f => f.message
  | .undefinedNumber => "cannot convert float NaN to integer".toList
  | .infiniteNumber => "cannot convert float infinity to integer".toList
  | .noMembers => []

/-! ## Lines -/

def key (name : String) : Codes := Text.codes name.toList

/-- A whole number however it is written. -/
def wholeNumber : Value → Except ArgumentFault Int
  | .int n => .ok n
  | .bool b => .ok (if b then 1 else 0)
  | .float .nan => .error .undefinedNumber
  | .float x =>
    match x.truncated? with
    | some n => .ok n
    | none => .error .infiniteNumber
  | .str s => (IntText.read s).mapError .number
  | v => .error (.notNumber v.kindName)

/-- The line that an object leads to, once it is known where its members lead. -/
def lineOfObject (members : List (Codes × Value)) (lines : List (Codes × Except ArgumentFault Int)) :
    Except ArgumentFault Int :=
  match Entries.find? (key "active") lines with
  | some line => line
  | none =>
    match Entries.find? (key "start") lines with
    | some line => line
    | none =>
      match Entries.find? (key "line") members with
      | some v => wholeNumber v
      | none => .error .noLine

mutual

def lineOf : Value → Except ArgumentFault Int
  | .int n => .ok n
  | .object members => lineOfObject members (memberLines members)
  | .null => .error (.unsupported (Value.display .null))
  | .bool b => .error (.unsupported (Value.display (.bool b)))
  | .float x => .error (.unsupported (Value.display (.float x)))
  | .str s => .error (.unsupported (Value.display (.str s)))
  | .list items => .error (.unsupported (Value.display (.list items)))

def memberLines : List (Codes × Value) → List (Codes × Except ArgumentFault Int)
  | [] => []
  | (name, v) :: ms => (name, lineOf v) :: memberLines ms

end

/-! ## Arguments -/

structure Arguments where
  address : Value
  lines : List Int

/-- A member, or null. -/
def member (name : String) (members : List (Codes × Value)) : Value :=
  (Entries.find? (key name) members).getD .null

/-- The selections one by one: of a text its characters, and of an object its names. -/
def selectionsOf : Value → Except ArgumentFault (List Value)
  | .list items => .ok items
  | .str s => .ok (s.map fun c => .str [c])
  | .object members => .ok (members.map fun m => .str m.1)
  | v => .error (.notIterable v.kindName)

/-- The address in the document, or else in the argument itself. -/
def addressOf (members : List (Codes × Value)) : Except ArgumentFault Value := do
  let document ← match member "textDocument" members with
    | .object ms => pure (member "uri" ms)
    | v => if v.isTrue then throw .noMembers else pure .null
  let address := if document.isTrue then document else member "uri" members
  if address.isTrue then pure address else throw .noAddress

def linesOf (members : List (Codes × Value)) : Except ArgumentFault (List Int) := do
  let selections ← selectionsOf ((Entries.find? (key "selections") members).getD (.list []))
  let lines ← selections.mapM lineOf
  let lines ← match lines, Entries.find? (key "position") members with
    | [], some position => do pure [← lineOf position]
    | lines, _ => pure lines
  if lines.isEmpty then throw .noSelections else pure lines

def Arguments.ofObject (members : List (Codes × Value)) : Except ArgumentFault Arguments := do
  let address ← addressOf members
  let lines ← linesOf members
  pure ⟨address, lines⟩

def Arguments.ofList (args : List Value) : Except ArgumentFault Arguments :=
  let args := match args with
    | [.list inner] => inner
    | args => args
  match args with
  | .object members :: _ => Arguments.ofObject members
  | _ => .error .noObject

end Accessors.Server
