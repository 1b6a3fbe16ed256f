/-
  Accessors.Settings — how accessors are spaced, and whether the cursor follows.

  Settings are written as plain keys, as members of the section `phpGettersSetters`, or
  as keys with the name of the section before them; the later of two ways to write a key
  wins. A value of the wrong type is reported and the fallback used instead; null counts
  as nothing written.
-/
import Accessors.Fault
import Accessors.Log.Notice
import Accessors.Trace
import Accessors.Value.Display

namespace Accessors

/-- The settings without the ways in which they were written. -/
structure Settings where
  entries : Entries Codes Value

namespace Settings

abbrev Reading := Traced Log.Notice Fault

def sectionName : Codes := Text.codes "phpGettersSetters".toList

def sectionMark : Codes := sectionName ++ ['.'.toNat]

def spacesAfterReturn : Codes := Text.codes "spacesAfterReturn".toList

def spacesAfterParam : Codes := Text.codes "spacesAfterParam".toList

def spacesAfterParamVar : Codes := Text.codes "spacesAfterParamVar".toList

def redirectKey : Codes := Text.codes "redirect".toList

/-! ## The ways to write a setting -/

/-- The key behind the mark of the section. -/
def unmarked? (key : Codes) : Option Codes :=
  if sectionMark.isPrefixOf key then some (key.drop sectionMark.length) else none

/-- What one entry adds to the settings. -/
def supplied (key : Codes) (value : Value) : Entries Codes Value :=
  if key = sectionName then
    match value with
    | .object members => members
    | value => [(key, value)]
  else match unmarked? key with
    | some k => [(k, value)]
    | none => [(key, value)]

def ofEntries (es : Entries Codes Value) : Settings :=
  ⟨es.foldl (fun flat e => Entries.assignAll flat (supplied e.1 e.2)) []⟩

def defaults : Settings := ⟨[]⟩

/-! ## Reading a setting -/

/-- What holds where nothing is written. -/
def documented : Entries Codes Value := [
  (spacesAfterReturn, .int 2), (spacesAfterParam, .int 2), (spacesAfterParamVar, .int 2),
  (redirectKey, .bool true)]

/-- What is written under a key; null is as good as nothing. -/
def written? (s : Settings) (key : Codes) : Option Value :=
  (Entries.find? key s.entries).filter fun v => !v.isNull

/-- The given fallback, or the documented one, or `otherwise`. -/
def fallback (key : Codes) (given otherwise : Value) : Value :=
  if given.isNull then (Entries.find? key documented).getD otherwise else given

def get (s : Settings) (key : Codes) (given : Value) : Value :=
  (s.written? key).getD (fallback key given .null)

/-- A fallback as it stands in the place of a whole number. -/
def wholeText (v : Value) : Except Fault Text :=
  match v with
  | .bool b => .ok (if b then ['1'] else ['0'])
  | .int n => .ok (Text.ofInt n)
  | .float .nan => .error .undefinedNumber
  | .float x => match x.truncated? with
    | some n => .ok (Text.ofInt n)
    | none => .error .infiniteNumber
  | v => .error (.notNumber v.kindName)

def complaint (key : Codes) (value : Value) (wanted : Text) (used : Codes) : Log.Notice where
  level := Log.Level.warning
  logger := Log.logger "configuration"
  message := Text.codes "Setting ".toList ++ key ++
    Text.codes ("=".toList ++ value.display ++ " is not ".toList ++ wanted ++ ", using ".toList) ++ used

/-- A whole number; true and false are none. The fallback is not looked at. -/
def getInt (s : Settings) (key : Codes) (given : Value) : Reading Value :=
  let other := fallback key given (.int 0)
  match s.get key other with
  | .int n => pure (.int n)
  | value => do
    let used ← Traced.ofExcept (wholeText other)
    Traced.emit (complaint key value "an integer".toList (Text.codes used))
    pure other

/-- A truth value. The fallback is not looked at. -/
def getBool (s : Settings) (key : Codes) (given : Value) : Reading Value :=
  let other := fallback key given (.bool false)
  match s.get key other with
  | .bool b => pure (.bool b)
  | value => do
    Traced.emit (complaint key value "a boolean".toList other.plain)
    pure other

/-- The bound on the length of a run of spaces. -/
def countLimit : Nat := Nat.pow 2 63

/-- A count of spaces. Negative counts are none, and true counts as one. -/
def countOf : Value → Nat
  | .int n => n.toNat
  | .bool true => 1
  | _ => 0

def spaces (s : Settings) (key : Codes) : Reading Text := do
  let n := countOf (← s.getInt key .null)
  if countLimit ≤ n then Traced.stop .countTooLarge else pure (Text.spaces n)

/-- Whether the cursor goes to the accessors. -/
def redirect (s : Settings) : Reading Value := s.getBool redirectKey .null

def display (s : Settings) : Text :=
  "Configuration(".toList ++ (Value.object s.entries).display ++ ")".toList

end Settings

end Accessors
