/-
  Accessors.Log.Setup — which records are written.

  Loggers are named by parts with dots between them. One without a level of its own
  takes that of the nearest logger above it, and all stand below the root. A setup gives
  the root and the program the level that was asked for, and the loggers of the protocol
  no less than that of warnings. A later setup takes the place of an earlier one.

  - `current_append`: after any setups the last one holds.
-/
import Accessors.Log.Format

namespace Accessors.Log

structure Setup where
  level : Int
  format : Format
  deriving DecidableEq, Repr

namespace Setup

def ofNames (level format : Text) : Setup := ⟨Level.requested level, Format.ofName format⟩

def defaultLevel : Text := "WARNING".toList

def defaultFormat : Text := "standard".toList

/-- The loggers that matter only where the protocol itself is looked into. -/
def quietNames : List Text := ["pygls".toList, "asyncio".toList]

def quietLevel (s : Setup) : Int := max s.level Level.warning

/-- The level of the root before there is any setup. -/
def initialLevel : Int := Level.warning

def rootLevel : Option Setup → Int
  | some s => s.level
  | none => initialLevel

/-- The level that a logger below the root has of its own; zero is none. -/
def ownLevel (setup : Option Setup) (name : Text) : Int :=
  match setup with
  | none => 0
  | some s => if name = packageName then s.level else if quietNames.contains name then s.quietLevel else 0

def isRoot (name : Text) : Bool := name.isEmpty || name == "root".toList

/-- The names of the loggers above one, the nearest first, from its reversed name. A dot
    that starts a name does not part it, nor does one right before a dot that does. -/
def aboveFrom (besideDot : Bool) : (reversed : Text) → List Text
  | [] => []
  | c :: r =>
    if besideDot = false ∧ c = '.' ∧ r ≠ [] then r.reverse :: aboveFrom true r else aboveFrom false r

/-- A logger and those above it, the nearest first. -/
def chain (name : Text) : List Text := name :: aboveFrom false name.reverse

/-- The level from which on a logger's records count. -/
def effectiveLevel (setup : Option Setup) (name : Text) : Int :=
  if isRoot name then rootLevel setup
  else (((chain name).map (ownLevel setup)).find? (· ≠ 0)).getD (rootLevel setup)

/-- Levels of zero and below are never written. -/
def isEnabled (setup : Option Setup) (name : Text) (level : Int) : Bool :=
  decide (0 < level) && decide (effectiveLevel setup name ≤ level)

def shownName (name : Text) : Text := if isRoot name then "root".toList else name

/-- What is written of a record. Without a setup nothing is. -/
def written (setup : Option Setup) (r : Record) : Codes :=
  match setup with
  | none => []
  | some s =>
    if isEnabled setup r.notice.logger r.notice.level then
      (s.format.lines? { r with notice := { r.notice with logger := shownName r.notice.logger } }).getD []
    else []

/-- What holds after setups one after the other. -/
def current (setups : List Setup) : Option Setup := setups.getLast?

theorem current_append (setups : List Setup) (s : Setup) : current (setups ++ [s]) = some s := by simp [current]

end Setup

end Accessors.Log
