/-
  Accessors.Log.Loggers — the loggers that there are, through setups and records.

  A logger is made when it is first asked for, without a level of its own. It stands below
  the nearest logger above it that has been made, and below the root if there is none, and
  takes its level from there. A setup puts its own handler in the place of all that the
  root has and gives levels to the root, to the program and to the protocol, whatever
  levels they had. A record asks for its logger and goes to every handler of the root, if
  its level counts there.
-/
import Accessors.Log.Setup

namespace Accessors.Log

/-- What takes records at the root. -/
inductive Handler where
  /-- Writes to the stream that setups are given. -/
  | stream (format : Format)
  /-- Writes to some other place. -/
  | elsewhere
  deriving DecidableEq, Repr

/-- What a handler writes to the stream. -/
def Handler.lines (r : Record) : Handler → Codes
  | .stream f => (f.lines? { r with notice := { r.notice with logger := Setup.shownName r.notice.logger } }).getD []
  | .elsewhere => []

structure Loggers where
  root : Int
  /-- The own levels of the loggers below the root that have been made; zero is none. -/
  levels : Text → Option Int
  handlers : List Handler

namespace Loggers

/-- Before there is any setup, some loggers may have been made. -/
def initial (made : List Text) : Loggers where
  root := Setup.initialLevel
  levels name := if name ∈ made then some 0 else none
  handlers := [.elsewhere]

/-! ## Levels -/

def ownLevel (ls : Loggers) (name : Text) : Int :=
  if Setup.isRoot name then ls.root else (ls.levels name).getD 0

def setLevel (ls : Loggers) (name : Text) (level : Int) : Loggers :=
  if Setup.isRoot name then { ls with root := level }
  else { ls with levels := fun n => if n = name then some level else ls.levels n }

/-- Asking for a logger makes it, if it has not been made, and leaves its level. -/
def asked (ls : Loggers) (name : Text) : Loggers := ls.setLevel name (ls.ownLevel name)

/-- The level that a logger without its own takes from those above it, from its reversed
    name. Dots part names as in `Setup.aboveFrom`. -/
def inheritedFrom (ls : Loggers) (besideDot : Bool) : (reversed : Text) → Int
  | [] => ls.root
  | c :: r =>
    if besideDot = false ∧ c = '.' ∧ r ≠ [] then
      match ls.levels r.reverse with
      | none => ls.inheritedFrom true r
      | some level => if level = 0 then ls.inheritedFrom false r else level
    else ls.inheritedFrom false r

/-- The level from which on a logger's records count. -/
def effectiveLevel (ls : Loggers) (name : Text) : Int :=
  if Setup.isRoot name then ls.root
  else if ls.ownLevel name = 0 then ls.inheritedFrom false name.reverse
  else ls.ownLevel name

/-! ## Setups and records -/

def setUp (ls : Loggers) (s : Setup) : Loggers :=
  let ls := { ls with handlers := [.stream s.format] }
  let ls := (ls.setLevel [] s.level).setLevel packageName s.level
  Setup.quietNames.foldl (fun ls name => ls.setLevel name s.quietLevel) ls

/-- Levels of zero and below never count. -/
def isEnabled (ls : Loggers) (name : Text) (level : Int) : Bool :=
  decide (0 < level) && decide (ls.effectiveLevel name ≤ level)

/-- What is written of a record. -/
def written (ls : Loggers) (r : Record) : Codes :=
  if ls.isEnabled r.notice.logger r.notice.level then ls.handlers.flatMap (Handler.lines r) else []

/-- What is written of records, one after the other. -/
def output (ls : Loggers) : List Record → Codes
  | [] => []
  | r :: rs =>
    let ls := ls.asked r.notice.logger
    ls.written r ++ ls.output rs

end Loggers

end Accessors.Log
