/-
  Accessors.Log.Format — records as text.

  The standard form is one line of the time of day, the level, the logger and the
  message, and an exception on a line of its own. The other form is one JSON object a
  record, in one line of ASCII. A record whose moment has no form is left out, and so is
  one whose arguments do not fit its message.
-/
import Accessors.Log.Arguments
import Accessors.Log.Calendar
import Accessors.Log.Level
import Accessors.Log.Record
import Accessors.Value.Json

namespace Accessors.Log

inductive Format where
  | standard
  | json
  deriving DecidableEq, Repr

/-- The format of a name; every other name means the standard form. -/
def Format.ofName (name : Text) : Format := if name = "json".toList then .json else .standard

/-- The years whose days a clock can tell. -/
def maxClockYear : Int := 2147483647

def minClockYear : Int := -2147481748

def clock? (second : Int) : Option Text :=
  let year := (Date.ofDays (second.fdiv secondsPerDay)).year
  if year < minClockYear ∨ maxClockYear < year then none else some (clock second)

def lineFeed : Codes := ['\n'.toNat]

/-- A string that ends its line. -/
def endLine (s : Codes) : Codes := if s.getLast? = some '\n'.toNat then s else s ++ lineFeed

/-- The message with the arguments in it. -/
def Record.message? (r : Record) : Option Codes := filled? r.notice.message r.args

def standardForm? (r : Record) : Option Codes := do
  let message ← r.message?
  let time ← clock? r.moment.second
  let head := time ++ ' ' :: Level.name r.notice.level ++ " [".toList ++ r.notice.logger ++ "] ".toList
  let line := Text.codes head ++ message
  let exception := r.exception.getD []
  pure (if exception.isEmpty then line else endLine line ++ exception)

/-- What the object of a record tells besides its time. -/
structure Entry where
  level : Codes
  logger : Codes
  message : Codes
  exception : Option Codes
  deriving DecidableEq, Repr

def Record.told? (r : Record) : Option Entry :=
  r.message?.map fun message =>
    { level := (Level.name r.notice.level).codes
      logger := r.notice.logger.codes
      message := message
      exception := r.exception }

namespace Entry

/-- The members of the object; the exception comes last, if there is one. -/
def members (e : Entry) (time : Text) : List (Codes × Codes) :=
  [(Text.codes "time".toList, time.codes), (Text.codes "level".toList, e.level),
    (Text.codes "logger".toList, e.logger), (Text.codes "message".toList, e.message)] ++
  match e.exception with
  | some t => [(Text.codes "exception".toList, t)]
  | none => []

def json (e : Entry) (time : Text) : Text := (Value.ofStrings (e.members time)).json

def jsonText? (e : Entry) (m : Moment) : Option Text := (stamp? m.microsecond).map e.json

end Entry

def Record.jsonText? (r : Record) : Option Text := r.told?.bind fun e => e.jsonText? r.moment

/-- The line or lines of a record. -/
def Format.lines? (f : Format) (r : Record) : Option Codes :=
  (match f with
    | .standard => standardForm? r
    | .json => r.jsonText?.map Text.codes).map (· ++ lineFeed)

end Accessors.Log
