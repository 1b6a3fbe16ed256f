/-
  Accessors.Log.Calendar — the day and the time of a moment.

  Moments are counted from the start of the year 1970, days of 86400 seconds each, in the
  Gregorian calendar carried on in both directions. For the reckoning a year starts in
  March, so that the leap day ends it, and 400 years are one cycle of 146097 days.
-/
import Accessors.Text.Basic

namespace Accessors.Log

structure Date where
  year : Int
  month : Nat
  day : Nat
  deriving DecidableEq, Repr

/-- The date that lies `days` after the first of January 1970. -/
def Date.ofDays (days : Int) : Date :=
  let z := days + 719468
  let cycle := z.fdiv 146097
  let dayOfCycle := (z.fmod 146097).toNat
  let yearOfCycle := (dayOfCycle - dayOfCycle / 1460 + dayOfCycle / 36524 - dayOfCycle / 146096) / 365
  let dayOfYear := dayOfCycle - (365 * yearOfCycle + yearOfCycle / 4 - yearOfCycle / 100)
  let shifted := (5 * dayOfYear + 2) / 153
  let month := if shifted < 10 then shifted + 3 else shifted - 9
  { year := 400 * cycle + yearOfCycle + (if month ≤ 2 then 1 else 0)
    month := month
    day := dayOfYear - (153 * shifted + 2) / 5 + 1 }

def secondsPerDay : Int := 86400

/-- Hours, minutes and seconds of a moment's day. -/
def clock (second : Int) : Text :=
  let s := (second.fmod secondsPerDay).toNat
  Text.padded 2 (s / 3600) ++ ':' :: Text.padded 2 (s / 60 % 60) ++ ':' :: Text.padded 2 (s % 60)

/-- The date with dashes; years have four digits at least. -/
def Date.text (d : Date) : Text :=
  Text.padded 4 d.year.toNat ++ '-' :: Text.padded 2 d.month ++ '-' :: Text.padded 2 d.day

/-- The moment in one text, with microseconds if there are any; `none` outside of the
    years 1 to 9999. -/
def stamp? (microsecond : Int) : Option Text :=
  let second := microsecond.fdiv 1000000
  let fraction := (microsecond.fmod 1000000).toNat
  let date := Date.ofDays (second.fdiv secondsPerDay)
  if date.year < 1 ∨ 9999 < date.year then none
  else some (date.text ++ 'T' :: clock second ++
    (if fraction = 0 then [] else '.' :: Text.padded 6 fraction) ++ "+00:00".toList)

example : stamp? 951782400000000 = some "2000-02-29T00:00:00+00:00".toList := by decide
example : stamp? (-1) = some "1969-12-31T23:59:59.999999+00:00".toList := by decide

end Accessors.Log
