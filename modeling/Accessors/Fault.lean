/-
  Accessors.Fault — what stops a command without a message to its user.

  These are the faults that no command foresees. Each has its text, save those that say
  nothing but what they are.
-/
import Accessors.Number.IntText
import Accessors.Text.Utf8

namespace Accessors

inductive Fault where
  /-- A run of spaces longer than memory could ever hold. -/
  | countTooLarge
  /-- A file that is not UTF-8. -/
  | undecodable (fault : Utf8.Fault)
  /-- A path with a null character in it. -/
  | nullInPath
  /-- A text that was to be a whole number and is none, or a number too large for a text. -/
  | wholeNumber (fault : IntText.Fault)
  /-- Lists and objects within each other, to a greater depth than any is read. -/
  | nestedTooDeeply
  /-- A value to be shown as a number, of a kind that is none. -/
  | notNumber (kind : Text)
  /-- Infinity has no whole part. -/
  | infiniteNumber
  /-- Not a number has no whole part. -/
  | undefinedNumber
  /-- A value asked for a member, of a kind that has none. -/
  | noMembers
  /-- A line that the protocol has no position for, with what it says. -/
  | lineRefused (text : Text)
  /-- An address that the protocol does not take, with what it says. -/
  | addressRefused (text : Text)
  | unknownTransport (text : Text)
  /-- A line asked for without its number. -/
  | lineWithoutNumber
  /-- A kind of accessors asked for without its name. -/
  | kindWithoutName
  /-- A level of the log asked for without its name. -/
  | levelWithoutName
  deriving DecidableEq, Repr

def Fault.message : Fault → Text
  | .countTooLarge => "cannot fit 'int' into an index-sized integer".toList
  | .undecodable f => f.message
  | .nullInPath => "embedded null byte".toList
  | .wholeNumber f => f.message
  | .nestedTooDeeply => []
  | .notNumber kind => "%d format: a real number is required, not ".toList ++ kind
  | .infiniteNumber => "cannot convert float infinity to integer".toList
  | .undefinedNumber => "cannot convert float NaN to integer".toList
  | .noMembers => []
  | .lineRefused t => t
  | .addressRefused t => t
  | .unknownTransport t => "Unknown transport: ".toList ++ t
  | .lineWithoutNumber => "unsupported operand type(s) for -: 'list' and 'int'".toList
  | .kindWithoutName => "unhashable type: 'list'".toList
  | .levelWithoutName => []

end Accessors
