/-
  Accessors.Log.Notice — what the program reports of its own doing.

  A notice has a level, the name of the part that makes it, and a message. A message is
  a string of code points, as it can show what came out of strings. Levels are whole
  numbers, five of which have names; the greater, the more urgent.
-/
import Accessors.Text.Codes

namespace Accessors.Log

structure Notice where
  level : Int
  logger : Text
  message : Codes
  deriving DecidableEq, Repr

def Notice.ofText (level : Int) (logger message : Text) : Notice := ⟨level, logger, message.codes⟩

namespace Level

def debug : Int := 10

def info : Int := 20

def warning : Int := 30

def error : Int := 40

def critical : Int := 50

end Level

/-- The name that the parts of the program put before their own. -/
def packageName : Text := "php_getters_setters".toList

def logger (part : String) : Text := packageName ++ '.' :: part.toList

end Accessors.Log
