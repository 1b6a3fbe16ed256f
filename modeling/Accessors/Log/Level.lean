/-
  Accessors.Log.Level — the names of levels.

  Six names stand for six levels, and two of the levels have a second name by which they
  can be asked for. Every other level is called by its number.
-/
import Accessors.Log.Notice
import Accessors.Text.Case

namespace Accessors.Log.Level

/-- The levels with a name of their own. -/
def table : List (Text × Int) := [
  ("CRITICAL".toList, critical), ("ERROR".toList, error), ("WARNING".toList, warning),
  ("INFO".toList, info), ("DEBUG".toList, debug), ("NOTSET".toList, 0)]

def synonyms : List (Text × Int) := [("FATAL".toList, critical), ("WARN".toList, warning)]

/-- The level of a name written in capitals. -/
def ofName? (name : Text) : Option Int := ((table ++ synonyms).find? (·.1 == name)).map (·.2)

def name (level : Int) : Text :=
  match table.find? (·.2 == level) with
  | some e => e.1
  | none => "Level ".toList ++ Text.ofInt level

/-- The level that a name in any letter case asks for; an unknown one asks for warnings. -/
def requested (name : Text) : Int := (ofName? (Text.upper name)).getD warning

end Accessors.Log.Level
