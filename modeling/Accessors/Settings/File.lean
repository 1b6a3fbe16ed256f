/-
  Accessors.Settings.File — settings from a file.

  The file holds one JSON object in UTF-8. A file that cannot be opened, is no JSON or is
  JSON of another kind is refused with a message; bytes that are not UTF-8, whole numbers
  of too many digits and values nested too deeply for the reader are not foreseen.
-/
import Accessors.Disk.Fault
import Accessors.Settings
import Accessors.Text.Lines
import Accessors.Value.Reader

namespace Accessors.Settings

inductive FileFault where
  | unreadable (fault : DiskFault)
  | malformed (cause : Value.Cause) (place : Value.Place)
  | notObject
  deriving DecidableEq, Repr

def FileFault.message (path : Text) : FileFault → Text
  | .unreadable f => "Could not load settings from ".toList ++ path ++ ": ".toList ++ f.message path
  | .malformed cause place =>
    "Could not load settings from ".toList ++ path ++ ": ".toList ++ (Value.ReadFault.malformed cause place).message
  | .notObject => "Settings file ".toList ++ path ++ " must contain a JSON object".toList

/-- Settings in the text of a file. -/
def ofText (bounds : Value.Bounds) (t : Text) : Except Fault (Except FileFault Settings) :=
  match Value.read bounds (Text.unifyBreaks t) with
  | .ok (.object members) => .ok (.ok (ofEntries members))
  | .ok _ => .ok (.error .notObject)
  | .error (.malformed cause place) => .ok (.error (.malformed cause place))
  | .error (.wholeNumber f) => .error (.wholeNumber f)
  | .error .tooDeep => .error .nestedTooDeeply

def ofFile (bounds : Value.Bounds) (opening : Opening) (path : Text) : Except Fault (Except FileFault Settings) :=
  if Text.contains ['\x00'] path then .error .nullInPath
  else match opening path with
    | .error f => .ok (.error (.unreadable f))
    | .ok bytes =>
      match Utf8.decode bytes with
      | .error f => .error (.undecodable f)
      | .ok t => ofText bounds t

end Accessors.Settings
