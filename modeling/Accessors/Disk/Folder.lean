/-
  Accessors.Disk.Folder — a folder of files, and the ways through it.

  What a folder holds is listed by the names that lead to it. A path is followed name by
  name; only folders can be gone through, and two dots lead back, at the top out of the
  folder. What a path is that starts with a slash or has led out, is not known but by
  opening it.
-/
import Accessors.Disk.Fault
import Accessors.Disk.Path
import Accessors.Entries

namespace Accessors

inductive Item where
  | file (bytes : Bytes)
  | folder
  deriving DecidableEq, Repr

structure Folder where
  held : Entries (List Text) Item
  /-- What comes of the paths that lead out of the folder. -/
  outside : Opening

namespace Folder

/-- How far a path has led. -/
inductive Spot where
  | within (names : List Text)
  | outside
  deriving DecidableEq, Repr

def item? (d : Folder) (names : List Text) : Option Item :=
  if names.isEmpty then some .folder else Entries.find? names d.held

def isFolder (d : Folder) : Spot → Bool
  | .outside => true
  | .within names => d.item? names == some .folder

/-- The bounds on a name and on a path, in bytes. -/
def maxName : Nat := 255

def maxPath : Nat := 4095

def enter (d : Folder) (spot : Spot) (name : Text) : Except DiskFault Spot :=
  match spot with
  | .outside => .ok .outside
  | .within names =>
    if !d.isFolder (.within names) then .error .notFolder
    else if name = ['.'] then .ok (.within names)
    else if name = "..".toList then .ok (if names.isEmpty then .outside else .within names.dropLast)
    else if maxName < (Utf8.encode name).length then .error .nameTooLong
    else match d.item? (names ++ [name]) with
      | some _ => .ok (.within (names ++ [name]))
      | none => .error .missing

/-- Where a path leads. One that ends in a slash must lead to a folder. -/
def follow (d : Folder) (path : Text) : Except DiskFault Spot := do
  if maxPath < (Utf8.encode path).length then throw .nameTooLong
  if path.isEmpty then throw .missing
  let names := (Text.splitOn '/' path).filter fun n => !n.isEmpty
  let spot ← names.foldlM d.enter (if path.head? = some '/' then .outside else .within [])
  if path.getLast? = some '/' && !d.isFolder spot then throw .notFolder
  pure spot

def read (d : Folder) : Opening := fun path => do
  match ← d.follow path with
  | .outside => d.outside path
  | .within names =>
    match d.item? names with
    | some (.file bytes) => pure bytes
    | some .folder => throw .isFolder
    | none => throw .missing

/-! ## Changes -/

def assign (names : List Text) (item : Item) (d : Folder) : Folder :=
  { d with held := Entries.assign names item d.held }

/-- The folders that lead to `names`. -/
def addParents (names : List Text) (d : Folder) : Folder :=
  (List.range names.length).foldl (fun d n => if n = 0 then d else d.assign (names.take n) .folder) d

def put (names : List Text) (item : Item) (d : Folder) : Folder := (addParents names d).assign names item

def remove (names : List Text) (d : Folder) : Folder :=
  { d with held := d.held.filter fun e => !names.isPrefixOf e.1 }

/-- Other bytes in the file that a path leads to. -/
def write (path : Text) (bytes : Bytes) (d : Folder) : Folder :=
  match d.follow path with
  | .ok (.within names) => d.assign names (.file bytes)
  | .ok .outside => { d with outside := fun p => if p = path then .ok bytes else d.outside p }
  | .error _ => d

end Folder

end Accessors
