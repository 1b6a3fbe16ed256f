/-
  Accessors.Disk.Fault — why a file cannot be opened.
-/
import Accessors.Text.Quoted

namespace Accessors

abbrev Bytes := List UInt8

inductive DiskFault where
  | missing
  | notFolder
  | isFolder
  | nameTooLong
  | other (number : Nat) (text : Text)
  deriving DecidableEq, Repr

namespace DiskFault

def number : DiskFault → Nat
  | missing => 2
  | notFolder => 20
  | isFolder => 21
  | nameTooLong => 36
  | other n _ => n

def text : DiskFault → Text
  | missing => "No such file or directory".toList
  | notFolder => "Not a directory".toList
  | isFolder => "Is a directory".toList
  | nameTooLong => "File name too long".toList
  | other _ t => t

def message (f : DiskFault) (path : Text) : Text :=
  "[Errno ".toList ++ Text.ofNat f.number ++ "] ".toList ++ f.text ++ ": ".toList ++ Text.quoted path

end DiskFault

/-- What comes of opening a file for reading, by its path. -/
abbrev Opening := Text → Except DiskFault Bytes

end Accessors
