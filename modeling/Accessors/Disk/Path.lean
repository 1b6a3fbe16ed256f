/-
  Accessors.Disk.Path — paths without what they say twice.

  Of a path its root and its parts are kept; empty parts and single dots say nothing. A
  double dot stays, as it may lead out of a linked folder. Two slashes at the start are a
  root of their own; more than two are one.
-/
import Accessors.Text.Case
import Accessors.Text.Utf8

namespace Accessors

structure Path where
  root : Text
  parts : List Text
  deriving DecidableEq, Repr

namespace Path

def rootOf : Text → Text
  | '/' :: '/' :: '/' :: _ => ['/']
  | '/' :: '/' :: _ => ['/', '/']
  | '/' :: _ => ['/']
  | _ => []

def ofText (t : Text) : Path where
  root := rootOf t
  parts := (Text.splitOn '/' t).filter fun p => !(p.isEmpty || p == ['.'])

def text (p : Path) : Text :=
  if p.root.isEmpty && p.parts.isEmpty then ['.'] else p.root ++ Text.joinWith ['/'] p.parts

def name (p : Path) : Text := p.parts.getLast?.getD []

/-- The last dot of the name and what follows it; a dot that starts or ends a name does
    not count. -/
def suffix (p : Path) : Text :=
  let ending := p.name.reverse.takeWhile (· ≠ '.')
  let stem := p.name.length - ending.length - 1
  if ending.isEmpty || stem == 0 || ending.length == p.name.length then [] else p.name.drop stem

/-! ## Addresses -/

/-- The parts with each double dot taken at its word. -/
def resolved (p : Path) : List Text :=
  p.parts.foldl (fun done part => if part = "..".toList then done.dropLast else done ++ [part]) []

def isUnreserved (b : UInt8) : Bool :=
  let c := Char.ofNat b.toNat
  c.isAlphanum || c = '_' || c = '.' || c = '-' || c = '~'

def percentByte (b : UInt8) : Text :=
  if isUnreserved b then [Char.ofNat b.toNat] else '%' :: (Text.hex 2 b.toNat).map Char.toUpper

def percentEncoded (t : Text) : Text := (Utf8.encode t).flatMap percentByte

/-- The address of a file, given the address of the current folder. -/
def uri (folder : Text) (p : Path) : Text :=
  (if p.root.isEmpty then folder else "file://".toList) ++ p.resolved.flatMap fun part => '/' :: percentEncoded part

end Path

end Accessors
