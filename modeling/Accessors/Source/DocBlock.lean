/-
  Accessors.Source.DocBlock — the documentation above a declaration.

  The comment that ends on the line above counts if every line of it up to its opening
  line starts with an asterisk. Its summary is the first line of words that is no tag.
  The last tag of a variable gives the type, and a description if there is no summary.
-/
import Accessors.Text.Blank

namespace Accessors

structure DocBlock where
  type : Option Text
  description : Option Text
  deriving DecidableEq, Repr

namespace DocBlock

def none : DocBlock := ⟨.none, .none⟩

def opener : Text := "/**".toList

def closer : Text := "*/".toList

/-- Given the lines from the last one upward, those of the comment from its first one
    downward, before those in `done`. -/
def commentFrom? (done : List Text) : List Text → Option (List Text)
  | [] => .none
  | l :: above =>
    let t := Text.trim l
    if Text.startsWith opener t then some (t :: done)
    else if Text.startsWith ['*'] t then commentFrom? (t :: done) above
    else .none

/-- The comment that ends on the nearest of the lines above. -/
def comment? : List Text → Option (List Text)
  | [] => .none
  | l :: above => if Text.endsWith closer (Text.trim l) then commentFrom? [] (l :: above) else .none

def dropStart (head t : Text) : Text := (Text.after? head t).getD t

def dropEnd (tail t : Text) : Text := if Text.endsWith tail t then t.take (t.length - tail.length) else t

/-- The words of a line of a comment. -/
def content (line : Text) : Text :=
  Text.trim (dropStart ['*'] (Text.trim (dropEnd closer (dropStart opener line))))

/-! ## Summary and tags -/

structure Notes where
  summary : Option Text
  type : Option Text
  /-- What the tag that gave the type says behind it. -/
  remark : Option Text
  deriving DecidableEq, Repr

/-- The words behind a type, without the variable that they may name first. -/
def remarkOf? (words : List Text) : Option Text :=
  let words := match words with
    | w :: ws => if Text.startsWith ['$'] w then ws else w :: ws
    | [] => []
  if words.isEmpty then .none else some (Text.joinWith [' '] words)

def Notes.add (n : Notes) (line : Text) : Notes :=
  if line.isEmpty then n
  else if !Text.startsWith ['@'] line then
    { n with summary := n.summary.or (some line) }
  else match Text.words line with
    | tag :: type :: more =>
      if tag = "@var".toList then { n with type := some type, remark := remarkOf? more } else n
    | _ => n

def notes (comment : List Text) : Notes := (comment.map content).foldl Notes.add ⟨.none, .none, .none⟩

def ofComment (comment : List Text) : DocBlock :=
  let n := notes comment
  ⟨n.type, n.summary.or n.remark⟩

/-- The documentation below the lines `above`, the nearest first. -/
def read (above : List Text) : DocBlock :=
  match comment? above with
  | some c => ofComment c
  | .none => none

end DocBlock

end Accessors
