/-
  Accessors.Source.Property — a property and where its parts come from.

  The name, the hint and the indentation come from the line of the declaration, the
  description from the documentation above. The type is the documented one, or else the
  hint, or else what the default value shows; a pseudo-type in place of the hint comes
  last and is no hint. A search goes from the cursor upward to the first declaration.

  - `find?_nil`: an empty document declares nothing.
-/
import Accessors.Source.Declaration
import Accessors.Source.DocBlock
import Accessors.Source.Literal
import Accessors.Text.Lines

namespace Accessors

structure Property where
  name : Name
  hint : Option Text
  type : Option Text
  description : Option Text
  indentation : Text
  deriving DecidableEq, Repr

namespace Property

/-- The type that a default value shows; null could be of any. -/
def inferred? (default : Option Text) : Option Text :=
  match default.bind Literal.infer? with
  | some .null => none
  | some l => some l.name
  | none => none

/-- The hint that a parameter can carry. -/
def concreteHint? (hint : Option Text) : Option Text := hint.filter fun h => !Keyword.isPseudoType h

/-- A hint that stands for no type of its own. -/
def pseudoHint? (hint : Option Text) : Option Text := hint.filter Keyword.isPseudoType

def ofDeclaration (d : Declaration) (doc : DocBlock) (indentation : Text) : Property where
  name := d.name
  hint := concreteHint? d.hint
  type := doc.type.or ((concreteHint? d.hint).or ((inferred? d.default).or (pseudoHint? d.hint)))
  description := doc.description
  indentation := indentation

/-- The property that `line` declares below the lines `above`, the nearest first. -/
def ofLine? (above : List Text) (line : Text) : Option Property :=
  let line := Text.dropBreak line
  (Declaration.scan? (Text.trim line)).map fun d =>
    ofDeclaration d (DocBlock.read above) (Text.indentation line)

/-- A property and the line that declares it. -/
structure Found where
  line : Nat
  property : Property
  deriving DecidableEq, Repr

/-- The nearest declaration on the lines `above`, the nearest first. -/
def findAbove? : List Text → Option Found
  | [] => none
  | l :: above =>
    match ofLine? above l with
    | some p => some ⟨above.length, p⟩
    | none => findAbove? above

/-- The number of lines from the top to the cursor, which is moved into the document. -/
def linesToCursor (count : Nat) (cursor : Int) : Nat := min cursor.toNat (count - 1) + 1

/-- The nearest declaration at or above the cursor. -/
def find? (lines : List Text) (cursor : Int) : Option Found :=
  findAbove? (lines.take (linesToCursor lines.length cursor)).reverse

theorem find?_nil (cursor : Int) : find? [] cursor = none := by simp [find?, findAbove?]

end Property

end Accessors
