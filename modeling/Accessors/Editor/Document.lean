/-
  Accessors.Editor.Document — an open document and what is done to it.

  A document is its lines and the lines with a cursor; commands go through the cursors
  from the top. An insertion puts text before the first column of a line.

  - `perm_ordered`, `pairwise_ordered`: the cursors from the top are all of them, in order.
-/
import Accessors.Fault
import Accessors.Text.Lines

namespace Accessors

structure Document where
  lines : List Text
  languageId : Text
  selections : List Int
  uri : Option Codes
  deriving DecidableEq, Repr

namespace Document

def ofText (text : Text) (selections : List Int) (languageId : Text) (uri : Option Codes) : Document :=
  ⟨Text.lines text, languageId, selections, uri⟩

/-- A line put before the first one that is not above it. -/
def insertOrdered (line : Int) : List Int → List Int
  | [] => [line]
  | l :: ls => if line ≤ l then line :: l :: ls else l :: insertOrdered line ls

/-- The selections in the order of the document. -/
def ordered (d : Document) : List Int := d.selections.foldr insertOrdered []

theorem perm_insertOrdered (line : Int) (ls : List Int) : (insertOrdered line ls).Perm (line :: ls) := by
  induction ls with
  | nil => exact List.Perm.refl _
  | cons l ls ih =>
    simp only [insertOrdered]
    split
    · exact List.Perm.refl _
    · exact (ih.cons l).trans (List.Perm.swap line l ls)

theorem pairwise_insertOrdered (line : Int) {ls : List Int} (h : ls.Pairwise (· ≤ ·)) :
    (insertOrdered line ls).Pairwise (· ≤ ·) := by
  induction ls with
  | nil => simp [insertOrdered]
  | cons l ls ih =>
    obtain ⟨hl, hs⟩ := List.pairwise_cons.mp h
    simp only [insertOrdered]
    split
    · rename_i hle
      refine List.pairwise_cons.mpr ⟨fun x hx => ?_, h⟩
      rcases List.mem_cons.mp hx with rfl | hx
      · exact hle
      · exact Int.le_trans hle (hl x hx)
    · rename_i hlt
      refine List.pairwise_cons.mpr ⟨fun x hx => ?_, ih hs⟩
      rcases List.mem_cons.mp ((perm_insertOrdered line ls).mem_iff.mp hx) with rfl | hx
      · omega
      · exact hl x hx

theorem perm_ordered (d : Document) : d.ordered.Perm d.selections := by
  unfold ordered
  induction d.selections with
  | nil => exact List.Perm.refl _
  | cons l ls ih => exact (perm_insertOrdered l _).trans (ih.cons l)

theorem pairwise_ordered (d : Document) : d.ordered.Pairwise (· ≤ ·) := by
  unfold ordered
  induction d.selections with
  | nil => exact List.Pairwise.nil
  | cons l ls ih => exact pairwise_insertOrdered l ih

end Document

structure Insertion where
  line : Int
  text : Text
  deriving DecidableEq, Repr

/-- The last line of the text once it stands in the document. -/
def Insertion.redirectLine (i : Insertion) : Int := i.line + i.text.count '\n' - 1

/-- What comes of an insertion that an editor was asked for. -/
inductive Reply where
  | accepted
  | refused
  | failed (reason : Text)
  /-- The editor itself came to a stop. -/
  | broken (fault : Fault)
  deriving DecidableEq, Repr

end Accessors
