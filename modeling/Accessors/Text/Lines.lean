/-
  Accessors.Text.Lines — lines and their breaks.

  Ten characters end a line, and a carriage return followed by a line feed ends it
  once: `\n`, `\r`, vertical tab, form feed, three of the information separators, next
  line, and the line and paragraph separators. A text that does not end in a break has
  an unterminated last line; the empty text has no line at all.

  - `flatMap_splitLines`: the lines with their breaks are the text.
-/
import Accessors.Text.Basic

namespace Accessors.Text

/-- A line; only the last line of a text can have an empty ending. -/
structure Line where
  body : Text
  ending : Text
  deriving DecidableEq, Repr

def Line.text (l : Line) : Text := l.body ++ l.ending

def isBreak (c : Char) : Bool :=
  let n := c.toNat
  (10 ≤ n && n ≤ 13) || (28 ≤ n && n ≤ 30) || n == 0x85 || n == 0x2028 || n == 0x2029

/-- The lines of `c :: t`, from those of `t`. -/
def consLine (c : Char) : List Line → List Line
  | [] => if isBreak c then [⟨[], [c]⟩] else [⟨[c], []⟩]
  | l :: ls =>
    if c = '\r' ∧ l.body = [] ∧ l.ending = ['\n'] then ⟨[], ['\r', '\n']⟩ :: ls
    else if isBreak c then ⟨[], [c]⟩ :: l :: ls
    else ⟨c :: l.body, l.ending⟩ :: ls

def splitLines (t : Text) : List Line := t.foldr consLine []

/-- The lines without their breaks. -/
def lines (t : Text) : List Text := (splitLines t).map Line.body

/-- The lines with their breaks. -/
def linesKept (t : Text) : List Text := (splitLines t).map Line.text

theorem flatMap_consLine (c : Char) (ls : List Line) :
    (consLine c ls).flatMap Line.text = c :: ls.flatMap Line.text := by
  cases ls with
  | nil => simp only [consLine]; split <;> simp [Line.text]
  | cons l ls =>
    simp only [consLine]
    split
    · rename_i h
      obtain ⟨rfl, hb, he⟩ := h
      simp [Line.text, hb, he]
    · split <;> simp [Line.text]

theorem flatMap_splitLines (t : Text) : (splitLines t).flatMap Line.text = t := by
  induction t with
  | nil => rfl
  | cons c r ih =>
    simp only [splitLines, List.foldr_cons] at ih ⊢
    rw [flatMap_consLine, ih]

theorem flatten_linesKept (t : Text) : (linesKept t).flatten = t := by
  rw [linesKept, ← List.flatMap_def, flatMap_splitLines]

/-! ## Carriage returns -/

/-- Every break written with a carriage return becomes a line feed. -/
def unifyBreaks : Text → Text
  | [] => []
  | '\r' :: '\n' :: r => '\n' :: unifyBreaks r
  | c :: r => (if c = '\r' then '\n' else c) :: unifyBreaks r

/-- The text without the carriage returns and line feeds at its end. -/
def dropBreak (t : Text) : Text := dropEndWhile (fun c => c = '\r' || c = '\n') t

end Accessors.Text
