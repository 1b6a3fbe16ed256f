/-
  Accessors.Text.Blank — the blank characters and what is left without them.

  A blank is any white space of the Unicode standard: the five ASCII controls from tab
  to carriage return, the four information separators, the space, next line, and the
  spaces and separators above ASCII. Zero-width characters are not blank.

  - `words_ne_nil`: a word is never empty.
-/
import Accessors.Text.Basic

namespace Accessors.Text

def isBlank (c : Char) : Bool :=
  let n := c.toNat
  (9 ≤ n && n ≤ 13) || (28 ≤ n && n ≤ 32) || n == 0x85 || n == 0xa0 || n == 0x1680 ||
    (0x2000 ≤ n && n ≤ 0x200a) || n == 0x2028 || n == 0x2029 || n == 0x202f || n == 0x205f || n == 0x3000

def trimStart (t : Text) : Text := t.dropWhile isBlank

def trimEnd (t : Text) : Text := dropEndWhile isBlank t

def trim (t : Text) : Text := trimEnd (trimStart t)

/-- The blanks that a text starts with. -/
def indentation (t : Text) : Text := t.takeWhile isBlank

/-! ## Words -/

def endWord (word : Text) (rest : List Text) : List Text := if word.isEmpty then rest else word :: rest

/-- The word under way, and the words after it. -/
def wordsFrom (t : Text) : Text × List Text :=
  t.foldr (fun c w => if isBlank c then ([], endWord w.1 w.2) else (c :: w.1, w.2)) ([], [])

/-- The runs of characters between the blanks. -/
def words (t : Text) : List Text := endWord (wordsFrom t).1 (wordsFrom t).2

theorem endWord_ne_nil {word : Text} {rest : List Text} (h : ∀ w ∈ rest, w ≠ []) :
    ∀ w ∈ endWord word rest, w ≠ [] := by
  cases word with
  | nil => simpa [endWord] using h
  | cons c r => simpa [endWord] using h

theorem words_ne_nil (t : Text) : ∀ w ∈ words t, w ≠ [] := by
  have h : ∀ w ∈ (wordsFrom t).2, w ≠ [] := by
    induction t with
    | nil => simp [wordsFrom]
    | cons c r ih =>
      simp only [wordsFrom, List.foldr_cons] at ih ⊢
      split
      · exact endWord_ne_nil ih
      · exact ih
  exact endWord_ne_nil h

end Accessors.Text
