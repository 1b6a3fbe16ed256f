/-
  Accessors.Text.Chunk — text as words with the blanks behind them.

  Only the first word of a text can be empty, if the text starts with a blank, and only
  behind the last word there may be no blank.

  - `flatMap_chunks`: the chunks put together are the text.
-/
import Accessors.Text.Blank

namespace Accessors.Text

structure Chunk where
  word : Text
  gap : Text
  deriving DecidableEq, Repr

def Chunk.text (k : Chunk) : Text := k.word ++ k.gap

/-- The chunks of `c :: t`, from those of `t`. -/
def consChunk (c : Char) : List Chunk → List Chunk
  | [] => if isBlank c then [⟨[], [c]⟩] else [⟨[c], []⟩]
  | k :: ks =>
    if isBlank c then
      if k.word.isEmpty then ⟨[], c :: k.gap⟩ :: ks else ⟨[], [c]⟩ :: k :: ks
    else ⟨c :: k.word, k.gap⟩ :: ks

def chunks (t : Text) : List Chunk := t.foldr consChunk []

theorem flatMap_consChunk (c : Char) (ks : List Chunk) :
    (consChunk c ks).flatMap Chunk.text = c :: ks.flatMap Chunk.text := by
  cases ks with
  | nil => simp only [consChunk]; split <;> simp [Chunk.text]
  | cons k ks =>
    simp only [consChunk]
    split
    · split
      · rename_i h
        simp [Chunk.text, List.isEmpty_iff.mp h]
      · simp [Chunk.text]
    · simp [Chunk.text]

theorem flatMap_chunks (t : Text) : (chunks t).flatMap Chunk.text = t := by
  induction t with
  | nil => rfl
  | cons c r ih =>
    simp only [chunks, List.foldr_cons] at ih ⊢
    rw [flatMap_consChunk, ih]

end Accessors.Text
