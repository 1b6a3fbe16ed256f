/-
  Accessors.Proofs.Text.Gap — words, and the blanks between them.

  A gap is a run of blanks, one at least. A text is cut into chunks one at a time, from
  its start: `chunks_word_gap` for a word with a gap behind it, `chunks_word` for the last
  word. `exists_word` is how every text starts, so that a scan over chunks can be followed
  by induction on the length of the text.
-/
import Accessors.Text.Chunk
import Mathlib.Data.List.TakeWhile

namespace Accessors.Text

/-- No blank among the characters. -/
def Solid (t : Text) : Prop := ∀ c ∈ t, isBlank c = false

def Gap (t : Text) : Prop := t ≠ [] ∧ ∀ c ∈ t, isBlank c = true

/-- The text does not start with a blank. -/
def Flush (t : Text) : Prop := ∀ c ∈ t.head?, isBlank c = false

theorem flush_cons {c : Char} {t : Text} : Flush (c :: t) ↔ isBlank c = false := by simp [Flush]

theorem solid_of_all {t : Text} (h : (t.all fun c => !isBlank c) = true) : Solid t := by
  intro c hc
  simpa using List.all_eq_true.1 h c hc

theorem Solid.flush_append {w t : Text} (hw : Solid w) (hne : w ≠ []) : Flush (w ++ t) := by
  obtain ⟨c, r, rfl⟩ := List.exists_cons_of_ne_nil hne
  exact flush_cons.2 (hw c (by simp))

theorem flush_dropWhile (t : Text) : Flush (t.dropWhile isBlank) := by
  intro c hc
  have h := List.head?_dropWhile_not isBlank t
  rw [hc] at h
  simpa using h

/-! ## The start of a text -/

/-- A run of some characters ends where one comes that is none of them. -/
theorem span_append {p : Char → Bool} {a r : Text} (ha : ∀ c ∈ a, p c = true) (hr : ∀ c ∈ r.head?, p c = false) :
    (a ++ r).takeWhile p = a ∧ (a ++ r).dropWhile p = r := by
  rw [List.takeWhile_append_of_pos ha, List.dropWhile_append_of_pos ha]
  cases r with
  | nil => exact ⟨List.append_nil a, rfl⟩
  | cons c r =>
    have hc : ¬p c = true := Bool.eq_false_iff.1 (hr c rfl)
    rw [List.takeWhile_cons_of_neg hc, List.dropWhile_cons_of_neg hc, List.append_nil]
    exact ⟨rfl, rfl⟩

/-- Every text is a word, perhaps an empty one, then blanks, then a text that does not
    start with a blank; and there is something between two words. -/
theorem exists_word (t : Text) :
    ∃ w g u, t = w ++ g ++ u ∧ Solid w ∧ (∀ c ∈ g, isBlank c = true) ∧ Flush u ∧ (g = [] → u = []) := by
  refine ⟨t.takeWhile (!isBlank ·), (t.dropWhile (!isBlank ·)).takeWhile isBlank,
    (t.dropWhile (!isBlank ·)).dropWhile isBlank, ?_, ?_, ?_, flush_dropWhile _, ?_⟩
  · rw [List.append_assoc, List.takeWhile_append_dropWhile, List.takeWhile_append_dropWhile]
  · intro c hc
    simpa using List.mem_takeWhile_imp hc
  · intro c hc
    exact List.mem_takeWhile_imp hc
  · intro hg
    have h := List.head?_dropWhile_not (!isBlank ·) t
    cases hr : t.dropWhile (!isBlank ·) with
    | nil => rfl
    | cons c r =>
      rw [hr] at h hg
      have hb : isBlank c = true := by simpa using h
      simp [hb] at hg

/-! ## Chunks from the start -/

theorem chunks_cons (c : Char) (t : Text) : chunks (c :: t) = consChunk c (chunks t) := rfl

/-- A text that does not start with a blank has a word first, if it has a chunk. -/
theorem Flush.head?_chunks {t : Text} (h : Flush t) : ∀ k ∈ (chunks t).head?, k.word ≠ [] := by
  cases t with
  | nil => simp [chunks]
  | cons c r =>
    have hc := flush_cons.1 h
    rw [chunks_cons]
    cases chunks r <;> simp [consChunk, hc]

theorem chunks_gap {g u : Text} (hg : Gap g) (hu : Flush u) : chunks (g ++ u) = ⟨[], g⟩ :: chunks u := by
  obtain ⟨hne, hb⟩ := hg
  induction g with
  | nil => exact absurd rfl hne
  | cons b g ih =>
    have hbb : isBlank b = true := hb b (by simp)
    rw [List.cons_append, chunks_cons]
    by_cases e : g = []
    · subst e
      have hw := hu.head?_chunks
      rw [List.nil_append]
      cases hk : chunks u with
      | nil => simp [consChunk, hbb]
      | cons k ks =>
        have hkw : k.word ≠ [] := hw k (by simp [hk])
        simp [consChunk, hbb, hkw]
    · rw [ih e fun c hc => hb c (by simp [hc])]
      simp [consChunk, hbb]

/-- A word goes to the front of the chunk behind it, which has none yet. -/
theorem chunks_solid {w r g : Text} {ks : List Chunk} (hw : Solid w) (hr : chunks r = ⟨[], g⟩ :: ks) :
    chunks (w ++ r) = ⟨w, g⟩ :: ks := by
  induction w with
  | nil => exact hr
  | cons c w ih =>
    rw [List.cons_append, chunks_cons, ih fun d hd => hw d (by simp [hd])]
    simp [consChunk, hw c (by simp)]

theorem chunks_word_gap {w g u : Text} (hw : Solid w) (hg : Gap g) (hu : Flush u) :
    chunks (w ++ g ++ u) = ⟨w, g⟩ :: chunks u := by
  rw [List.append_assoc]
  exact chunks_solid hw (chunks_gap hg hu)

theorem chunks_word {w : Text} (hw : Solid w) (hne : w ≠ []) : chunks w = [⟨w, []⟩] := by
  induction w with
  | nil => exact absurd rfl hne
  | cons c w ih =>
    have hc : isBlank c = false := hw c (by simp)
    rw [chunks_cons]
    by_cases e : w = []
    · subst e
      simp [chunks, consChunk, hc]
    · rw [ih (fun d hd => hw d (by simp [hd])) e]
      simp [consChunk, hc]

end Accessors.Text
