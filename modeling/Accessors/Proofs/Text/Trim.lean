/-
  Accessors.Proofs.Text.Trim — what trimming leaves, and of which characters.

  `Of p t` says that every character of `t` is of a class `p`. What is cut out of a text
  is of the class that the text was of, so that a class can be followed from the lines of
  a document to what is made of them.

  - `trim_dropBreak`: a break at the end of a line is lost in trimming anyway.
  - `dropEndWhile_append`: trimming stops at a character that is not of the class.
  - `indentation_append`: what is behind the first character that is no blank does not
    count for the indentation.
-/
import Accessors.Proofs.Text.Gap
import Accessors.Text.Lines
import Mathlib.Data.List.DropRight

namespace Accessors.Text

/-! ## Classes of characters -/

def Of (p : Char → Prop) (t : Text) : Prop := ∀ c ∈ t, p c

variable {p : Char → Prop}

instance [DecidablePred p] (t : Text) : Decidable (Of p t) := List.decidableBAll p t

@[simp] theorem of_nil : Of p [] := by simp [Of]

@[simp] theorem of_cons {c : Char} {t : Text} : Of p (c :: t) ↔ p c ∧ Of p t := by simp [Of]

@[simp] theorem of_append {s t : Text} : Of p (s ++ t) ↔ Of p s ∧ Of p t := by
  simp [Of, or_imp, forall_and]

theorem of_ne_iff {c : Char} {t : Text} : Of (· ≠ c) t ↔ c ∉ t := by
  constructor
  · intro h hc
    exact h c hc rfl
  · intro h d hd e
    exact h (e ▸ hd)

theorem Of.sublist {s t : Text} (ht : Of p t) (h : s.Sublist t) : Of p s := fun c hc => ht c (h.subset hc)

theorem dropEndWhile_sublist (q : Char → Bool) (t : Text) : (dropEndWhile q t).Sublist t :=
  (List.rdropWhile_prefix q t).sublist

theorem trim_sublist (t : Text) : (trim t).Sublist t :=
  (dropEndWhile_sublist _ _).trans (List.dropWhile_sublist _)

theorem indentation_blank (t : Text) : ∀ c ∈ indentation t, isBlank c = true :=
  fun _ hc => List.mem_takeWhile_imp hc

theorem Of.joinWith {sep : Text} (hs : Of p sep) {ps : List Text} (h : ∀ q ∈ ps, Of p q) : Of p (joinWith sep ps) := by
  induction ps with
  | nil => exact of_nil
  | cons q ps ih =>
    cases ps with
    | nil => exact h q (by simp)
    | cons r ps =>
      simp only [Text.joinWith, of_append]
      exact ⟨⟨h q (by simp), hs⟩, ih fun x hx => h x (List.mem_cons_of_mem _ hx)⟩

theorem eq_or_mem_of_mem_endWord {word w : Text} {rest : List Text} (h : w ∈ endWord word rest) :
    w = word ∨ w ∈ rest := by
  unfold endWord at h
  split at h
  · exact .inr h
  · exact List.mem_cons.1 h

theorem wordsFrom_cons (c : Char) (r : Text) : wordsFrom (c :: r) =
    if isBlank c then ([], endWord (wordsFrom r).1 (wordsFrom r).2) else (c :: (wordsFrom r).1, (wordsFrom r).2) := by
  unfold wordsFrom
  rw [List.foldr_cons]

/-- The characters of a word are those of the text. -/
theorem Of.words {t : Text} (ht : Of p t) : ∀ w ∈ words t, Of p w := by
  have hfrom : Of p (wordsFrom t).1 ∧ ∀ w ∈ (wordsFrom t).2, Of p w := by
    induction t with
    | nil => simp [wordsFrom]
    | cons c r ih =>
      obtain ⟨hc, hr⟩ := of_cons.1 ht
      obtain ⟨h₁, h₂⟩ := ih hr
      rw [wordsFrom_cons]
      by_cases hb : isBlank c = true
      · rw [if_pos hb]
        refine ⟨of_nil, ?_⟩
        intro w hw
        rcases eq_or_mem_of_mem_endWord hw with rfl | hw
        · exact h₁
        · exact h₂ w hw
      · rw [if_neg hb]
        exact ⟨of_cons.2 ⟨hc, h₁⟩, h₂⟩
  intro w hw
  rcases eq_or_mem_of_mem_endWord hw with rfl | hw
  · exact hfrom.1
  · exact hfrom.2 w hw

/-! ## Trimming -/

theorem trimStart_append {g t : Text} (hg : ∀ c ∈ g, isBlank c = true) : trimStart (g ++ t) = trimStart t :=
  List.dropWhile_append_of_pos hg

theorem Flush.trimStart {t : Text} (h : Flush t) : trimStart t = t := by
  cases t with
  | nil => rfl
  | cons c r => simp [Text.trimStart, flush_cons.1 h]

theorem trimEnd_append_blank {t g : Text} (hg : ∀ c ∈ g, isBlank c = true) : trimEnd (t ++ g) = trimEnd t := by
  have hr : ∀ c ∈ g.reverse, isBlank c = true := fun c hc => hg c (List.mem_reverse.1 hc)
  simp only [trimEnd, dropEndWhile, List.reverse_append, List.dropWhile_append_of_pos hr]

/-- Dropping from the end stops at a last character that is not of the class. -/
theorem dropEndWhile_append {q : Char → Bool} {s : Text} (hs : ∀ c ∈ s.getLast?, q c = false) (t : Text) :
    dropEndWhile q (s ++ t) = s ++ dropEndWhile q t := by
  have hstop : s.reverse.dropWhile q = s.reverse := by
    cases hr : s.reverse with
    | nil => rfl
    | cons c r =>
      have hc : q c = false := hs c (by rw [← List.head?_reverse, hr]; rfl)
      simp [hc]
  simp only [dropEndWhile, List.reverse_append, List.dropWhile_append]
  by_cases h : t.reverse.dropWhile q = []
  · simp [hstop, h]
  · simp [h]

theorem trimEnd_append {s : Text} (hs : ∀ c ∈ s.getLast?, isBlank c = false) (t : Text) :
    trimEnd (s ++ t) = s ++ trimEnd t := dropEndWhile_append hs t

theorem trimEnd_cons {c : Char} (hc : isBlank c = false) (t : Text) : trimEnd (c :: t) = c :: trimEnd t :=
  trimEnd_append (s := [c]) (by simpa using hc) t

/-- Blanks before a text, and the trimmed text, which starts where they end. -/
theorem trim_append_of_flush {g t : Text} (hg : ∀ c ∈ g, isBlank c = true) (ht : Flush t) :
    trim (g ++ t) = trimEnd t := by
  rw [trim, trimStart_append hg, ht.trimStart]

theorem trimEnd_prefix (t : Text) : trimEnd t <+: t := List.rdropWhile_prefix _ _

theorem flush_trim (t : Text) : Flush (trim t) := by
  have hstart : Flush (trimStart t) := flush_dropWhile t
  obtain ⟨blanks, hblanks⟩ := trimEnd_prefix (trimStart t)
  intro c hc
  refine hstart c ?_
  have hhead : (trim t).head? = some c := hc
  rw [← hblanks, List.head?_append]
  show ((trim t).head?.or blanks.head?) = some c
  rw [hhead, Option.some_or]

/-- A word with blanks before it, and what is behind it. -/
theorem trim_word {g w : Text} (hg : ∀ c ∈ g, isBlank c = true) (hw : Solid w) (hne : w ≠ []) (r : Text) :
    trim (g ++ (w ++ r)) = w ++ trimEnd r := by
  have hlast : ∀ c ∈ w.getLast?, isBlank c = false := fun c hc => hw c (List.mem_of_getLast? hc)
  rw [trim_append_of_flush hg (hw.flush_append hne), trimEnd_append hlast]

theorem trim_append_blank {t g : Text} (hg : ∀ c ∈ g, isBlank c = true) : trim (t ++ g) = trim t := by
  by_cases h : t.dropWhile isBlank = []
  · have hall : ∀ c ∈ t, isBlank c = true := by simpa using h
    rw [trim, trim, trimStart_append hall]
    have hg' : trimStart g = [] := by
      rw [trimStart, List.dropWhile_eq_nil_iff]
      exact hg
    rw [hg', trimStart, h]
  · have hs : trimStart (t ++ g) = trimStart t ++ g := by
      rw [trimStart, trimStart, List.dropWhile_append, if_neg (by simpa using h)]
    rw [trim, hs, trimEnd_append_blank hg, trim]

theorem trim_dropBreak (t : Text) : trim (dropBreak t) = trim t := by
  have hsplit : dropBreak t ++ t.rtakeWhile (fun c => c = '\r' || c = '\n') = t := List.rdropWhile_append_rtakeWhile
  have hblank : ∀ c ∈ t.rtakeWhile (fun c => c = '\r' || c = '\n'), isBlank c = true := by
    intro c hc
    have h := List.mem_rtakeWhile_imp hc
    simp only [Bool.or_eq_true, decide_eq_true_eq] at h
    rcases h with rfl | rfl <;> decide
  rw [← trim_append_blank hblank, hsplit]

/-! ## What a line starts with -/

theorem trimStart_append_of_ne_nil {t : Text} (h : trim t ≠ []) (g : Text) :
    trimStart (t ++ g) = trimStart t ++ g := by
  have hne : t.dropWhile isBlank ≠ [] := by
    intro e
    apply h
    rw [trim, trimStart, e]
    rfl
  unfold trimStart
  rw [List.dropWhile_append, if_neg (by simpa using hne)]

theorem indentation_append {t : Text} (h : trim t ≠ []) (g : Text) :
    indentation (t ++ g) = indentation t := by
  have hcut : indentation t ++ trimStart t = t := List.takeWhile_append_dropWhile
  have hcut' : indentation (t ++ g) ++ trimStart (t ++ g) = t ++ g := List.takeWhile_append_dropWhile
  rw [trimStart_append_of_ne_nil h, ← List.append_assoc] at hcut'
  exact List.append_cancel_right ((List.append_cancel_right hcut').trans hcut.symm)

/-- Blanks at the end of a line do not count as its indentation, if there is more. -/
theorem indentation_dropBreak {t : Text} (h : trim t ≠ []) :
    indentation (dropBreak t) = indentation t := by
  have hsplit : dropBreak t ++ t.rtakeWhile (fun c => c = '\r' || c = '\n') = t :=
    List.rdropWhile_append_rtakeWhile
  have hkept := indentation_append (t := dropBreak t) (by rwa [trim_dropBreak])
    (t.rtakeWhile fun c => c = '\r' || c = '\n')
  rw [hsplit] at hkept
  exact hkept.symm

theorem indentation_append_of_flush {g t : Text} (hg : ∀ c ∈ g, isBlank c = true) (ht : Flush t) :
    indentation (g ++ t) = g := by
  have hstop : t.takeWhile isBlank = [] := by
    cases t with
    | nil => rfl
    | cons c r => rw [List.takeWhile_cons_of_neg (by rw [flush_cons.1 ht]; exact Bool.false_ne_true)]
  rw [indentation, List.takeWhile_append_of_pos hg, hstop, List.append_nil]

/-- A line is its indentation, its text without the blanks around it, and blanks. -/
theorem exists_blanks (t : Text) : ∃ g, t = indentation t ++ trim t ++ g ∧ ∀ c ∈ g, isBlank c = true := by
  refine ⟨(trimStart t).rtakeWhile isBlank, ?_, fun c hc => List.mem_rtakeWhile_imp hc⟩
  have hend : trim t ++ (trimStart t).rtakeWhile isBlank = trimStart t := List.rdropWhile_append_rtakeWhile
  rw [List.append_assoc, hend]
  exact List.takeWhile_append_dropWhile.symm

/-- Of a line that is not blank, trimming its end leaves the indentation and the words. -/
theorem trimEnd_eq {t : Text} (h : trim t ≠ []) : trimEnd t = indentation t ++ trim t := by
  have hcut : indentation t ++ trimStart t = t := List.takeWhile_append_dropWhile
  have hflush : Flush (trimStart t) := flush_dropWhile t
  cases hstart : trimStart t with
  | nil =>
    rw [trim, hstart] at h
    exact absurd rfl h
  | cons c r =>
    rw [hstart] at hcut hflush
    have hc := flush_cons.1 hflush
    have hlast : ∀ d ∈ (indentation t ++ [c]).getLast?, isBlank d = false := by
      intro d hd
      rw [List.getLast?_concat, Option.mem_some] at hd
      rwa [← hd]
    calc trimEnd t = trimEnd ((indentation t ++ [c]) ++ r) := by rw [List.append_assoc, List.singleton_append, hcut]
      _ = indentation t ++ [c] ++ trimEnd r := trimEnd_append hlast r
      _ = indentation t ++ trimEnd (c :: r) := by rw [trimEnd_cons hc, List.append_assoc, List.singleton_append]
      _ = indentation t ++ trim t := by rw [trim, hstart]

end Accessors.Text
