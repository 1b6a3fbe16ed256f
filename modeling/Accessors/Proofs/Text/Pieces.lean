/-
  Accessors.Proofs.Text.Pieces — texts cut at a separator.

  `splitOn` and `joinWith` are those of the core library (`splitOn_eq`, `joinWith_eq`), so
  that its laws hold of them. Two texts with a separator between them are cut apart there
  (`splitOn_append`), and pieces are put together likewise (`joinWith_append`). Lines with
  a line feed behind each are cut back into those lines and an empty rest
  (`splitOn_unlines`).
-/
import Accessors.Text.Basic

namespace Accessors.Text

theorem splitOn_cons (sep c : Char) (r : Text) :
    splitOn sep (c :: r) = if c = sep then [] :: splitOn sep r else consPiece c (splitOn sep r) := rfl

theorem splitOn_eq (sep : Char) (t : Text) : splitOn sep t = List.splitOn sep t := by
  induction t with
  | nil => simp [splitOn]
  | cons c r ih =>
    rw [List.splitOn_cons_eq_if_modifyHead, ← ih]
    rw [splitOn_cons]
    by_cases h : c = sep
    · simp [h]
    · have hne := splitOn_ne_nil sep r
      simp only [h, if_false, beq_iff_eq]
      cases hs : splitOn sep r with
      | nil => exact absurd hs hne
      | cons p ps => rfl

theorem joinWith_eq (sep : Text) (ps : List Text) : joinWith sep ps = sep.intercalate ps := by
  induction ps with
  | nil => rfl
  | cons p ps ih =>
    cases ps with
    | nil => simp [joinWith]
    | cons q ps =>
      simp only [joinWith, ih, List.intercalate_cons_cons]

theorem joinWith_cons_cons (sep : Char) (p q : Text) (ps : List Text) :
    joinWith [sep] (p :: q :: ps) = p ++ sep :: joinWith [sep] (q :: ps) := by simp [joinWith]

theorem joinWith_append (sep : Text) {ps qs : List Text} (hp : ps ≠ []) (hq : qs ≠ []) :
    joinWith sep (ps ++ qs) = joinWith sep ps ++ sep ++ joinWith sep qs := by
  induction ps with
  | nil => exact absurd rfl hp
  | cons p ps ih =>
    cases ps with
    | nil =>
      obtain ⟨q, qs, rfl⟩ := List.exists_cons_of_ne_nil hq
      rfl
    | cons p' ps =>
      have hrest := ih (List.cons_ne_nil _ _)
      rw [List.cons_append] at hrest
      rw [List.cons_append, List.cons_append, joinWith, hrest, joinWith]
      simp only [List.append_assoc]

theorem splitOn_injective (sep : Char) : (splitOn sep).Injective :=
  Function.LeftInverse.injective (joinWith_splitOn sep)

theorem splitOn_append (sep : Char) (t r : Text) : splitOn sep (t ++ sep :: r) = splitOn sep t ++ splitOn sep r := by
  simp only [splitOn_eq, List.splitOn_append_cons_self]

theorem splitOn_append_sep {sep : Char} {p : Text} (h : sep ∉ p) (t : Text) :
    splitOn sep (p ++ sep :: t) = p :: splitOn sep t := by
  simp only [splitOn_eq, List.splitOn_append_cons_self_of_not_mem h]

theorem splitOn_of_not_mem {sep : Char} {p : Text} (h : sep ∉ p) : splitOn sep p = [p] := by
  rw [splitOn_eq, List.splitOn_eq_singleton h]

theorem not_mem_of_mem_splitOn {sep : Char} {t p : Text} (h : p ∈ splitOn sep t) : sep ∉ p := by
  induction t generalizing p with
  | nil => simp_all [splitOn]
  | cons c r ih =>
    rw [splitOn_cons] at h
    split at h
    · rcases List.mem_cons.1 h with rfl | h
      · simp
      · exact ih h
    · rename_i hc
      cases hs : splitOn sep r with
      | nil => exact absurd hs (splitOn_ne_nil sep r)
      | cons q ps =>
        rw [hs] at h
        simp only [consPiece, List.mem_cons] at h
        rcases h with rfl | h
        · have hq := ih (p := q) (by simp [hs])
          simp [Ne.symm hc, hq]
        · exact ih (by simp [hs, h])

theorem length_splitOn (sep : Char) (t : Text) : (splitOn sep t).length = t.count sep + 1 := by
  induction t with
  | nil => rfl
  | cons c r ih =>
    rw [splitOn_cons]
    by_cases h : c = sep
    · rw [if_pos h, List.length_cons, ih, h, List.count_cons_self]
    · rw [if_neg h, List.count_cons_of_ne h, ← ih]
      cases hs : splitOn sep r with
      | nil => exact absurd hs (splitOn_ne_nil sep r)
      | cons p ps => rfl

/-- The first piece ends at the first separator. -/
theorem head?_splitOn (sep : Char) (t : Text) : (splitOn sep t).head? = some (t.takeWhile (· ≠ sep)) := by
  induction t with
  | nil => rfl
  | cons c r ih =>
    rw [splitOn_cons]
    by_cases hc : c = sep
    · simp [hc]
    · obtain ⟨p, ps, hs⟩ := List.exists_cons_of_ne_nil (splitOn_ne_nil sep r)
      rw [hs] at ih
      have hp : p = r.takeWhile (· ≠ sep) := Option.some.inj ih
      simp [hs, consPiece, hc, hp]

/-! ## Lines with line feeds -/

/-- The lines, with a line feed behind each. -/
def unlines (ls : List Text) : Text := ls.flatMap (· ++ ['\n'])

theorem unlines_cons (l : Text) (ls : List Text) : unlines (l :: ls) = l ++ '\n' :: unlines ls := by simp [unlines]

theorem unlines_append (a b : List Text) : unlines (a ++ b) = unlines a ++ unlines b := List.flatMap_append

theorem splitOn_unlines {ls : List Text} (h : ∀ l ∈ ls, '\n' ∉ l) : splitOn '\n' (unlines ls) = ls ++ [[]] := by
  induction ls with
  | nil => rfl
  | cons l ls ih =>
    rw [unlines_cons, splitOn_append_sep (h l (by simp)), ih fun m hm => h m (List.mem_cons_of_mem _ hm), List.cons_append]

theorem eq_unlines {t : Text} {ls : List Text} (h : splitOn '\n' t = ls ++ [[]]) : t = unlines ls := by
  have hjoin : ∀ ps : List Text, joinWith ['\n'] (ps ++ [[]]) = unlines ps := by
    intro ps
    induction ps with
    | nil => rfl
    | cons p ps ih =>
      have hcut : joinWith ['\n'] (p :: ps ++ [[]]) = p ++ ['\n'] ++ joinWith ['\n'] (ps ++ [[]]) := by
        cases ps <;> rfl
      rw [hcut, ih]
      rfl
  rw [← joinWith_splitOn '\n' t, h, hjoin]

theorem count_unlines {ls : List Text} (h : ∀ l ∈ ls, '\n' ∉ l) : (unlines ls).count '\n' = ls.length := by
  induction ls with
  | nil => rfl
  | cons l ls ih =>
    have hl : l.count '\n' = 0 := List.count_eq_zero.2 (h l (by simp))
    rw [unlines_cons, List.count_append, List.count_cons_self, hl, ih fun m hm => h m (List.mem_cons_of_mem _ hm),
      List.length_cons, Nat.zero_add]

end Accessors.Text
