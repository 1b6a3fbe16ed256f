/-
  Accessors.Proofs.Render.Indent — indenting acts on the lines of a text.

  An indentation is put before every line that is not empty, and an empty line stays empty
  (`Indented`). If there is no line feed in the indentation, the lines stay lines
  (`splitOn_indent`), so what it does to a text is what it does to its lines:
  - `indent_eq_iff`: the indented text is the one text whose lines are the indented lines,
    as many as there were (`count_indent`);
  - `indent_nil`, `indent_indent`: indenting by nothing changes nothing, and indenting
    twice is indenting once, by both indentations;
  - `indent_append`: what stands before a line feed is indented by itself, and so is what
    stands behind it;
  - `outdent_indent`: the text is got back by taking the indentation off every line.
-/
import Accessors.Proofs.Text.Pieces
import Accessors.Render.Template
import Mathlib.Data.List.Forall2

namespace Accessors.Template

variable {a b t u : Text}

/-! ## One line -/

/-- The line `u` is the line `l` with `a` before it, or empty as `l` is. -/
inductive Indented (a : Text) : Text → Text → Prop
  | empty : Indented a [] []
  | line {l : Text} : l ≠ [] → Indented a l (a ++ l)

@[simp] theorem indentLine_nil (a : Text) : indentLine a [] = [] := rfl

theorem indentLine_of_ne_nil (a : Text) {l : Text} (h : l ≠ []) : indentLine a l = a ++ l := by
  have hempty : l.isEmpty = false := by simpa using h
  rw [indentLine, hempty]
  rfl

theorem indentLine_eq_iff {l m : Text} : indentLine a l = m ↔ Indented a l m := by
  constructor
  · rintro rfl
    by_cases hl : l = []
    · rw [hl]
      exact .empty
    · rw [indentLine_of_ne_nil a hl]
      exact .line hl
  · intro h
    cases h with
    | empty => rfl
    | line hl => exact indentLine_of_ne_nil a hl

theorem nil_indentLine (l : Text) : indentLine [] l = l := by
  by_cases hl : l = []
  · rw [hl, indentLine_nil]
  · rw [indentLine_of_ne_nil [] hl, List.nil_append]

theorem indentLine_indentLine (a b l : Text) : indentLine a (indentLine b l) = indentLine (a ++ b) l := by
  by_cases hl : l = []
  · rw [hl, indentLine_nil, indentLine_nil, indentLine_nil]
  · have hinner : b ++ l ≠ [] := fun h => hl (List.append_eq_nil_iff.1 h).2
    rw [indentLine_of_ne_nil b hl, indentLine_of_ne_nil a hinner, indentLine_of_ne_nil (a ++ b) hl, List.append_assoc]

theorem drop_indentLine (a l : Text) : (indentLine a l).drop a.length = l := by
  by_cases hl : l = []
  · rw [hl, indentLine_nil, List.drop_nil]
  · rw [indentLine_of_ne_nil a hl, List.drop_left]

theorem feed_not_mem_indentLine (ha : '\n' ∉ a) {l : Text} (hl : '\n' ∉ l) : '\n' ∉ indentLine a l := by
  unfold indentLine
  split
  · exact List.not_mem_nil
  · rw [List.mem_append, not_or]
    exact ⟨ha, hl⟩

/-! ## All lines -/

theorem splitOn_indent (ha : '\n' ∉ a) (t : Text) :
    Text.splitOn '\n' (indent a t) = (Text.splitOn '\n' t).map (indentLine a) := by
  unfold indent
  rw [Text.joinWith_eq, Text.splitOn_eq]
  apply List.splitOn_intercalate
  · intro p hp
    obtain ⟨q, hq, rfl⟩ := List.mem_map.1 hp
    exact feed_not_mem_indentLine ha (Text.not_mem_of_mem_splitOn hq)
  · simpa using Text.splitOn_ne_nil '\n' t

theorem indent_eq_iff (ha : '\n' ∉ a) :
    indent a t = u ↔ List.Forall₂ (Indented a) (Text.splitOn '\n' t) (Text.splitOn '\n' u) := by
  have hlines : indent a t = u ↔ (Text.splitOn '\n' t).map (indentLine a) = Text.splitOn '\n' u := by
    rw [← splitOn_indent ha]
    exact (Text.splitOn_injective '\n').eq_iff.symm
  rw [hlines, ← List.forall₂_eq_eq_eq, List.forall₂_map_left_iff]
  simp only [indentLine_eq_iff]

theorem count_indent (ha : '\n' ∉ a) (t : Text) : (indent a t).count '\n' = t.count '\n' := by
  have hlength := congrArg List.length (splitOn_indent ha t)
  rw [List.length_map, Text.length_splitOn, Text.length_splitOn] at hlength
  exact Nat.succ.inj hlength

theorem indent_nil (t : Text) : indent [] t = t := by
  have hlines : (Text.splitOn '\n' t).map (indentLine []) = Text.splitOn '\n' t :=
    List.map_id'' nil_indentLine _
  rw [indent, hlines, Text.joinWith_splitOn]

theorem indent_indent (hb : '\n' ∉ b) (a t : Text) : indent a (indent b t) = indent (a ++ b) t := by
  have hlines : indentLine a ∘ indentLine b = indentLine (a ++ b) := funext (indentLine_indentLine a b)
  rw [indent, splitOn_indent hb, List.map_map, hlines, indent]

theorem indent_append (a t r : Text) : indent a (t ++ '\n' :: r) = indent a t ++ '\n' :: indent a r := by
  have hne : ∀ s : Text, (Text.splitOn '\n' s).map (indentLine a) ≠ [] := fun s => by
    simpa using Text.splitOn_ne_nil '\n' s
  unfold indent
  rw [Text.splitOn_append, List.map_append, Text.joinWith_append _ (hne t) (hne r), List.append_assoc]
  rfl

/-- What follows whole lines is indented by itself. -/
theorem indent_append_of_suffix (ht : ['\n'] <:+ t) (a r : Text) : indent a (t ++ r) = indent a t ++ indent a r := by
  obtain ⟨s, rfl⟩ := ht
  have hfeed : indent a (s ++ ['\n']) = indent a s ++ ['\n'] := indent_append a s []
  rw [hfeed, List.append_assoc, List.append_assoc]
  exact indent_append a s r

/-! ## Back again -/

/-- The text with as many characters less on every line as the indentation has. -/
def outdent (a t : Text) : Text := Text.joinWith ['\n'] ((Text.splitOn '\n' t).map (·.drop a.length))

theorem outdent_indent (ha : '\n' ∉ a) (t : Text) : outdent a (indent a t) = t := by
  have hlines : (·.drop a.length) ∘ indentLine a = id := funext (drop_indentLine a)
  rw [outdent, splitOn_indent ha, List.map_map, hlines, List.map_id, Text.joinWith_splitOn]

/-- Indentations without line feeds act on all texts: the empty one changes nothing, two
    are one after the other, and whole lines are indented apart from what follows them. As
    many lines as there were are left, each indented, which says all about the indented
    text; so the text can be got back. -/
theorem indent_acts (ha : '\n' ∉ a) (hb : '\n' ∉ b) :
    (∀ t, indent [] t = t) ∧ (∀ t, indent a (indent b t) = indent (a ++ b) t) ∧
    (∀ t r, ['\n'] <:+ t → indent a (t ++ r) = indent a t ++ indent a r) ∧
    (∀ t, (indent a t).count '\n' = t.count '\n') ∧
    (∀ t u, indent a t = u ↔ List.Forall₂ (Indented a) (Text.splitOn '\n' t) (Text.splitOn '\n' u)) ∧
    (indent a).Injective ∧ ∀ t, outdent a (indent a t) = t := by
  have hback := outdent_indent ha
  have hinjective : (indent a).Injective := Function.LeftInverse.injective hback
  exact ⟨indent_nil, indent_indent hb a, fun t r ht => indent_append_of_suffix ht a r, count_indent ha,
    fun t u => indent_eq_iff ha, hinjective, hback⟩

/-- Two spaces before a tab, on a text with empty lines in the midst and at the end. -/
theorem indent_acts_sample : '\n' ∉ [' ', ' '] ∧ '\n' ∉ ['\t'] ∧ ['\n'] <:+ "\nx\n\n".toList ∧
    indent [' ', ' '] (indent ['\t'] "\nx\n\n".toList) = "\n  \tx\n\n".toList ∧
    indent [' ', ' '] ("\nx\n\n".toList ++ "y".toList) = "\n  x\n\n".toList ++ "  y".toList ∧
    (indent [' ', ' '] "\nx\n\n".toList).count '\n' = 3 ∧
    outdent [' ', ' '] "\n  x\n\n".toList = "\nx\n\n".toList := by
  have hspaces : '\n' ∉ [' ', ' '] := by decide
  have htab : '\n' ∉ ['\t'] := by decide
  have hwhole : ['\n'] <:+ "\nx\n\n".toList := by decide
  obtain ⟨-, htwice, happend, hcount, hlines, -, hback⟩ := indent_acts hspaces htab
  have hindented : indent [' ', ' '] "\nx\n\n".toList = "\n  x\n\n".toList :=
    (hlines _ _).2 (.cons .empty (.cons (.line (by decide)) (.cons .empty (.cons .empty .nil))))
  have hy : indent [' ', ' '] "y".toList = "  y".toList := (hlines _ _).2 (.cons (.line (by decide)) .nil)
  refine ⟨hspaces, htab, hwhole, ?_, ?_, hcount _, ?_⟩
  · rw [htwice]
    rfl
  · rw [happend _ _ hwhole, hindented, hy]
  · rw [← hindented]
    exact hback _

end Accessors.Template
