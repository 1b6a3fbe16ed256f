/-
  Accessors.Proofs.Source.Unclosed — texts in which no comment ends.

  A comment ends in a text that holds a closer. In a text that is put together, one may
  stand across a seam (`unclosed_append`), but not where a text is put in that is not
  empty and holds neither of its two characters (`Neutral`): replacing one such text by
  another never makes a closer and never takes one away (`unclosed_replaceFirst`,
  `unclosed_replaceAll`).

  What documentation says is cut out of the lines of a comment. If these hold no closer
  but the one at the end of the last line (`ClosedAtEnd`), then what it says holds none
  (`unclosed_read`), and nor do hints and the types of literals:
  - `Property.unclosed_of_find?`: so no comment ends in what a property says.
-/
import Accessors.Proofs.Source.Search
import Accessors.Proofs.Source.Unbroken
import Accessors.Proofs.Text.Replace
import Mathlib.Data.List.Infix

namespace Accessors

namespace DocBlock

/-- No comment ends in the text. -/
def Unclosed (t : Text) : Prop := ¬closer <:+: t

theorem contains_closer_iff {t : Text} : Text.contains closer t = false ↔ Unclosed t := by
  rw [← Bool.not_eq_true, Text.contains_iff]
  rfl

instance (t : Text) : Decidable (Unclosed t) := decidable_of_iff _ contains_closer_iff

/-! ## At a seam -/

section Seam

variable {s t : Text}

theorem Unclosed.within (h : Unclosed t) (hs : s <:+: t) : Unclosed s := fun hc => h (hc.trans hs)

theorem unclosed_of_not_mem (h : '*' ∉ t) : Unclosed t := fun hc => h (hc.subset (by decide))

theorem unclosed_cons {c : Char} : Unclosed (c :: t) ↔ ¬(c = '*' ∧ t.head? = some '/') ∧ Unclosed t := by
  have hstart : closer <+: c :: t ↔ c = '*' ∧ t.head? = some '/' := by
    show ['*', '/'] <+: c :: t ↔ _
    rw [List.cons_prefix_cons, List.singleton_prefix_iff_head?_eq_some, eq_comm]
  unfold Unclosed
  rw [List.infix_cons_iff, not_or, hstart]

theorem unclosed_append :
    Unclosed (s ++ t) ↔ Unclosed s ∧ Unclosed t ∧ ¬(s.getLast? = some '*' ∧ t.head? = some '/') := by
  induction s with
  | nil =>
    have hnil : Unclosed [] := by decide
    simp [hnil]
  | cons c s ih =>
    rw [List.cons_append, unclosed_cons, ih, unclosed_cons]
    cases s with
    | nil =>
      have hnil : Unclosed [] := by decide
      simp only [List.nil_append, List.getLast?_singleton, List.getLast?_nil, List.head?_nil, Option.some.injEq,
        reduceCtorEq, and_false, false_and, not_false_eq_true, and_true, true_and, hnil]
      exact and_comm
    | cons d s =>
      rw [List.getLast?_cons_cons, List.cons_append, List.head?_cons, List.head?_cons, and_assoc]

/-- Neither character of a closer is in the text, and there is some text. -/
structure Neutral (t : Text) : Prop where
  ne_nil : t ≠ []
  of : Text.Of (fun c => c ≠ '*' ∧ c ≠ '/') t

theorem neutral_iff : (!t.isEmpty && t.all fun c => c != '*' && c != '/') = true ↔ Neutral t := by
  rw [Bool.and_eq_true, List.all_eq_true]
  refine ⟨fun h => ⟨by simpa using h.1, fun c hc => by simpa using h.2 c hc⟩, fun h => ⟨by simpa using h.ne_nil, ?_⟩⟩
  exact fun c hc => by simpa using h.of c hc

instance (t : Text) : Decidable (Neutral t) := decidable_of_iff _ neutral_iff

theorem wordy_neutral : Text.Wordy fun c => c ≠ '*' ∧ c ≠ '/' := by
  refine ⟨by decide, ?_⟩
  intro c hc
  constructor <;> rintro rfl <;> exact absurd hc (by decide)

variable {m : Text}

theorem Neutral.unclosed (h : Neutral m) : Unclosed m := unclosed_of_not_mem fun hm => (h.of _ hm).1 rfl

/-- No closer stands across a neutral text. -/
theorem unclosed_around (h : Neutral m) : Unclosed (s ++ m ++ t) ↔ Unclosed s ∧ Unclosed t := by
  have hhead : m.head? ≠ some '/' := fun he => (h.of _ (List.mem_of_mem_head? he)).2 rfl
  have hlast : (s ++ m).getLast? ≠ some '*' := by
    rw [List.getLast?_append_of_ne_nil _ h.ne_nil]
    exact fun he => (h.of _ (List.mem_of_mem_getLast? he)).1 rfl
  rw [unclosed_append, unclosed_append]
  simp only [h.unclosed, hhead, hlast, and_false, false_and, not_false_eq_true, and_true]

theorem unclosed_behind (h : Neutral m) : Unclosed (m ++ t) ↔ Unclosed t := by
  have haround := @unclosed_around [] t m h
  rwa [List.nil_append, and_iff_right (unclosed_of_not_mem List.not_mem_nil)] at haround

theorem unclosed_before (h : Neutral m) : Unclosed (s ++ m) ↔ Unclosed s := by
  have haround := @unclosed_around s [] m h
  rwa [List.append_nil, and_iff_left (unclosed_of_not_mem List.not_mem_nil)] at haround

end Seam

/-! ## Replacing -/

section Replace

variable {old new : Text}

theorem replaceFirst_cases (hne : old ≠ []) (new t : Text) :
    (Text.contains old t = false ∧ Text.replaceFirst old new t = t) ∨
      ∃ u v, t = u ++ old ++ v ∧ Text.replaceFirst old new t = u ++ new ++ v := by
  induction t with
  | nil => exact .inl ⟨Text.contains_nil hne, Text.replaceFirst_eq_self (Text.contains_nil hne)⟩
  | cons c t ih =>
    rw [Text.replaceFirst, Text.contains]
    by_cases hs : Text.startsWith old (c :: t) = true
    · obtain ⟨v, hv⟩ := Text.startsWith_iff.1 hs
      refine .inr ⟨[], v, hv.symm, ?_⟩
      rw [if_pos hs, ← hv, List.drop_left]
      rfl
    · rw [if_neg hs]
      rcases ih with ⟨hnone, hsame⟩ | ⟨u, v, rfl, hreplaced⟩
      · exact .inl ⟨by simp [hs, hnone], by rw [hsame]⟩
      · exact .inr ⟨c :: u, v, rfl, by rw [hreplaced]; rfl⟩

theorem replaceAll_cases (hne : old ≠ []) (new t : Text) :
    Text.replaceAll old new t = t ∨
      ∃ u v, t = u ++ old ++ v ∧ Text.replaceAll old new t = u ++ new ++ Text.replaceAll old new v := by
  induction t with
  | nil => exact .inl rfl
  | cons c t ih =>
    rw [Text.replaceAll, Text.replaceFrom]
    by_cases hs : Text.startsWith old (c :: t) = true
    · obtain ⟨v, hv⟩ := Text.startsWith_iff.1 hs
      obtain ⟨d, w, rfl⟩ := List.exists_cons_of_ne_nil hne
      obtain ⟨rfl, rfl⟩ := List.cons.inj hv
      refine .inr ⟨[], v, rfl, ?_⟩
      rw [if_pos hs]
      exact congrArg (new ++ ·) (Text.replaceFrom_append w v)
    · rw [if_neg hs]
      rcases ih with hsame | ⟨u, v, rfl, hreplaced⟩
      · exact .inl (congrArg (c :: ·) hsame)
      · exact .inr ⟨c :: u, v, rfl, congrArg (c :: ·) hreplaced⟩

theorem unclosed_replaceFirst (ho : Neutral old) (hn : Neutral new) (t : Text) :
    Unclosed (Text.replaceFirst old new t) ↔ Unclosed t := by
  rcases replaceFirst_cases ho.ne_nil new t with ⟨-, hsame⟩ | ⟨u, v, rfl, hreplaced⟩
  · rw [hsame]
  · rw [hreplaced, unclosed_around hn, unclosed_around ho]

theorem unclosed_replaceAll (ho : Neutral old) (hn : Neutral new) (t : Text) :
    Unclosed (Text.replaceAll old new t) ↔ Unclosed t := by
  -- By the length of the text, as what is behind an occurrence is shorter.
  induction hlength : t.length using Nat.strong_induction_on generalizing t with
  | _ n ih =>
    rcases replaceAll_cases ho.ne_nil new t with hsame | ⟨u, v, rfl, hreplaced⟩
    · rw [hsame]
    · have hshorter : v.length < n := by
        have hold := List.length_pos_iff.2 ho.ne_nil
        rw [← hlength, List.length_append, List.length_append]
        omega
      rw [hreplaced, unclosed_around hn, unclosed_around ho, ih v.length hshorter v rfl]

end Replace

/-! ## What a comment says -/

theorem infix_trim (t : Text) : Text.trim t <:+: t :=
  (Text.trimEnd_prefix _).isInfix.trans (List.dropWhile_suffix _).isInfix

theorem suffix_dropStart (head t : Text) : dropStart head t <:+ t := by
  unfold dropStart Text.after?
  split
  · exact List.drop_suffix _ _
  · exact List.suffix_rfl

theorem prefix_dropEnd (tail t : Text) : dropEnd tail t <+: t := by
  unfold dropEnd
  split
  · exact List.take_prefix _ _
  · exact List.prefix_rfl

/-- The words of a line stand between its opener and its closer. -/
theorem infix_content (line : Text) : content line <:+: dropEnd closer (dropStart opener line) := by
  unfold content
  exact (infix_trim _).trans ((suffix_dropStart _ _).isInfix.trans (infix_trim _))

theorem unclosed_content {line : Text} (h : Unclosed line) : Unclosed (content line) :=
  h.within ((infix_content line).trans ((prefix_dropEnd _ _).isInfix.trans (suffix_dropStart _ _).isInfix))

/-- The closer at the end of a line is not among its words. -/
theorem unclosed_content_last {line : Text} (hend : closer <:+ line) (h : Unclosed line.dropLast) :
    Unclosed (content line) := by
  refine Unclosed.within ?_ (infix_content line)
  have hsuffix := suffix_dropStart opener line
  generalize dropStart opener line = rest at hsuffix
  unfold dropEnd
  by_cases hrest : Text.endsWith closer rest = true
  · have hdrop : rest.take (rest.length - closer.length) <+: rest.dropLast := by
      rw [List.dropLast_eq_take]
      exact List.take_prefix_take_left (by show rest.length - 2 ≤ rest.length - 1; omega)
    have hlast : rest.dropLast <:+ line.dropLast := by
      obtain ⟨head, rfl⟩ := hsuffix
      have hne : rest ≠ [] := by
        rintro rfl
        exact absurd hrest (by decide)
      rw [List.dropLast_append_of_ne_nil hne]
      exact List.suffix_append _ _
    rw [if_pos hrest]
    exact h.within (hdrop.isInfix.trans hlast.isInfix)
  · -- The opener and the closer share a character, and no more than the other one is left.
    have hshort : rest <:+ closer :=
      (List.suffix_or_suffix_of_suffix hend hsuffix).resolve_left fun hc => hrest (List.isSuffixOf_iff_suffix.2 hc)
    rw [if_neg hrest]
    intro hc
    have hwhole : rest = closer := hshort.eq_of_length (Nat.le_antisymm hshort.length_le hc.length_le)
    exact hrest (by rw [hwhole]; decide)

theorem infix_words (t : Text) : ∀ w ∈ Text.words t, w <:+: t := by
  have hfrom : (Text.wordsFrom t).1 <+: t ∧ ∀ w ∈ (Text.wordsFrom t).2, w <:+: t := by
    induction t with
    | nil => exact ⟨List.prefix_rfl, fun w hw => absurd hw List.not_mem_nil⟩
    | cons c t ih =>
      obtain ⟨hword, hrest⟩ := ih
      rw [Text.wordsFrom_cons]
      split
      · refine ⟨List.nil_prefix, fun w hw => ?_⟩
        rcases Text.eq_or_mem_of_mem_endWord hw with rfl | hw
        · exact List.infix_cons hword.isInfix
        · exact List.infix_cons (hrest w hw)
      · exact ⟨List.cons_prefix_cons.2 ⟨rfl, hword⟩, fun w hw => List.infix_cons (hrest w hw)⟩
  intro w hw
  rcases Text.eq_or_mem_of_mem_endWord hw with rfl | hw
  · exact hfrom.1.isInfix
  · exact hfrom.2 w hw

theorem unclosed_joinWith {ws : List Text} (h : ∀ w ∈ ws, Unclosed w) : Unclosed (Text.joinWith [' '] ws) := by
  have hspace : Neutral [' '] := by decide
  induction ws with
  | nil => exact unclosed_of_not_mem List.not_mem_nil
  | cons w ws ih =>
    cases ws with
    | nil => exact h w List.mem_cons_self
    | cons v ws =>
      exact (unclosed_around hspace).2 ⟨h w List.mem_cons_self, ih fun u hu => h u (List.mem_cons_of_mem _ hu)⟩

/-! ## Above a declaration -/

/-- The only closer in a comment is the one that its last line ends in. -/
def ClosedAtEnd (comment : List Text) : Prop :=
  (∀ l ∈ comment.dropLast, Unclosed l) ∧ ∀ l ∈ comment.getLast?, Unclosed l.dropLast

instance (comment : List Text) : Decidable (ClosedAtEnd comment) := by
  unfold ClosedAtEnd
  infer_instance

theorem suffix_commentFrom? {l : Text} {above done comment : List Text}
    (h : commentFrom? done (l :: above) = some comment) : Text.trim l :: done <:+ comment := by
  induction above generalizing l done with
  | nil =>
    rw [commentFrom?] at h
    split at h
    · obtain rfl := Option.some.inj h
      exact List.suffix_rfl
    · split at h <;> cases h
  | cons m above ih =>
    rw [commentFrom?] at h
    split at h
    · obtain rfl := Option.some.inj h
      exact List.suffix_rfl
    · split at h
      · exact (List.suffix_cons _ _).trans (ih h)
      · cases h

/-- A comment ends in a closer. -/
theorem comment?_last {above comment : List Text} (h : comment? above = some comment) :
    ∃ l, comment.getLast? = some l ∧ closer <:+ l := by
  cases above with
  | nil => cases h
  | cons l above =>
    rw [comment?] at h
    split at h
    · rename_i hend
      obtain ⟨earlier, rfl⟩ := suffix_commentFrom? h
      exact ⟨Text.trim l, List.getLast?_concat, List.isSuffixOf_iff_suffix.1 hend⟩
    · cases h

theorem unclosed_read {above : List Text} (h : ∀ comment, comment? above = some comment → ClosedAtEnd comment) :
    (∀ t ∈ (read above).type, Unclosed t) ∧ ∀ t ∈ (read above).description, Unclosed t := by
  have hcontent : ∀ comment, comment? above = some comment → ∀ m ∈ comment, Unclosed (content m) := by
    intro comment hcomment
    obtain ⟨hinner, hlast⟩ := h comment hcomment
    obtain ⟨l, hl, hend⟩ := comment?_last hcomment
    obtain ⟨earlier, rfl⟩ := List.getLast?_eq_some_iff.1 hl
    rw [List.dropLast_concat] at hinner
    rw [List.forall_mem_append]
    exact ⟨fun m hm => unclosed_content (hinner m hm),
      List.forall_mem_singleton.2 (unclosed_content_last hend (hlast l hl))⟩
  refine forall_read (fun comment hcomment l hl _ => hcontent comment hcomment l hl)
    (fun comment hcomment l hl w hw => ?_) fun ws _ hws => unclosed_joinWith hws
  exact (hcontent comment hcomment l hl).within (infix_words _ w hw)

end DocBlock

/-! ## In what a property says -/

open DocBlock (Unclosed)

theorem Grammar.Declares.unclosed_hint {t : Text} {d : Declaration} (h : Declares t d) : ∀ u ∈ d.hint, Unclosed u := by
  obtain ⟨-, hhint, -⟩ := h
  intro u hu
  cases hhint with
  | none => cases hu
  | some hh _ =>
    obtain rfl := Option.some.inj hu
    refine DocBlock.unclosed_of_not_mem fun hstar => ?_
    rcases hh.union.chars.2 _ hstar with hchar | hbar
    · exact absurd hchar (by unfold Grammar.IsTypeChar; decide)
    · exact absurd hbar (by decide)

theorem Literal.unclosed_name (l : Literal) : Unclosed l.name := by
  cases l <;> decide

theorem Property.unclosed_inferred? (default : Option Text) : ∀ t ∈ inferred? default, Unclosed t := by
  intro t ht
  unfold inferred? at ht
  split at ht
  · cases ht
  · rename_i l _ _
    obtain rfl := Option.some.inj ht
    exact l.unclosed_name
  · cases ht

/-- No comment ends in what the property says. -/
structure Property.Unclosed (p : Property) : Prop where
  type : ∀ t ∈ p.type, DocBlock.Unclosed t
  description : ∀ t ∈ p.description, DocBlock.Unclosed t

/-- Only documentation above can bring a closer into what a property says. -/
theorem Property.unclosed_of_find? {lines : List Text} {cursor : Int} {f : Found} (h : find? lines cursor = some f)
    (hcomment : ∀ comment, DocBlock.comment? (lines.take f.line).reverse = some comment →
      DocBlock.ClosedAtEnd comment) : f.property.Unclosed := by
  obtain ⟨-, l, -, hl⟩ := find?_declares h
  obtain ⟨d, hd, hp⟩ := Option.map_eq_some_iff.1 hl
  obtain ⟨htype, hdescription⟩ := DocBlock.unclosed_read hcomment
  have hhint := (Grammar.declares_of_scan? hd).unclosed_hint
  rw [← hp]
  refine ⟨fun t ht => ?_, hdescription⟩
  rcases Option.or_eq_some_iff.1 ht with ht | ⟨-, ht⟩
  · exact htype t ht
  rcases Option.or_eq_some_iff.1 ht with ht | ⟨-, ht⟩
  · exact hhint t (Option.filter_eq_some_iff.1 ht).1
  rcases Option.or_eq_some_iff.1 ht with ht | ⟨-, ht⟩
  · exact unclosed_inferred? _ t ht
  · exact hhint t (Option.filter_eq_some_iff.1 ht).1

end Accessors
