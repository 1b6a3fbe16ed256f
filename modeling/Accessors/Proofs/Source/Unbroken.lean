/-
  Accessors.Proofs.Source.Unbroken — of which characters a property is.

  What a property says is cut out of the lines of a document, or is the name of a type of
  literal, with spaces between words. So a class of characters that the lines are of, and
  names and spaces too (`Text.Wordy`), is one that the property is of (`of_find?`).
  - `DocBlock.of_read`: the documentation above a line;
  - `unbroken_of_find?`: if no line holds a break, nor does the property, and its texts can
    be put into a line without it becoming two.
-/
import Accessors.Proofs.Source.Comment
import Accessors.Proofs.Source.Nearest
import Accessors.Proofs.Text.Lines

namespace Accessors

open Text (Unbroken Of)

/-- A class with the space in it and what names are made of. -/
structure Text.Wordy (P : Char → Prop) : Prop where
  space : P ' '
  name : ∀ c, isNameChar c = true → P c

theorem Text.Wordy.of_all {P : Char → Prop} (hP : Wordy P) {t : Text}
    (h : (t.all fun c => isNameChar c || c = ' ') = true) : Of P t := by
  intro c hc
  have hchar := List.all_eq_true.1 h c hc
  simp only [Bool.or_eq_true, decide_eq_true_eq] at hchar
  rcases hchar with hchar | rfl
  · exact hP.name c hchar
  · exact hP.space

theorem Text.wordy_unbroken : Wordy (isBreak · = false) := by
  refine ⟨by decide, ?_⟩
  intro c hc
  rw [Grammar.isNameChar_iff, Grammar.isNameStart_iff] at hc
  simp only [isBreak, Bool.or_eq_false_iff, Bool.and_eq_false_iff, decide_eq_false_iff_not, beq_eq_false_iff_ne]
  omega

theorem Text.wordy_ne_feed : Wordy (· ≠ '\n') := by
  refine ⟨by decide, ?_⟩
  rintro c hc rfl
  exact absurd hc (by decide)

variable {P : Char → Prop}

/-! ## Documentation -/

namespace DocBlock

theorem of_commentFrom? {above done c : List Text} (ha : ∀ l ∈ above, Of P l) (hd : ∀ l ∈ done, Of P l)
    (h : commentFrom? done above = some c) : ∀ l ∈ c, Of P l := by
  induction above generalizing done with
  | nil => cases h
  | cons l above ih =>
    have hl : Of P (Text.trim l) := (ha l (by simp)).sublist (Text.trim_sublist l)
    have hdone : ∀ m ∈ Text.trim l :: done, Of P m := by
      intro m hm
      rcases List.mem_cons.1 hm with rfl | hm
      · exact hl
      · exact hd m hm
    simp only [commentFrom?] at h
    split at h
    · cases h
      exact hdone
    · split at h
      · exact ih (fun m hm => ha m (List.mem_cons_of_mem _ hm)) hdone h
      · cases h

theorem of_comment? {above c : List Text} (ha : ∀ l ∈ above, Of P l) (h : comment? above = some c) :
    ∀ l ∈ c, Of P l := by
  cases above with
  | nil => cases h
  | cons l above =>
    simp only [comment?] at h
    split at h
    · exact of_commentFrom? ha (by simp) h
    · cases h

theorem dropStart_sublist (head t : Text) : (dropStart head t).Sublist t := by
  unfold dropStart Text.after?
  split
  · exact List.drop_sublist _ _
  · exact List.Sublist.refl _

theorem dropEnd_sublist (tail t : Text) : (dropEnd tail t).Sublist t := by
  unfold dropEnd
  split
  · exact List.take_sublist _ _
  · exact List.Sublist.refl _

theorem content_sublist (line : Text) : (content line).Sublist line := by
  unfold content
  exact (Text.trim_sublist _).trans ((dropStart_sublist _ _).trans ((Text.trim_sublist _).trans
    ((dropEnd_sublist _ _).trans (dropStart_sublist _ _))))

theorem of_read (hspace : P ' ') {above : List Text} (ha : ∀ l ∈ above, Of P l) :
    (∀ t ∈ (read above).type, Of P t) ∧ ∀ t ∈ (read above).description, Of P t := by
  refine forall_read (fun comment hcomment l hl _ => ?_) (fun comment hcomment l hl => ?_) fun ws _ hws => ?_
  · exact (of_comment? ha hcomment l hl).sublist (content_sublist l)
  · exact Text.Of.words ((of_comment? ha hcomment l hl).sublist (content_sublist l))
  · exact Text.Of.joinWith (Text.of_cons.2 ⟨hspace, Text.of_nil⟩) hws

end DocBlock

/-! ## Declarations -/

/-- A property whose texts are of the class. -/
structure Property.Of (P : Char → Prop) (p : Property) : Prop where
  isName : Grammar.IsName p.name
  name : Text.Of P p.name.text
  hint : ∀ t ∈ p.hint, Text.Of P t
  type : ∀ t ∈ p.type, Text.Of P t
  description : ∀ t ∈ p.description, Text.Of P t
  indentation : Text.Of P p.indentation
  indentationBlank : ∀ c ∈ p.indentation, Text.isBlank c = true

/-- What can stand in a line of its own, or in a part of one. -/
abbrev Property.Unbroken (p : Property) : Prop := p.Of (Text.isBreak · = false)

theorem Literal.of_name (hP : Text.Wordy P) (l : Literal) : Of P l.name := by
  apply hP.of_all
  cases l <;> decide

theorem Property.of_inferred? (hP : Text.Wordy P) (default : Option Text) : ∀ t ∈ inferred? default, Text.Of P t := by
  intro t ht
  unfold inferred? at ht
  split at ht
  · cases ht
  · rename_i l _ _
    obtain rfl := Option.some.inj ht
    exact l.of_name hP
  · cases ht

theorem Property.of_ofLine? (hP : Text.Wordy P) {above : List Text} {line : Text} {p : Property}
    (ha : ∀ l ∈ above, Text.Of P l) (hl : Text.Of P line) (h : ofLine? above line = some p) : p.Of P := by
  have hline : Text.Of P (Text.dropBreak line) := hl.sublist (Text.dropEndWhile_sublist _ _)
  obtain ⟨d, hd, rfl⟩ := Option.map_eq_some_iff.1 h
  obtain ⟨hn, hname, hhint⟩ := (Grammar.declares_of_scan? hd).parts
  have htrim : Text.Of P (Text.trim (Text.dropBreak line)) := hline.sublist (Text.trim_sublist _)
  have hhints : ∀ t ∈ d.hint, Text.Of P t := fun t ht => htrim.sublist (hhint t ht)
  have hconcrete : ∀ t ∈ concreteHint? d.hint, Text.Of P t := fun t ht => hhints t (Option.filter_eq_some_iff.1 ht).1
  obtain ⟨htype, hdescription⟩ := DocBlock.of_read hP.space ha
  refine ⟨hn, htrim.sublist hname, hconcrete, fun t ht => ?_, hdescription,
    hline.sublist (List.takeWhile_sublist _), Text.indentation_blank _⟩
  rcases Option.or_eq_some_iff.1 ht with ht | ⟨-, ht⟩
  · exact htype t ht
  rcases Option.or_eq_some_iff.1 ht with ht | ⟨-, ht⟩
  · exact hconcrete t ht
  rcases Option.or_eq_some_iff.1 ht with ht | ⟨-, ht⟩
  · exact of_inferred? hP _ t ht
  · exact hhints t (Option.filter_eq_some_iff.1 ht).1

/-- Also the property that a search finds. -/
theorem Property.of_find? (hP : Text.Wordy P) {lines : List Text} (hl : ∀ l ∈ lines, Text.Of P l) {cursor : Int}
    {f : Found} (h : find? lines cursor = some f) : f.property.Of P := by
  obtain ⟨-, l, hmem, hdeclares⟩ := find?_declares h
  exact of_ofLine? hP (fun m hm => hl m (List.mem_of_mem_take (List.mem_reverse.1 hm)))
    (hl l (List.mem_of_getElem? hmem)) hdeclares

theorem Property.unbroken_of_find? {lines : List Text} (hl : ∀ l ∈ lines, Text.Unbroken l) {cursor : Int} {f : Found}
    (h : find? lines cursor = some f) : f.property.Unbroken := of_find? Text.wordy_unbroken hl h

end Accessors
