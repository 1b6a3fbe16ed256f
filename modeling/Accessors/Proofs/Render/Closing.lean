/-
  Accessors.Proofs.Render.Closing — where the comment of an accessor ends.

  The comment of a template is an opener, a line with the description, other lines that
  start with an asterisk, and a line that closes it. Filling in keeps that, and so do the
  blanks behind the tags, which make no closer and take none away (`Commented`,
  `Commented.replaceTag`). So the comment ends on its closing line if and only if no
  comment ends in the type, nor on the line with the description
  (`firstClosed?_getterText`, `firstClosed?_setterText`), whatever was filled into that.
  - `firstClosed?_iff`: with a description in which nothing is read again it ends there if
    and only if none ends in the type or in the description; and none does if the only
    closer in the comment above the property is the one that it ends in;
  - `firstClosed?_borrowed`: if there is another one, the documentation of the property
    goes on behind it.
-/
import Accessors.Proofs.Render.Description
import Accessors.Proofs.Source.Unclosed

namespace Accessors.Render

open DocBlock (Unclosed Neutral)
open Template (mark)

/-- The line that closes the comment of a template. -/
def closing : Text := " */".toList

/-- The first line of a text on which a comment ends. -/
def firstClosed? (t : Text) : Option Text := (Text.splitOn '\n' t).find? (Text.contains DocBlock.closer)

/-! ## A comment among lines -/

/-- A line of the comment of a template, between those that open and close it. -/
def Starred (l : Text) : Prop := l = " *".toList ∨ ∃ x, l = starMargin ++ x

/-- Lines that start with a comment. If no comment ends on its second line, then none ends
    on another line before the closing one if and only if `Q` holds. -/
def Commented (Q : Prop) (ls : List Text) : Prop :=
  ∃ d others below, ls = DocBlock.opener :: (starMargin ++ d) :: (others ++ closing :: below) ∧
    (∀ l ∈ others, Starred l) ∧ (Unclosed d → ((∀ l ∈ others, Unclosed l) ↔ Q))

section Commented

variable {Q : Prop} {tag new : Text}

theorem unclosed_margin {d : Text} : Unclosed (starMargin ++ d) ↔ Unclosed d := by
  have hmargin : Unclosed starMargin := by decide
  have hlast : starMargin.getLast? ≠ some '*' := by decide
  rw [DocBlock.unclosed_append]
  simp only [hmargin, hlast, false_and, not_false_eq_true, and_true, true_and]

/-- Replacing a tag finds it before the closing line, or behind it. -/
theorem replaceFirstIn_starred (htag : tag.head? = some '@') (ho : Neutral tag) (hn : Neutral new) {others : List Text}
    (hothers : ∀ l ∈ others, Starred l) (below : List Text) : ∃ others' below',
      Text.replaceFirstIn tag new (others ++ closing :: below) = others' ++ closing :: below' ∧
        (∀ l ∈ others', Starred l) ∧ ((∀ l ∈ others', Unclosed l) ↔ ∀ l ∈ others, Unclosed l) := by
  induction others with
  | nil =>
    have hclosing : Text.contains tag closing = false := contains_tag htag (by decide)
    refine ⟨[], Text.replaceFirstIn tag new below, ?_, hothers, Iff.rfl⟩
    rw [List.nil_append, Text.replaceFirstIn, hclosing]
    rfl
  | cons l others ih =>
    obtain ⟨hl, hothers⟩ := List.forall_mem_cons.1 hothers
    rw [List.cons_append, Text.replaceFirstIn]
    by_cases hc : Text.contains tag l = true
    · refine ⟨Text.replaceFirst tag new l :: others, below, by rw [if_pos hc]; rfl, ?_, ?_⟩
      · refine List.forall_mem_cons.2 ⟨?_, hothers⟩
        rcases hl with rfl | ⟨x, rfl⟩
        · rw [contains_tag htag (by decide)] at hc
          cases hc
        · exact .inr ⟨_, Text.replaceFirst_append (tag_apart htag) ho.ne_nil x⟩
      · rw [List.forall_mem_cons, List.forall_mem_cons, DocBlock.unclosed_replaceFirst ho hn]
    · obtain ⟨others', below', hsplit, hstarred, hunclosed⟩ := ih hothers
      refine ⟨l :: others', below', by rw [if_neg hc, hsplit]; rfl, List.forall_mem_cons.2 ⟨hl, hstarred⟩, ?_⟩
      rw [List.forall_mem_cons, List.forall_mem_cons, hunclosed]

/-- Replacing a tag by a neutral text leaves the comment one. -/
theorem Commented.replaceTag {ls : List Text} (h : Commented Q ls) (htag : tag.head? = some '@') (ho : Neutral tag)
    (hn : Neutral new) : Commented Q (Text.replaceFirstIn tag new ls) := by
  obtain ⟨d, others, below, rfl, hothers, hiff⟩ := h
  have hopener : Text.contains tag DocBlock.opener = false := contains_tag htag (by decide)
  rw [Text.replaceFirstIn, hopener, Text.replaceFirstIn]
  by_cases hd : Text.contains tag (starMargin ++ d) = true
  · refine ⟨Text.replaceFirst tag new d, others, below, ?_, hothers, ?_⟩
    · rw [if_neg Bool.false_ne_true, if_pos hd, Text.replaceFirst_append (tag_apart htag) ho.ne_nil]
    · rwa [DocBlock.unclosed_replaceFirst ho hn]
  · obtain ⟨others', below', hsplit, hstarred, hunclosed⟩ := replaceFirstIn_starred htag ho hn hothers below
    refine ⟨d, others', below', ?_, hstarred, ?_⟩
    · rw [if_neg Bool.false_ne_true, if_neg hd, hsplit]
    · rwa [hunclosed]

theorem unclosed_indented {indentation : Text} (hblank : ∀ c ∈ indentation, Text.isBlank c = true) {l : Text} :
    Unclosed (indentation ++ l) ↔ Unclosed l := by
  have hstar : '*' ∉ indentation := fun h => absurd (hblank _ h) (by decide)
  have hlast : indentation.getLast? ≠ some '*' := fun h => hstar (List.mem_of_mem_getLast? h)
  rw [DocBlock.unclosed_append]
  simp only [DocBlock.unclosed_of_not_mem hstar, hlast, false_and, not_false_eq_true, and_true, true_and]

theorem Starred.ne {l : Text} (h : Starred l) : l ≠ [] ∧ l ≠ closing := by
  rcases h with rfl | ⟨x, rfl⟩
  · decide
  · refine ⟨by simp [starMargin], fun he => ?_⟩
    have hthird := congrArg (·[2]?) he
    simp [starMargin, closing] at hthird

theorem find?_eq_some_split {P : Text → Bool} {above below : List Text} {x : Text} (hx : P x = true) (hne : x ∉ above) :
    (above ++ x :: below).find? P = some x ↔ ∀ l ∈ above, P l = false := by
  rw [List.find?_append, List.find?_cons_of_pos hx]
  cases h : above.find? P with
  | none => simpa using List.find?_eq_none.1 h
  | some y =>
    have hy := List.mem_of_find?_eq_some h
    have hPy := List.find?_some h
    constructor
    · intro he
      obtain rfl := Option.some.inj he
      exact absurd hy hne
    · intro hall
      rw [hall y hy] at hPy
      cases hPy

/-- Lines that are not empty, above a closing one, are indented together with that. -/
theorem splitOn_indent_closing {t indentation : Text} (hi : '\n' ∉ indentation) {above below : List Text}
    (hlines : Text.splitOn '\n' t = above ++ closing :: below) (habove : ∀ l ∈ above, l ≠ []) :
    Text.splitOn '\n' (Template.indent indentation t) =
      above.map (indentation ++ ·) ++ (indentation ++ closing) :: below.map (Template.indentLine indentation) := by
  have hindented : above.map (Template.indentLine indentation) = above.map (indentation ++ ·) :=
    List.map_congr_left fun l hl => Template.indentLine_of_ne_nil indentation (habove l hl)
  have hclosing : Template.indentLine indentation closing = indentation ++ closing :=
    Template.indentLine_of_ne_nil indentation (by decide)
  rw [Template.splitOn_indent hi, hlines, List.map_append, List.map_cons, hindented, hclosing]

theorem contains_closer_closing (indentation : Text) : Text.contains DocBlock.closer (indentation ++ closing) = true :=
  Text.contains_iff.2 ⟨indentation ++ [' '], [], by simp [closing, DocBlock.closer]⟩

/-- Indented, the comment ends on its closing line if none ends on a line before. -/
theorem Commented.firstClosed? {t : Text} (h : Commented Q (Text.splitOn '\n' t)) {indentation : Text}
    (hi : '\n' ∉ indentation) (hblank : ∀ c ∈ indentation, Text.isBlank c = true) :
    Render.firstClosed? (Template.indent indentation t) = some (indentation ++ closing) ↔
      Q ∧ ∀ l ∈ (Text.splitOn '\n' (Template.indent indentation t))[1]?, Unclosed l := by
  obtain ⟨d, others, below, hlines, hothers, hiff⟩ := h
  have hmargin : Starred (starMargin ++ d) := .inr ⟨d, rfl⟩
  have habove : ∀ l ∈ DocBlock.opener :: (starMargin ++ d) :: others, l ≠ [] ∧ l ≠ closing :=
    List.forall_mem_cons.2 ⟨by decide, List.forall_mem_cons.2 ⟨hmargin.ne, fun l hl => (hothers l hl).ne⟩⟩
  have hcut := splitOn_indent_closing hi hlines fun l hl => (habove l hl).1
  have hfresh : indentation ++ closing ∉ (DocBlock.opener :: (starMargin ++ d) :: others).map (indentation ++ ·) := by
    intro hmem
    obtain ⟨l, hl, he⟩ := List.mem_map.1 hmem
    exact (habove l hl).2 (List.append_cancel_left he)
  have hopener : Unclosed DocBlock.opener := by decide
  unfold Render.firstClosed?
  rw [hcut, find?_eq_some_split (contains_closer_closing indentation) hfresh]
  have hsecond : (∀ l ∈ ((DocBlock.opener :: (starMargin ++ d) :: others).map (indentation ++ ·) ++
      (indentation ++ closing) :: below.map (Template.indentLine indentation))[1]?, Unclosed l) ↔ Unclosed d := by
    show (∀ l ∈ some (indentation ++ (starMargin ++ d)), Unclosed l) ↔ _
    simp only [Option.mem_def, Option.some.injEq, forall_eq', unclosed_indented hblank, unclosed_margin]
  rw [hsecond]
  simp only [List.forall_mem_map, DocBlock.contains_closer_iff, unclosed_indented hblank, List.forall_mem_cons,
    hopener, true_and, unclosed_margin]
  constructor
  · rintro ⟨hd, hall⟩
    exact ⟨(hiff hd).1 hall, hd⟩
  · rintro ⟨hQ, hd⟩
    exact ⟨hd, (hiff hd).2 hQ⟩

end Commented

/-! ## The comments of the templates -/

theorem lines_getter : ∃ below, Text.splitOn '\n' Template.getter =
    DocBlock.opener :: (starMargin ++ mark "description".toList) ::
      ([" *".toList, starMargin ++ (returnTag ++ mark "type".toList)] ++ closing :: below) := by
  unfold Template.getter starMargin Template.mark DocBlock.opener returnTag closing
  repeat rw [String.toList_ofList]
  exact ⟨_, rfl⟩

theorem lines_setter : ∃ below, Text.splitOn '\n' Template.setter =
    DocBlock.opener :: (starMargin ++ mark "description".toList) ::
      ([" *".toList, starMargin ++ (typedParamTag ++ '$' :: mark "name".toList), " *".toList,
        starMargin ++ (returnTag ++ "self".toList)] ++ closing :: below) := by
  unfold Template.setter starMargin Template.mark DocBlock.opener typedParamTag returnTag closing
  repeat rw [String.toList_ofList]
  exact ⟨_, rfl⟩

section Accessors

variable {p : Property}

theorem neutral_name {n : Name} (hn : Grammar.IsName n) : Neutral n.text :=
  ⟨List.cons_ne_nil _ _, of_name DocBlock.wordy_neutral hn⟩

theorem neutral_method {head : Text} (hh : Neutral head) {n : Name} (hn : Grammar.IsName n) :
    Neutral (n.method head) :=
  ⟨by simp [Name.method, hh.ne_nil], of_method DocBlock.wordy_neutral hn hh.of⟩

/-- A given text closes no comment if the other one does not. -/
theorem unclosed_given {t : Option Text} {otherwise : Text} (ho : Unclosed otherwise) :
    Unclosed (given t otherwise) ↔ ∀ d ∈ t, Unclosed d := by
  cases t with
  | none => simpa [given] using ho
  | some d =>
    by_cases hd : d = []
    · subst hd
      have hnil : Unclosed [] := by decide
      have hgiven : given (some []) otherwise = otherwise := rfl
      simpa [hgiven, hnil] using ho
    · rw [given_some hd]
      simp

/-- The name and its accessors go into the type without a trace. -/
theorem unclosed_filled_type (hn : Grammar.IsName p.name) :
    Unclosed (Template.fill (mark "type".toList) (getterTexts p)) ↔ Unclosed (typeText p) := by
  have hdescription : Text.contains (mark "description".toList) (mark "type".toList) = false := by decide
  have hgetter : Neutral (mark "getter_name".toList) := by decide
  have hname : Neutral (mark "name".toList) := by decide
  show Unclosed (Text.replaceAll (mark "name".toList) p.name.text (Text.replaceAll (mark "getter_name".toList) _
    (Text.replaceAll (mark "type".toList) (typeText p) (Text.replaceAll (mark "description".toList) _ _)))) ↔ _
  rw [Text.replaceAll_eq_self hdescription, Text.replaceAll_self (by decide),
    DocBlock.unclosed_replaceAll hname (neutral_name hn),
    DocBlock.unclosed_replaceAll hgetter (neutral_method (by decide) hn)]

theorem commented_getter (hp : p.Of (· ≠ '\n')) :
    Commented (Unclosed (typeText p)) (Text.splitOn '\n' (Template.fill Template.getter (getterTexts p))) := by
  obtain ⟨below, hlines⟩ := lines_getter
  rw [splitOn_fill (by decide) (fits_getterTexts Text.wordy_ne_feed hp), hlines]
  have hstar : Unclosed " *".toList := by decide
  have htag : Unclosed (returnTag ++ Template.fill (mark "type".toList) (getterTexts p)) ↔ Unclosed (typeText p) := by
    rw [DocBlock.unclosed_behind (by decide), unclosed_filled_type hp.isName]
  refine ⟨Template.fill (mark "description".toList) (getterTexts p),
    [" *".toList, starMargin ++ (returnTag ++ Template.fill (mark "type".toList) (getterTexts p))],
    below.map (Template.fill · (getterTexts p)), ?_, ?_, fun _ => ?_⟩
  · simp only [List.map_cons, List.map_append, List.map_nil]
    rw [fill_plain DocBlock.opener (by decide), fill_plain " *".toList (by decide), fill_plain closing (by decide),
      fill_append starMargin (by decide), fill_append starMargin (by decide), fill_append returnTag (by decide)]
  · exact List.forall_mem_cons.2 ⟨.inl rfl, List.forall_mem_singleton.2 (.inr ⟨_, rfl⟩)⟩
  · rw [List.forall_mem_cons, List.forall_mem_singleton, unclosed_margin, htag]
    exact and_iff_right hstar

theorem filled_name : Template.fill (mark "name".toList) (setterTexts p) = p.name.text := by
  have hdescription : Text.contains (mark "description".toList) (mark "name".toList) = false := by decide
  have hsetter : Text.contains (mark "setter_name".toList) (mark "name".toList) = false := by decide
  have hhint : Text.contains (mark "type_hint".toList) (mark "name".toList) = false := by decide
  show Text.replaceAll (mark "name".toList) p.name.text (Text.replaceAll (mark "type_hint".toList) _
    (Text.replaceAll (mark "setter_name".toList) _ (Text.replaceAll (mark "description".toList) _ _))) = _
  rw [Text.replaceAll_eq_self hdescription, Text.replaceAll_eq_self hsetter, Text.replaceAll_eq_self hhint,
    Text.replaceAll_self (by decide)]

/-- The lines of the setter's comment below the one with the description. -/
def starredLines (param : Text) : List Text :=
  [" *".toList, starMargin ++ param, " *".toList, starMargin ++ (returnTag ++ "self".toList)]

theorem starred_starredLines (param : Text) : ∀ l ∈ starredLines param, Starred l := by
  intro l hl
  simp only [starredLines, List.mem_cons, List.not_mem_nil, or_false] at hl
  rcases hl with rfl | rfl | rfl | rfl
  · exact .inl rfl
  · exact .inr ⟨_, rfl⟩
  · exact .inl rfl
  · exact .inr ⟨_, rfl⟩

theorem unclosed_starredLines {param : Text} : (∀ l ∈ starredLines param, Unclosed l) ↔ Unclosed param := by
  have hself : Unclosed (returnTag ++ "self".toList) := by decide
  have hstar : Unclosed " *".toList := by decide
  simp only [starredLines, List.forall_mem_cons, List.not_mem_nil, false_implies, implies_true, unclosed_margin, hself,
    hstar, true_and, and_true]

theorem lines_filledSetter (hp : p.Of (· ≠ '\n')) : ∃ d below,
    Text.splitOn '\n' (Template.fill Template.setter (setterTexts p)) = DocBlock.opener :: (starMargin ++ d) ::
      (starredLines (typedParamTag ++ '$' :: p.name.text) ++ closing :: below) := by
  obtain ⟨below, hlines⟩ := lines_setter
  refine ⟨Template.fill (mark "description".toList) (setterTexts p), below.map (Template.fill · (setterTexts p)), ?_⟩
  have hself : Template.fill (returnTag ++ "self".toList) (setterTexts p) = returnTag ++ "self".toList :=
    fill_plain _ (by decide) _
  have hparam : Template.fill (typedParamTag ++ '$' :: mark "name".toList) (setterTexts p) =
      typedParamTag ++ '$' :: p.name.text := by
    rw [fill_append typedParamTag (by decide), ← List.singleton_append, fill_append ['$'] (by decide), filled_name]
    rfl
  rw [splitOn_fill (by decide) (fits_setterTexts Text.wordy_ne_feed hp), hlines]
  simp only [List.map_cons, List.map_append, List.map_nil, starredLines]
  rw [fill_plain DocBlock.opener (by decide), fill_plain " *".toList (by decide), fill_plain closing (by decide),
    fill_append starMargin (by decide), fill_append starMargin (by decide), fill_append starMargin (by decide), hparam,
    hself]

/-- The lines with the type in place of the tag without one. If that tag is also in the
    description, then the type goes in there. -/
theorem commented_setter (hp : p.Of (· ≠ '\n')) (m : Nat) :
    Commented (Unclosed (typeText p)) (Text.replaceFirstIn typedParamTag (paramTag ++ typeText p ++ Text.spaces m)
      (Text.splitOn '\n' (Template.fill Template.setter (setterTexts p)))) := by
  have hopener : Text.contains typedParamTag DocBlock.opener = false := by decide
  have htag : Neutral typedParamTag := by decide
  have hdollar : ∀ t : Text, Text.Of (fun c => c ≠ '*' ∧ c ≠ '/') t → Neutral (t ++ '$' :: p.name.text) := by
    intro t ht
    refine ⟨by simp, Text.of_append.2 ⟨ht, Text.of_cons.2 ⟨by decide, (neutral_name hp.isName).of⟩⟩⟩
  obtain ⟨d, below, hlines⟩ := lines_filledSetter hp
  rw [hlines, Text.replaceFirstIn, hopener, if_neg Bool.false_ne_true, Text.replaceFirstIn]
  by_cases hd : Text.contains typedParamTag (starMargin ++ d) = true
  · refine ⟨Text.replaceFirst typedParamTag (paramTag ++ typeText p ++ Text.spaces m) d,
      starredLines (typedParamTag ++ '$' :: p.name.text), below, ?_, starred_starredLines _, fun hunclosed => ?_⟩
    · rw [if_pos hd, Text.replaceFirst_append (tag_apart (by decide)) (by decide)]
    · rw [Text.contains_append (tag_apart (by decide)) (by decide)] at hd
      rw [unclosed_starredLines]
      refine ⟨fun _ => ?_, fun _ => (hdollar _ htag.of).unclosed⟩
      rcases DocBlock.replaceFirst_cases htag.ne_nil (paramTag ++ typeText p ++ Text.spaces m) d with
        ⟨hnone, -⟩ | ⟨u, v, -, hreplaced⟩
      · rw [hnone] at hd
        cases hd
      · rw [hreplaced] at hunclosed
        exact hunclosed.within ⟨u ++ paramTag, Text.spaces m ++ v, by simp⟩
  · have hbare : Text.contains typedParamTag " *".toList = false := by decide
    have htagged : Text.contains typedParamTag (starMargin ++ (typedParamTag ++ '$' :: p.name.text)) = true :=
      Text.contains_iff.2 ⟨starMargin, '$' :: p.name.text, by simp⟩
    refine ⟨d, starredLines (paramTag ++ typeText p ++ Text.spaces m ++ '$' :: p.name.text), below, ?_,
      starred_starredLines _, fun _ => ?_⟩
    · rw [if_neg hd]
      simp only [starredLines, List.cons_append]
      rw [Text.replaceFirstIn, hbare, if_neg Bool.false_ne_true, Text.replaceFirstIn, if_pos htagged,
        Text.replaceFirst_append (tag_apart (by decide)) (by decide), Text.replaceFirst_head (by decide)]
    · rw [unclosed_starredLines, List.append_assoc, List.append_assoc, DocBlock.unclosed_behind (by decide),
        DocBlock.unclosed_before (hdollar _ (of_spaces (by decide) m))]

/-! ## Where the comment ends -/

/-- The tags that blanks are put behind. -/
def spacedTags : List Text := [paramTag, returnTag]

theorem Commented.space {Q : Prop} {t : Text} (h : Commented Q (Text.splitOn '\n' t)) (tag : Text)
    (htag : tag ∈ spacedTags) (n : Nat) :
    Commented Q (Text.splitOn '\n' (Text.replaceFirst tag (spacedTag tag (Text.spaces n)) t)) := by
  have htags : ∀ tag ∈ spacedTags, tag.head? = some '@' ∧ Neutral tag ∧ tag.dropLast ≠ [] ∧ '\n' ∉ tag := by decide
  obtain ⟨hhead, hneutral, hne, hline⟩ := htags tag htag
  have hnew : Neutral (spacedTag tag (Text.spaces n)) :=
    ⟨List.append_ne_nil_of_left_ne_nil hne _, of_spacedTag (by decide) hneutral.of n⟩
  have hnewLine := of_spacedTag (by decide) (Text.of_ne_iff.2 hline) n
  rw [Text.splitOn_replaceFirst hneutral.ne_nil hline (Text.of_ne_iff.1 hnewLine)]
  exact h.replaceTag hhead hneutral hnew

theorem unclosed_typeText : Unclosed (typeText p) ↔ ∀ t ∈ p.type, Unclosed t := unclosed_given (by decide)

theorem firstClosed?_getterText (hp : p.Of (· ≠ '\n')) (n : Nat) :
    firstClosed? (getterText p (Text.spaces n)) = some (p.indentation ++ closing) ↔ (∀ t ∈ p.type, Unclosed t) ∧
      ∀ l ∈ (Text.splitOn '\n' (getterText p (Text.spaces n)))[1]?, Unclosed l := by
  have hspaced := (commented_getter hp).space returnTag (by decide) n
  rw [← unclosed_typeText]
  exact hspaced.firstClosed? (Text.of_ne_iff.1 hp.indentation) hp.indentationBlank

theorem firstClosed?_setterText (hp : p.Of (· ≠ '\n')) (l m n : Nat) :
    let t := setterText p (Text.spaces l) (Text.spaces m) (Text.spaces n)
    firstClosed? t = some (p.indentation ++ closing) ↔ (∀ t ∈ p.type, Unclosed t) ∧
      ∀ l ∈ (Text.splitOn '\n' t)[1]?, Unclosed l := by
  have hnew := of_typed Text.wordy_ne_feed hp oneLine_paramTag m
  have htyped := commented_setter hp m
  rw [← Text.splitOn_replaceFirst apart_typedParamTag.1 (by decide) (Text.of_ne_iff.1 hnew)] at htyped
  have hspaced := (htyped.space paramTag (by decide) l).space returnTag (by decide) n
  rw [← unclosed_typeText]
  exact hspaced.firstClosed? (Text.of_ne_iff.1 hp.indentation) hp.indentationBlank

/-! ## A description in which nothing is read again -/

theorem wordy_unmarked : Text.Wordy fun c => c ≠ '\n' ∧ c ≠ '%' ∧ c ≠ '@' := by
  refine ⟨by decide, ?_⟩
  intro c hc
  refine ⟨?_, ?_, ?_⟩ <;> rintro rfl <;> exact absurd hc (by decide)

/-- What is read again starts with a percent sign or an at sign. -/
def Marked (reread : List Text) : Prop := ∀ part ∈ reread, part.head? = some '%' ∨ part.head? = some '@'

instance (reread : List Text) : Decidable (Marked reread) :=
  inferInstanceAs (Decidable (∀ part ∈ reread, part.head? = some '%' ∨ part.head? = some '@'))

/-- Nothing is read again in a description that is made up from a name. -/
theorem plain_made {reread : List Text} (hreread : Marked reread) {head : Text} (hne : head ≠ [])
    (hhead : Text.Of (fun c => c ≠ '\n' ∧ c ≠ '%' ∧ c ≠ '@') head) {n : Name} (hn : Grammar.IsName n) :
    Plain reread (head ++ n.text) := by
  have hof := Text.of_append.2 ⟨hhead, of_name wordy_unmarked hn⟩
  refine ⟨List.append_ne_nil_of_left_ne_nil hne _, fun h => (hof _ h).1 rfl, fun part hpart => ?_⟩
  rw [← Bool.not_eq_true, Text.contains_iff]
  intro hin
  rcases hreread part hpart with hfirst | hfirst
  · exact (hof _ (hin.subset (List.mem_of_mem_head? hfirst))).2.1 rfl
  · exact (hof _ (hin.subset (List.mem_of_mem_head? hfirst))).2.2 rfl

theorem plain_given {reread : List Text} (hp : p.Of (· ≠ '\n')) (hunread : ∀ d ∈ p.description, Unread reread d)
    {otherwise : Text} (ho : Plain reread otherwise) : Plain reread (given p.description otherwise) := by
  unfold given
  cases hd : p.description.filter fun t => !t.isEmpty with
  | none => exact ho
  | some d =>
    obtain ⟨hd, hne⟩ := Option.filter_eq_some_iff.1 hd
    exact ⟨by simpa using hne, Text.of_ne_iff.1 (hp.description d hd), hunread d hd⟩

/-- The second line is the description, given or made up, and closes no comment if the
    given one does not. -/
theorem unclosed_second {reread : List Text} {head : Text} {f : Property → Text} (hp : p.Of (· ≠ '\n'))
    (hreread : Marked reread) (hneutral : Neutral head) (hhead : Text.Of (fun c => c ≠ '\n' ∧ c ≠ '%' ∧ c ≠ '@') head)
    (hunread : ∀ d ∈ p.description, Unread reread d)
    (hcopies : Copies reread (p.indentation ++ starMargin) fun d => f (p.describedAs d))
    (hself : given p.description (head ++ p.name.text) ≠ [] →
      f (p.describedAs (given p.description (head ++ p.name.text))) = f p) :
    (∀ l ∈ (Text.splitOn '\n' (f p))[1]?, Unclosed l) ↔ ∀ d ∈ p.description, Unclosed d := by
  have hmade : Unclosed (head ++ p.name.text) :=
    (DocBlock.unclosed_behind hneutral).2 (neutral_name hp.isName).unclosed
  have hgiven := plain_given hp hunread (plain_made hreread hneutral.ne_nil hhead hp.isName)
  obtain ⟨first, rest, hcut⟩ := hcopies
  have hsecond := hcut _ hgiven
  simp only [hself hgiven.ne_nil] at hsecond
  rw [hsecond, ← @unclosed_given p.description (head ++ p.name.text) hmade]
  show (∀ l ∈ some (p.indentation ++ starMargin ++ given p.description (head ++ p.name.text)), Unclosed l) ↔ _
  simp only [Option.mem_def, Option.some.injEq, forall_eq', List.append_assoc, unclosed_indented hp.indentationBlank,
    unclosed_margin]

theorem firstClosed?_getterText_plain (hp : p.Of (· ≠ '\n'))
    (hunread : ∀ d ∈ p.description, Unread rereadInGetter d) (n : Nat) :
    firstClosed? (getterText p (Text.spaces n)) = some (p.indentation ++ closing) ↔ p.Unclosed := by
  have hsecond := @unclosed_second p rereadInGetter "Get the value of ".toList (getterText · (Text.spaces n)) hp
    (by decide) (by decide) (wordy_unmarked.of_all (by decide)) hunread (copies_getterText hp n) fun hne => by
      have htexts : getterTexts (p.describedAs (given p.description ("Get the value of ".toList ++ p.name.text))) =
          getterTexts p := congrArg (fun t => (_, t) :: _) (given_some hne _)
      unfold getterText
      rw [htexts]
      rfl
  rw [firstClosed?_getterText hp n, hsecond]
  exact ⟨fun h => ⟨h.1, h.2⟩, fun h => ⟨h.type, h.description⟩⟩

theorem firstClosed?_setterText_plain (hp : p.Of (· ≠ '\n'))
    (hunread : ∀ d ∈ p.description, Unread rereadInSetter d) (l m n : Nat) :
    firstClosed? (setterText p (Text.spaces l) (Text.spaces m) (Text.spaces n)) = some (p.indentation ++ closing) ↔
      p.Unclosed := by
  have hsecond := @unclosed_second p rereadInSetter "Set the value of ".toList
    (setterText · (Text.spaces l) (Text.spaces m) (Text.spaces n)) hp (by decide) (by decide)
    (wordy_unmarked.of_all (by decide)) hunread (copies_setterText hp l m n) fun hne => by
      have htexts : setterTexts (p.describedAs (given p.description ("Set the value of ".toList ++ p.name.text))) =
          setterTexts p := congrArg (fun t => (_, t) :: _) (given_some hne _)
      unfold setterText
      rw [htexts]
      rfl
  refine (firstClosed?_setterText hp l m n).trans ?_
  rw [hsecond]
  exact ⟨fun h => ⟨h.1, h.2⟩, fun h => ⟨h.type, h.description⟩⟩

end Accessors

/-! ## Of what is found in a document -/

/-- For any text, any cursor and any settings with spaces that can be held, the comment of
    each accessor ends on its closing line if and only if no comment ends in the type, nor
    on the line of the description; if nothing is read again in the description, if and
    only if none ends in what the property says. And none does if the comment above the
    property holds no closer but the one at its end. -/
theorem firstClosed?_iff {s : Settings} (hs : Spaceable s .both) {t : Text} {cursor : Int} {found : Property.Found}
    (hfound : Property.find? (Text.lines t) cursor = some found) :
    let p := found.property
    ∃ g u, (getter s p).outcome = .ok g ∧ (setter s p).outcome = .ok u ∧
      (∀ code ∈ [g, u], firstClosed? code = some (p.indentation ++ closing) ↔
        (∀ y ∈ p.type, Unclosed y) ∧ ∀ l ∈ (Text.splitOn '\n' code)[1]?, Unclosed l) ∧
      ((∀ d ∈ p.description, Unread rereadInGetter d) →
        (firstClosed? g = some (p.indentation ++ closing) ↔ p.Unclosed)) ∧
      ((∀ d ∈ p.description, Unread rereadInSetter d) →
        (firstClosed? u = some (p.indentation ++ closing) ↔ p.Unclosed)) ∧
      ((∀ comment, DocBlock.comment? ((Text.lines t).take found.line).reverse = some comment →
        DocBlock.ClosedAtEnd comment) → p.Unclosed) := by
  intro p
  have hlines : ∀ l ∈ Text.lines t, Text.Of (· ≠ '\n') l :=
    fun l hl => Text.of_ne_iff.2 (Text.Unbroken.not_mem (Text.unbroken_of_mem_lines hl))
  have hp : p.Of (· ≠ '\n') := Property.of_find? Text.wordy_ne_feed hlines hfound
  obtain ⟨hgetter, hsetter⟩ : Spaceable s .getter ∧ Spaceable s .setter := List.forall_mem_append.1 hs
  refine ⟨spacedGetter s p, spacedSetter s p, by rw [outcome_getter, if_pos hgetter],
    by rw [outcome_setter, if_pos hsetter], ?_, fun hunread => firstClosed?_getterText_plain hp hunread _,
    fun hunread => firstClosed?_setterText_plain hp hunread _ _ _, Property.unclosed_of_find? hfound⟩
  exact List.forall_mem_cons.2 ⟨firstClosed?_getterText hp _,
    List.forall_mem_singleton.2 (firstClosed?_setterText hp _ _ _)⟩

/-- A comment of one line: both comments end on their closing lines. -/
theorem firstClosed?_sample : ∃ g u, Spaceable Settings.defaults .both ∧
    (getter Settings.defaults (describedProperty "So far".toList)).outcome = .ok g ∧
    (setter Settings.defaults (describedProperty "So far".toList)).outcome = .ok u ∧
      firstClosed? g = some (Text.spaces 4 ++ closing) ∧ firstClosed? u = some (Text.spaces 4 ++ closing) := by
  have hlines : Text.lines (Text.joinWith ['\n'] (described "So far".toList)) = described "So far".toList := by
    decide +kernel
  have hfind : Property.find? (Text.lines (Text.joinWith ['\n'] (described "So far".toList))) 2 =
      some ⟨2, describedProperty "So far".toList⟩ := by
    rw [hlines]
    exact find?_described "So far".toList (by simp)
  have hcomment : DocBlock.comment? ((described "So far".toList).take 2).reverse = some ["/** So far */".toList] := by
    decide +kernel
  obtain ⟨g, u, hg, hu, -, hgetter, hsetter, hunclosed⟩ := firstClosed?_iff (spaceable_defaults .both) hfind
  have hsilent : (describedProperty "So far".toList).Unclosed := by
    refine hunclosed fun comment hc => ?_
    rw [hlines, hcomment] at hc
    obtain rfl := Option.some.inj hc
    decide
  have hunread : ∀ {reread}, Unread reread "So far".toList → ∀ d ∈ (describedProperty "So far".toList).description,
      Unread reread d := by
    rintro reread h d hd
    exact Option.some.inj hd ▸ h
  exact ⟨g, u, spaceable_defaults .both, hg, hu, (hgetter (hunread (by decide))).2 hsilent,
    (hsetter (hunread (by decide))).2 hsilent⟩

/-- Two declarations, the first one between comments on its line. -/
def borrowed : Text := Text.joinWith ['\n'] ["class A \x7b".toList,
  "    /** Doc of a */ private $a; /* plain */".toList, "    private $b = 1;".toList, "\x7d".toList]

def borrowedProperty : Property :=
  ⟨⟨'b', []⟩, none, some "int".toList, some "Doc of a */ private $a; /* plain".toList, Text.spaces 4⟩

/-- The second one takes that line for its documentation, and the comment of the getter
    ends in the middle of it. -/
theorem firstClosed?_borrowed : Property.find? (Text.lines borrowed) 2 = some ⟨2, borrowedProperty⟩ ∧
    ∃ g, (getter Settings.defaults borrowedProperty).outcome = .ok g ∧
      firstClosed? g ≠ some (borrowedProperty.indentation ++ closing) ∧ ¬borrowedProperty.Unclosed := by
  have hfind : Property.find? (Text.lines borrowed) 2 = some ⟨2, borrowedProperty⟩ := by decide +kernel
  have hgetter : (getter Settings.defaults borrowedProperty).outcome =
      .ok (spacedGetter Settings.defaults borrowedProperty) := by
    rw [outcome_getter, if_pos (by decide)]
  have hclosed : ¬Unclosed "Doc of a */ private $a; /* plain".toList := by decide
  refine ⟨hfind, _, hgetter, ?_, fun h => hclosed (h.description _ rfl)⟩
  decide +kernel

end Accessors.Render
