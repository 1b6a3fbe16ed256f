/-
  Accessors.Proofs.Render.Layout — the accessors, line by line.

  The templates are lines, and no mark and no tag stands across two of them, so that
  filling in and the blanks behind the tags go through the lines, whatever breaks the
  texts hold that are filled in (`fill_unlines`, `replaceFirst_unlines`). In a line each
  mark is filled with the text of its key, as long as that holds no percent sign. A tag of
  the template is the first one if no at sign stands above it (`replaceFirst_tag`).
  - `accessors_laidOut`: so the accessors of a property that holds neither sign are the
    lines of `getterLines` and `setterLines`, indented.
-/
import Accessors.Proofs.Render.Description
import Accessors.Proofs.Render.Marks
import Accessors.Text.Codes

namespace Accessors

/-! ## Capitals -/

namespace Text

/-- A row for characters outside of ASCII leads beyond the at sign. -/
theorem upperRows_beyond :
    upperRows.all (fun r => decide (r.last < 128) || decide (64 < (r.first : Int) + r.shift)) = true := by decide

theorem upperSequences_beyond : upperSequences.all (fun r => r.2.all fun n => decide (64 < n)) = true := by decide

theorem mapByRows_upper {code : Nat} (h : 128 ≤ code) : 64 < mapByRows upperRows code := by
  unfold mapByRows
  split
  · rename_i row hrow
    have hcovers := List.find?_some hrow
    simp only [CaseRow.covers, Bool.and_eq_true, decide_eq_true_eq] at hcovers
    have hbeyond := List.all_eq_true.1 upperRows_beyond row (List.mem_of_find?_eq_some hrow)
    simp only [Bool.or_eq_true, decide_eq_true_eq] at hbeyond
    omega
  · omega

/-- A character up to the at sign is the capital of itself alone. -/
theorem eq_of_mem_upperOf {c d : Char} (hd : 0 < d.toNat ∧ d.toNat ≤ 64) (h : d ∈ upperOf c) : c = d := by
  have hbeyond : ∀ {n : Nat}, 64 < n → d ≠ Char.ofNat n := by
    intro n hn he
    have hcode := congrArg Char.toNat he
    rw [toNat_ofNat] at hcode
    split at hcode <;> omega
  unfold upperOf at h
  split at h
  · rename_i hc
    have hascii : ∀ n < 128, (Char.ofNat n).toUpper.toNat ≤ 64 → (Char.ofNat n).toUpper = Char.ofNat n := by
      decide +kernel
    have hself := hascii c.toNat hc
    rw [Char.ofNat_toNat] at hself
    rw [List.mem_singleton.1 h] at hd ⊢
    exact (hself hd.2).symm
  · rename_i hc
    split at h
    · rename_i row hrow
      obtain ⟨n, hn, he⟩ := List.mem_map.1 h
      have hrow := List.all_eq_true.1 upperSequences_beyond row (List.mem_of_find?_eq_some hrow)
      exact absurd he.symm (hbeyond (of_decide_eq_true (List.all_eq_true.1 hrow n hn)))
    · exact absurd (List.mem_singleton.1 h) (hbeyond (mapByRows_upper (by omega)))

end Text

namespace Render

open Template (mark)

/-! ## The lines -/

/-- The lines of a getter with `afterReturn` behind its tag. -/
def getterLines (p : Property) (afterReturn : Text) : List Text := [
  "/**".toList,
  " * ".toList ++ given p.description ("Get the value of ".toList ++ p.name.text),
  " *".toList,
  " * @return".toList ++ afterReturn ++ given p.type "mixed".toList,
  " */".toList,
  "public function get".toList ++ Text.upperOf p.name.first ++ p.name.rest ++ "()".toList,
  "\x7b".toList,
  "    return $this->".toList ++ p.name.text ++ ";".toList,
  "\x7d".toList,
  []]

/-- The lines of a setter with its three blanks behind the tags and the type. -/
def setterLines (p : Property) (afterParam afterVar afterReturn : Text) : List Text := [
  "/**".toList,
  " * ".toList ++ given p.description ("Set the value of ".toList ++ p.name.text),
  " *".toList,
  " * @param".toList ++ afterParam ++ given p.type "mixed".toList ++ afterVar ++ "$".toList ++ p.name.text,
  " *".toList,
  " * @return".toList ++ afterReturn ++ "self".toList,
  " */".toList,
  "public function set".toList ++ Text.upperOf p.name.first ++ p.name.rest ++ "(".toList ++ hintText p ++
    "$".toList ++ p.name.text ++ ")".toList,
  "\x7b".toList,
  "    $this->".toList ++ p.name.text ++ " = $".toList ++ p.name.text ++ ";".toList,
  [],
  "    return $this;".toList,
  "\x7d".toList,
  []]

/-- Neither the sign of a mark nor that of a tag. -/
def Signless (t : Text) : Prop := Text.Of (fun c => c ≠ '%' ∧ c ≠ '@') t

/-- A property in which nothing can be taken for a mark or a tag. -/
structure Unmarked (p : Property) : Prop where
  name : Signless p.name.text
  hint : ∀ t ∈ p.hint, Signless t
  type : ∀ t ∈ p.type, Signless t
  description : ∀ t ∈ p.description, Signless t

/-! ## Line by line -/

section Fill

variable {texts : List (Text × Text)}

theorem fill_break (htexts : Keyed texts) (l t : Text) :
    Template.fill (l ++ '\n' :: t) texts = Template.fill l texts ++ '\n' :: Template.fill t texts := by
  induction texts generalizing l t with
  | nil => rfl
  | cons e texts ih =>
    obtain ⟨hkey, htexts⟩ := List.forall_mem_cons.1 htexts
    have hfeed : '\n' ∉ e.1 := fun hm => absurd (hkey _ hm) (by decide)
    have hmark : '\n' ∉ mark e.1 := by simp [mark, hfeed]
    show Template.fill (Text.replaceFrom (mark e.1) e.2 0 (l ++ '\n' :: t)) texts = _
    rw [Text.replaceFrom_append_sep (apart_mark e.1).1 hmark t (Nat.zero_le _), ih htexts]
    rfl

theorem fill_unlines (htexts : Keyed texts) (ls : List Text) :
    Template.fill (Text.unlines ls) texts = Text.unlines (ls.map (Template.fill · texts)) := by
  induction ls with
  | nil => exact fill_plain [] List.not_mem_nil texts
  | cons l ls ih => rw [Text.unlines_cons, fill_break htexts, ih, List.map_cons, Text.unlines_cons]

end Fill

theorem replaceFirst_unlines {tag : Text} (hne : tag ≠ []) (hline : '\n' ∉ tag) (new : Text) (ls : List Text) :
    Text.replaceFirst tag new (Text.unlines ls) = Text.unlines (Text.replaceFirstIn tag new ls) := by
  induction ls with
  | nil => exact Text.replaceFirst_eq_self (Text.contains_nil hne)
  | cons l ls ih =>
    rw [Text.unlines_cons, Text.replaceFirst_append_sep hne hline, Text.replaceFirstIn, ih]
    split <;> rw [Text.unlines_cons]

/-- The first tag is the one in the margin of a line, if there is none above. -/
theorem replaceFirst_tag {tag t : Text} (htag : tag.head? = some '@') (hline : '\n' ∉ tag) {above : List Text}
    (habove : ∀ l ∈ above, Text.contains tag l = false) (new : Text) (below : List Text) :
    Text.replaceFirst tag new (Text.unlines (above ++ (starMargin ++ (tag ++ t)) :: below)) =
      Text.unlines (above ++ (starMargin ++ (new ++ t)) :: below) := by
  have hne : tag ≠ [] := (apart_tag htag).1
  rw [replaceFirst_unlines hne hline]
  congr 1
  induction above with
  | nil =>
    have hself : Text.contains tag (starMargin ++ (tag ++ t)) = true :=
      Text.contains_iff.2 ⟨starMargin, t, by simp⟩
    rw [List.nil_append, Text.replaceFirstIn, if_pos hself, Text.replaceFirst_append (tag_apart htag) hne,
      Text.replaceFirst_head hne]
    rfl
  | cons l above ih =>
    obtain ⟨hl, habove⟩ := List.forall_mem_cons.1 habove
    rw [List.cons_append, Text.replaceFirstIn, hl, if_neg Bool.false_ne_true, ih habove]
    rfl

/-! ## The templates -/

/-- The lines above the tags. -/
def opening (d : Text) : List Text := ["/**".toList, starMargin ++ d, " *".toList]

theorem getter_eq : Template.getter = Text.unlines (opening (mark "description".toList) ++
    (starMargin ++ (returnTag ++ mark "type".toList)) :: [
    " */".toList,
    "public function ".toList ++ (mark "getter_name".toList ++ "()".toList),
    "\x7b".toList,
    "    return $this->".toList ++ (mark "name".toList ++ ";".toList),
    "\x7d".toList,
    []]) := by
  unfold Template.getter opening starMargin Template.mark returnTag
  repeat rw [String.toList_ofList]
  rfl

theorem setter_eq : Template.setter = Text.unlines (opening (mark "description".toList) ++
    (starMargin ++ (typedParamTag ++ ("$".toList ++ mark "name".toList))) :: " *".toList ::
    (starMargin ++ (returnTag ++ "self".toList)) :: [
    " */".toList,
    "public function ".toList ++ (mark "setter_name".toList ++ ("(".toList ++ (mark "type_hint".toList ++
      ("$".toList ++ (mark "name".toList ++ ")".toList))))),
    "\x7b".toList,
    "    $this->".toList ++ (mark "name".toList ++ (" = $".toList ++ (mark "name".toList ++ ";".toList))),
    [],
    "    return $this;".toList,
    "\x7d".toList,
    []]) := by
  unfold Template.setter opening starMargin Template.mark typedParamTag returnTag
  repeat rw [String.toList_ofList]
  rfl

/-! ## Filled in -/

theorem signless_of_all {t : Text} (h : (t.all fun c => c != '%' && c != '@') = true) : Signless t :=
  fun c hc => by simpa using List.all_eq_true.1 h c hc

theorem Signless.sign_not_mem {t : Text} (h : Signless t) : '%' ∉ t := fun hm => (h _ hm).1 rfl

theorem Signless.append {s t : Text} (hs : Signless s) (ht : Signless t) : Signless (s ++ t) :=
  Text.of_append.2 ⟨hs, ht⟩

theorem signless_spaces (n : Nat) : Signless (Text.spaces n) := of_spaces (by decide) n

section Texts

variable {p : Property}

theorem Unmarked.typeText (hp : Unmarked p) : Signless (typeText p) :=
  of_given hp.type (signless_of_all (by decide))

theorem Unmarked.made (hp : Unmarked p) {head : Text} (hh : Signless head) :
    Signless (given p.description (head ++ p.name.text)) := of_given hp.description (hh.append hp.name)

theorem Unmarked.hintText (hp : Unmarked p) : Signless (hintText p) := by
  unfold Render.hintText
  split
  · rename_i h hf
    exact Signless.append (hp.hint h (Option.filter_eq_some_iff.1 hf).1) (signless_of_all (by decide))
  · exact Text.of_nil

theorem Unmarked.method (hp : Unmarked p) {head : Text} (hh : Signless head) : Signless (p.name.method head) := by
  obtain ⟨hfirst, hrest⟩ := Text.of_cons.1 hp.name
  refine (hh.append fun d hd => ⟨?_, ?_⟩).append hrest
  · rintro rfl
    exact hfirst.1 (Text.eq_of_mem_upperOf (by decide) hd)
  · rintro rfl
    exact hfirst.2 (Text.eq_of_mem_upperOf (by decide) hd)

theorem fill_getter (hp : Unmarked p) : Template.fill Template.getter (getterTexts p) = Text.unlines (
    opening (given p.description ("Get the value of ".toList ++ p.name.text)) ++
    (starMargin ++ (returnTag ++ typeText p)) :: [
    " */".toList,
    "public function ".toList ++ (p.name.method "get".toList ++ "()".toList),
    "\x7b".toList,
    "    return $this->".toList ++ (p.name.text ++ ";".toList),
    "\x7d".toList,
    []]) := by
  have htexts := keyed_getterTexts p
  have hmade : Signless (given p.description ("Get the value of ".toList ++ p.name.text)) :=
    hp.made (signless_of_all (by decide))
  have hget : Signless (p.name.method "get".toList) := hp.method (signless_of_all (by decide))
  have hdescription := @fill_mark_self _ htexts "description".toList _ (by decide) rfl hmade.sign_not_mem
  have htype := @fill_mark_self _ htexts "type".toList _ (by decide) rfl hp.typeText.sign_not_mem
  have hmethod := @fill_mark _ htexts "getter_name".toList _ (by decide) rfl hget.sign_not_mem
  have hname := @fill_mark _ htexts "name".toList _ (by decide) rfl hp.name.sign_not_mem
  rw [getter_eq, fill_unlines htexts]
  simp (disch := decide) only [opening, List.cons_append, List.nil_append, List.map_cons, List.map_nil, fill_append,
    fill_plain, hdescription, htype, hmethod, hname]

theorem fill_setter (hp : Unmarked p) : Template.fill Template.setter (setterTexts p) = Text.unlines (
    opening (given p.description ("Set the value of ".toList ++ p.name.text)) ++
    (starMargin ++ (typedParamTag ++ ("$".toList ++ p.name.text))) :: " *".toList ::
    (starMargin ++ (returnTag ++ "self".toList)) :: [
    " */".toList,
    "public function ".toList ++ (p.name.method "set".toList ++ ("(".toList ++ (hintText p ++ ("$".toList ++
      (p.name.text ++ ")".toList))))),
    "\x7b".toList,
    "    $this->".toList ++ (p.name.text ++ (" = $".toList ++ (p.name.text ++ ";".toList))),
    [],
    "    return $this;".toList,
    "\x7d".toList,
    []]) := by
  have htexts := keyed_setterTexts p
  have hmade : Signless (given p.description ("Set the value of ".toList ++ p.name.text)) :=
    hp.made (signless_of_all (by decide))
  have hset : Signless (p.name.method "set".toList) := hp.method (signless_of_all (by decide))
  have hdescription := @fill_mark_self _ htexts "description".toList _ (by decide) rfl hmade.sign_not_mem
  have hmethod := @fill_mark _ htexts "setter_name".toList _ (by decide) rfl hset.sign_not_mem
  have hhint := @fill_mark _ htexts "type_hint".toList _ (by decide) rfl hp.hintText.sign_not_mem
  have hname := @fill_mark _ htexts "name".toList _ (by decide) rfl hp.name.sign_not_mem
  have hlast := @fill_mark_self _ htexts "name".toList _ (by decide) rfl hp.name.sign_not_mem
  rw [setter_eq, fill_unlines htexts]
  simp (disch := decide) only [opening, List.cons_append, List.nil_append, List.map_cons, List.map_nil, fill_append,
    fill_plain, hdescription, hmethod, hhint, hname, hlast]

/-! ## Behind the tags -/

section Above

variable {tag : Text} (htag : tag.head? = some '@')
include htag

theorem contains_signless {l : Text} (h : Signless l) : Text.contains tag l = false :=
  contains_tag htag fun hm => (h _ hm).2 rfl

/-- No tag is in the lines of a description that holds none. -/
theorem contains_opening {d : Text} (hd : Signless d) : ∀ l ∈ opening d, Text.contains tag l = false := by
  refine List.forall_mem_cons.2 ⟨contains_tag htag (by decide), List.forall_mem_cons.2 ⟨?_, ?_⟩⟩
  · exact contains_signless htag ((signless_of_all (by decide)).append hd)
  · exact List.forall_mem_singleton.2 (contains_tag htag (by decide))

end Above

theorem getterText_eq (hp : Unmarked p) (afterReturn : Text) : getterText p afterReturn =
    Template.indent p.indentation (Text.unlines (getterLines p afterReturn)) := by
  have hmade : Signless (given p.description ("Get the value of ".toList ++ p.name.text)) :=
    hp.made (signless_of_all (by decide))
  unfold getterText
  rw [fill_getter hp, replaceFirst_tag (by decide) (by decide) (contains_opening (by decide) hmade)]
  rfl

/-- The tag of the parameter is not the one of what is returned. -/
theorem contains_returnTag {t : Text} (ht : Signless t) :
    Text.contains returnTag (starMargin ++ (paramTag.dropLast ++ t)) = false := by
  have hfirst : Text.contains returnTag ('@' :: ("param".toList ++ t)) = false := by
    have hother : Text.startsWith returnTag ('@' :: ("param".toList ++ t)) = false := rfl
    rw [Text.contains, hother, Bool.false_or]
    exact contains_signless (by decide) ((signless_of_all (by decide)).append ht)
  rw [Text.contains_append (tag_apart (by decide)) apart_returnTag.1]
  exact hfirst

theorem setterText_eq (hp : Unmarked p) {afterParam afterVar : Text} (hparam : Signless afterParam)
    (hvar : Signless afterVar) (afterReturn : Text) : setterText p afterParam afterVar afterReturn =
      Template.indent p.indentation (Text.unlines (setterLines p afterParam afterVar afterReturn)) := by
  have hmade : Signless (given p.description ("Set the value of ".toList ++ p.name.text)) :=
    hp.made (signless_of_all (by decide))
  -- Behind the tag of the parameter come its blanks, the type, more blanks and the name.
  have hbehind : Signless (afterParam ++ (typeText p ++ (afterVar ++ ("$".toList ++ p.name.text)))) :=
    hparam.append (hp.typeText.append (hvar.append ((signless_of_all (by decide)).append hp.name)))
  have hspaced : ∀ t : Text, spacedTag paramTag afterParam ++ t = paramTag.dropLast ++ (afterParam ++ t) :=
    fun t => List.append_assoc _ _ t
  have hsecond : ∀ (d l m : Text) (below : List Text),
      opening d ++ l :: " *".toList :: m :: below = (opening d ++ [l, " *".toList]) ++ m :: below :=
    fun _ _ _ _ => rfl
  have habove : ∀ l ∈ opening (given p.description ("Set the value of ".toList ++ p.name.text)) ++
      [starMargin ++ (paramTag.dropLast ++ (afterParam ++ (typeText p ++ (afterVar ++ ("$".toList ++ p.name.text))))),
        " *".toList], Text.contains returnTag l = false := by
    refine List.forall_mem_append.2 ⟨contains_opening (by decide) hmade, ?_⟩
    exact List.forall_mem_cons.2 ⟨contains_returnTag hbehind, List.forall_mem_singleton.2 (by decide)⟩
  unfold setterText
  dsimp only
  rw [fill_setter hp, replaceFirst_tag (by decide) (by decide) (contains_opening (by decide) hmade),
    List.append_assoc, List.append_assoc,
    replaceFirst_tag (by decide) (by decide) (contains_opening (by decide) hmade), hspaced, hsecond,
    replaceFirst_tag (by decide) (by decide) habove]
  simp only [setterLines, Name.method, List.append_assoc]
  rfl

end Texts

/-! ## As the settings space them -/

/-- With spaces that can be held, each accessor of a property that holds no sign of a mark
    or of a tag is its lines, each with a line feed behind it, indented. -/
theorem accessors_laidOut {s : Settings} {p : Property} (hp : Unmarked p) :
    (Spaceable s .getter → (getter s p).outcome = .ok (Template.indent p.indentation (Text.unlines (getterLines p
      (Text.spaces (s.count Settings.spacesAfterReturn)))))) ∧
    (Spaceable s .setter → (setter s p).outcome = .ok (Template.indent p.indentation (Text.unlines (setterLines p
      (Text.spaces (s.count Settings.spacesAfterParam)) (Text.spaces (s.count Settings.spacesAfterParamVar))
      (Text.spaces (s.count Settings.spacesAfterReturn)))))) := by
  constructor
  · intro hs
    rw [outcome_getter, if_pos hs, spacedGetter, getterText_eq hp]
  · intro hs
    rw [outcome_setter, if_pos hs, spacedSetter, setterText_eq hp (signless_spaces _) (signless_spaces _)]

/-- A property whose name starts with a letter from outside of ASCII. -/
def stateProperty : Property :=
  ⟨⟨'é', "tat".toList⟩, some "?int".toList, some "int|null".toList, some "Code, or none".toList, ['\t']⟩

/-- No space, a negative count, and one space. -/
def tightSettings : Settings :=
  ⟨[(Settings.spacesAfterReturn, .int 0), (Settings.spacesAfterParam, .int (-3)),
    (Settings.spacesAfterParamVar, .int 1)]⟩

theorem accessors_laidOut_sample : Unmarked stateProperty ∧ Spaceable tightSettings .getter ∧
    Spaceable tightSettings .setter ∧ (getter tightSettings stateProperty).outcome = .ok "\t/**
\t * Code, or none
\t *
\t * @returnint|null
\t */
\tpublic function getÉtat()
\t\x7b
\t    return $this->état;
\t\x7d

".toList ∧ (setter tightSettings stateProperty).outcome = .ok "\t/**
\t * Code, or none
\t *
\t * @paramint|null $état
\t *
\t * @returnself
\t */
\tpublic function setÉtat(?int $état)
\t\x7b
\t    $this->état = $état;

\t    return $this;
\t\x7d

".toList := by
  have hp : Unmarked stateProperty := by
    refine ⟨signless_of_all (by decide), ?_, ?_, ?_⟩
    all_goals
      intro t ht
      obtain rfl := Option.some.inj ht
      exact signless_of_all (by decide)
  obtain ⟨hgetter, hsetter⟩ := accessors_laidOut (s := tightSettings) hp
  have hg : Spaceable tightSettings .getter := by decide
  have hs : Spaceable tightSettings .setter := by decide
  refine ⟨hp, hg, hs, (hgetter hg).trans (congrArg Except.ok ?_), (hsetter hs).trans (congrArg Except.ok ?_)⟩
  · rw [String.toList_ofList]
    decide +kernel
  · rw [String.toList_ofList]
    decide +kernel

end Render

end Accessors
