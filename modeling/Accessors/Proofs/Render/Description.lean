/-
  Accessors.Proofs.Render.Description — where the description of a property ends up.

  The description is filled into the second line of a template before anything else, so
  what is filled in or put behind a tag later is looked for in it too. Marks and tags that
  the description holds are taken for those of the template; `Unread` says that it holds
  none. Each step then leaves it alone and does the same to all the other lines, whatever
  it says (`Copies`): filling in (`copies_fill`), the blanks behind a tag
  (`Copies.replaceFirst`), the indentation (`Copies.indent`).
  - `read_description_ne_nil`: documentation has no empty description;
  - `description_copied`: a description in which nothing is read again is the second line
    of each accessor, and no other line depends on it;
  - `description_read_again`: one that holds a mark is changed, and one that holds a tag
    takes the blanks from the tag of the template.
-/
import Accessors.Proofs.Editor.Alike
import Accessors.Proofs.Render.Block
import Accessors.Proofs.Render.Spacing

namespace Accessors

/-! ## The descriptions that there are -/

namespace DocBlock

theorem read_description_ne_nil (above : List Text) : ∀ t ∈ (read above).description, t ≠ [] := by
  refine (forall_read (fun _ _ _ _ hne => hne) (fun _ _ _ _ => Text.words_ne_nil _) fun ws hne hws => ?_).2
  obtain ⟨w, ws, rfl⟩ := List.exists_cons_of_ne_nil hne
  have hfirst : w ≠ [] := hws w List.mem_cons_self
  cases ws <;> simp [Text.joinWith, hfirst]

end DocBlock

namespace Property

/-- The property with another description. -/
def describedAs (p : Property) (d : Text) : Property := { p with description := some d }

theorem describedAs_self {p : Property} {d : Text} (h : p.description = some d) : p.describedAs d = p := by
  unfold describedAs
  rw [← h]

theorem description_ne_nil {lines : List Text} {cursor : Int} {f : Found} (h : find? lines cursor = some f) :
    ∀ d ∈ f.property.description, d ≠ [] := by
  obtain ⟨-, l, -, hl⟩ := find?_declares h
  obtain ⟨declaration, -, hp⟩ := Option.map_eq_some_iff.1 hl
  rw [← hp]
  exact DocBlock.read_description_ne_nil _

/-- A property of lines that may end in breaks says what it would without them. -/
theorem of_find?_dropBreak {P : Char → Prop} (hP : Text.Wordy P) {lines : List Text}
    (hlines : ∀ l ∈ lines, Text.Of P (Text.dropBreak l)) {cursor : Int} {f : Found}
    (h : find? lines cursor = some f) : f.property.Of P := by
  have halike : ∀ ls : List Text, AlikeLines ls (ls.map Text.dropBreak) := by
    intro ls
    induction ls with
    | nil => exact .nil
    | cons l ls ih =>
      refine .cons ⟨l.rtakeWhile (fun c => c = '\r' || c = '\n'), ?_, List.rdropWhile_append_rtakeWhile.symm⟩ ih
      intro c hc
      have hbreak := List.mem_rtakeWhile_imp hc
      simp only [Bool.or_eq_true, decide_eq_true_eq] at hbreak
      rcases hbreak with rfl | rfl <;> decide
  rw [find?_alike (halike lines)] at h
  refine of_find? hP (fun l hl => ?_) h
  obtain ⟨m, hm, rfl⟩ := List.mem_map.1 hl
  exact hlines m hm

end Property

namespace Render

open Template (mark)

/-! ## What is read again -/

/-- The marks and tags that a description of the getter can be taken for. -/
def rereadInGetter : List Text := [mark "type".toList, mark "getter_name".toList, mark "name".toList, returnTag]

def rereadInSetter : List Text :=
  [mark "setter_name".toList, mark "type_hint".toList, mark "name".toList, typedParamTag, paramTag, returnTag]

def Unread (reread : List Text) (d : Text) : Prop := ∀ part ∈ reread, Text.contains part d = false

instance (reread : List Text) (d : Text) : Decidable (Unread reread d) :=
  inferInstanceAs (Decidable (∀ part ∈ reread, Text.contains part d = false))

/-- A description of one line in which nothing is read again. -/
structure Plain (reread : List Text) (d : Text) : Prop where
  ne_nil : d ≠ []
  oneLine : '\n' ∉ d
  unread : Unread reread d

/-- The second line is the description behind the margin, and the other lines are the same
    for every description. -/
def Copies (reread : List Text) (margin : Text) (f : Text → Text) : Prop :=
  ∃ first rest, ∀ d, Plain reread d → Text.splitOn '\n' (f d) = first :: (margin ++ d) :: rest

theorem fill_eq_self {texts : List (Text × Text)} {t : Text}
    (h : ∀ e ∈ texts, Text.contains (mark e.1) t = false) : Template.fill t texts = t := by
  induction texts with
  | nil => rfl
  | cons e texts ih =>
    show Template.fill (Text.replaceAll (mark e.1) e.2 t) texts = t
    rw [Text.replaceAll_eq_self (h e (by simp)), ih fun f hf => h f (List.mem_cons_of_mem _ hf)]

/-- What a description is put behind in the templates. -/
def starMargin : Text := " * ".toList

section Copies

variable {reread : List Text} {margin : Text} {f g : Text → Text}

theorem Copies.congr (h : Copies reread margin f) (hfg : ∀ d, d ≠ [] → g d = f d) : Copies reread margin g := by
  obtain ⟨first, rest, hf⟩ := h
  exact ⟨first, rest, fun d hd => by rw [hfg d hd.ne_nil, hf d hd]⟩

theorem copies_fill {template key first : Text} {rest : List Text}
    (hcut : Text.splitOn '\n' template = first :: (starMargin ++ mark key) :: rest)
    (hother : ∀ l ∈ first :: rest, Text.contains (mark key) l = false) (hkey : '\n' ∉ key)
    {texts : List (Text × Text)} (ht : Fits (· ≠ '\n') texts) (hreread : ∀ e ∈ texts, mark e.1 ∈ reread) :
    Copies reread starMargin fun d => Template.fill template ((key, d) :: texts) := by
  refine ⟨Template.fill first texts, rest.map (Template.fill · texts), ?_⟩
  intro d hd
  have hfits : Fits (· ≠ '\n') ((key, d) :: texts) :=
    List.forall_mem_cons.2 ⟨⟨hkey, Text.of_ne_iff.2 hd.oneLine⟩, ht⟩
  have hfill : ∀ l, Template.fill l ((key, d) :: texts) = Template.fill (Text.replaceAll (mark key) d l) texts :=
    fun _ => rfl
  have hapart : ∀ {k : Text}, ∀ c ∈ (mark k).head?, c ∉ starMargin := by
    rintro k c hc
    obtain rfl : '%' = c := Option.some.inj hc
    decide
  have hsecond : Template.fill (starMargin ++ mark key) ((key, d) :: texts) = starMargin ++ d := by
    rw [hfill, Text.replaceAll_append hapart (apart_mark key).1, Text.replaceAll_self (apart_mark key).1]
    apply fill_eq_self
    intro e he
    rw [Text.contains_append hapart (apart_mark e.1).1]
    exact hd.unread _ (hreread e he)
  have hsame : ∀ l ∈ first :: rest, Template.fill l ((key, d) :: texts) = Template.fill l texts := by
    intro l hl
    rw [hfill, Text.replaceAll_eq_self (hother l hl)]
  rw [splitOn_fill (by decide) hfits, hcut, List.map_cons, List.map_cons, hsecond, hsame first (by simp),
    List.map_congr_left fun l hl => hsame l (List.mem_cons_of_mem _ hl)]

/-- The first tag that is not the description's is the same for every description. -/
theorem Copies.replaceFirst (h : Copies reread margin f) {tag : Text} (htag : tag ∈ reread) (hne : tag ≠ [])
    (hapart : ∀ c ∈ tag.head?, c ∉ margin) (hline : Text.Of (· ≠ '\n') tag) {new : Text} (hnew : Text.Of (· ≠ '\n') new) :
    Copies reread margin fun d => Text.replaceFirst tag new (f d) := by
  have hcut : ∀ t, Text.splitOn '\n' (Text.replaceFirst tag new t) =
      Text.replaceFirstIn tag new (Text.splitOn '\n' t) :=
    Text.splitOn_replaceFirst hne (Text.of_ne_iff.1 hline) (Text.of_ne_iff.1 hnew)
  obtain ⟨first, rest, hf⟩ := h
  by_cases hfirst : Text.contains tag first = true
  · refine ⟨Text.replaceFirst tag new first, rest, ?_⟩
    intro d hd
    rw [hcut, hf d hd, Text.replaceFirstIn, if_pos hfirst]
  · refine ⟨first, Text.replaceFirstIn tag new rest, ?_⟩
    intro d hd
    have hnone : ¬Text.contains tag (margin ++ d) = true := by
      rw [Text.contains_append hapart hne, hd.unread tag htag]
      decide
    rw [hcut, hf d hd, Text.replaceFirstIn, if_neg hfirst, Text.replaceFirstIn, if_neg hnone]

theorem Copies.indent (h : Copies reread margin f) {indentation : Text} (hi : '\n' ∉ indentation) :
    Copies reread (indentation ++ margin) fun d => Template.indent indentation (f d) := by
  obtain ⟨first, rest, hf⟩ := h
  refine ⟨Template.indentLine indentation first, rest.map (Template.indentLine indentation), ?_⟩
  intro d hd
  have hsecond : Template.indentLine indentation (margin ++ d) = indentation ++ margin ++ d := by
    rw [Template.indentLine_of_ne_nil indentation (by simp [hd.ne_nil]), List.append_assoc]
  rw [Template.splitOn_indent hi, hf d hd, List.map_cons, List.map_cons, hsecond]

end Copies

/-! ## In the accessors -/

theorem given_some {d : Text} (h : d ≠ []) (otherwise : Text) : given (some d) otherwise = d := by
  have hempty : (!d.isEmpty) = true := by simpa using h
  rw [given, Option.filter_some, hempty]
  rfl

/-- No tag starts in the margin. -/
theorem tag_apart {tag : Text} (h : tag.head? = some '@') : ∀ c ∈ tag.head?, c ∉ starMargin := by
  intro c hc
  obtain rfl : '@' = c := Option.some.inj (h.symm.trans hc)
  decide

/-- The description is marked on the second line of the template, and nowhere else. -/
theorem cut_getter : ∃ rest,
    Text.splitOn '\n' Template.getter = "/**".toList :: (starMargin ++ mark "description".toList) :: rest ∧
      ∀ l ∈ "/**".toList :: rest, Text.contains (mark "description".toList) l = false := by
  unfold Template.getter starMargin Template.mark
  repeat rw [String.toList_ofList]
  exact ⟨_, rfl, by decide⟩

theorem cut_setter : ∃ rest,
    Text.splitOn '\n' Template.setter = "/**".toList :: (starMargin ++ mark "description".toList) :: rest ∧
      ∀ l ∈ "/**".toList :: rest, Text.contains (mark "description".toList) l = false := by
  unfold Template.setter starMargin Template.mark
  repeat rw [String.toList_ofList]
  exact ⟨_, rfl, by decide⟩

variable {p : Property}

theorem copies_getterText (hp : p.Of (· ≠ '\n')) (n : Nat) :
    Copies rereadInGetter (p.indentation ++ starMargin) fun d => getterText (p.describedAs d) (Text.spaces n) := by
  obtain ⟨rest, hcut, hother⟩ := cut_getter
  have htexts : Fits (· ≠ '\n') (getterTexts p).tail := fun e he =>
    fits_getterTexts Text.wordy_ne_feed hp e (List.mem_of_mem_tail he)
  have hmarks : ∀ e ∈ (getterTexts p).tail, mark e.1 ∈ rereadInGetter := by simp [getterTexts, rereadInGetter]
  have hfilled : Copies rereadInGetter starMargin fun d =>
      Template.fill Template.getter (getterTexts (p.describedAs d)) := by
    refine (copies_fill hcut hother (by decide) htexts hmarks).congr ?_
    intro d hd
    have hgiven : getterTexts (p.describedAs d) = ("description".toList, d) :: (getterTexts p).tail :=
      congrArg (fun t => (_, t) :: _) (given_some hd _)
    rw [hgiven]
  have hspaced := hfilled.replaceFirst (by decide) apart_returnTag.1 (tag_apart (by decide)) oneLine_returnTag
    (of_spacedTag (by decide) oneLine_returnTag n)
  exact hspaced.indent (Text.of_ne_iff.1 hp.indentation)

theorem copies_setterText (hp : p.Of (· ≠ '\n')) (l m n : Nat) :
    Copies rereadInSetter (p.indentation ++ starMargin) fun d =>
      setterText (p.describedAs d) (Text.spaces l) (Text.spaces m) (Text.spaces n) := by
  obtain ⟨rest, hcut, hother⟩ := cut_setter
  have htexts : Fits (· ≠ '\n') (setterTexts p).tail := fun e he =>
    fits_setterTexts Text.wordy_ne_feed hp e (List.mem_of_mem_tail he)
  have hmarks : ∀ e ∈ (setterTexts p).tail, mark e.1 ∈ rereadInSetter := by simp [setterTexts, rereadInSetter]
  have hfilled : Copies rereadInSetter starMargin fun d =>
      Template.fill Template.setter (setterTexts (p.describedAs d)) := by
    refine (copies_fill hcut hother (by decide) htexts hmarks).congr ?_
    intro d hd
    have hgiven : setterTexts (p.describedAs d) = ("description".toList, d) :: (setterTexts p).tail :=
      congrArg (fun t => (_, t) :: _) (given_some hd _)
    rw [hgiven]
  have htyped := hfilled.replaceFirst (by decide) apart_typedParamTag.1 (tag_apart (by decide))
    (Text.of_ne_iff.2 (by decide)) (of_typed Text.wordy_ne_feed hp oneLine_paramTag m)
  have hparam := htyped.replaceFirst (by decide) apart_paramTag.1 (tag_apart (by decide)) oneLine_paramTag
    (of_spacedTag (by decide) oneLine_paramTag l)
  have hreturn := hparam.replaceFirst (by decide) apart_returnTag.1 (tag_apart (by decide)) oneLine_returnTag
    (of_spacedTag (by decide) oneLine_returnTag n)
  exact hreturn.indent (Text.of_ne_iff.1 hp.indentation)

/-! ## Copied, or read again -/

/-- What is rendered has the description as its second line, and with another description
    that one, and all the other lines as they are. -/
def Verbatim (render : Property → Rendering Text) (reread : List Text) (p : Property) (d : Text) : Prop :=
  ∃ t, (render p).outcome = .ok t ∧ (Text.splitOn '\n' t)[1]? = some (p.indentation ++ starMargin ++ d) ∧
    ∀ d', Plain reread d' → ∃ t', (render (p.describedAs d')).outcome = .ok t' ∧
      Text.splitOn '\n' t' = (Text.splitOn '\n' t).set 1 (p.indentation ++ starMargin ++ d')

theorem Copies.verbatim {reread : List Text} {render : Property → Rendering Text} {text : Property → Text}
    (hrender : ∀ q, (render q).outcome = .ok (text q))
    (h : Copies reread (p.indentation ++ starMargin) fun d => text (p.describedAs d)) {d : Text}
    (hp : p.description = some d) (hd : Plain reread d) : Verbatim render reread p d := by
  obtain ⟨first, rest, hcut⟩ := h
  have hself := hcut d hd
  simp only [Property.describedAs_self hp] at hself
  refine ⟨text p, hrender p, ?_, ?_⟩
  · rw [hself]
    rfl
  · intro d' hd'
    refine ⟨_, hrender _, ?_⟩
    rw [hcut d' hd', hself]
    rfl

/-- Of what is found in a document, the description is copied into an accessor, and decides
    about no other line of it, if it holds nothing that is read again. -/
theorem description_copied {s : Settings} (hs : Spaceable s .both) {lines : List Text}
    (hlines : ∀ l ∈ lines, '\n' ∉ Text.dropBreak l) {cursor : Int} {found : Property.Found}
    (hfound : Property.find? lines cursor = some found) {d : Text} (hd : found.property.description = some d) :
    (Unread rereadInGetter d → Verbatim (getter s) rereadInGetter found.property d) ∧
      (Unread rereadInSetter d → Verbatim (setter s) rereadInSetter found.property d) := by
  have hp : found.property.Of (· ≠ '\n') :=
    Property.of_find?_dropBreak Text.wordy_ne_feed (fun l hl => Text.of_ne_iff.2 (hlines l hl)) hfound
  have hplain : ∀ {reread}, Unread reread d → Plain reread d := fun hread =>
    ⟨Property.description_ne_nil hfound d hd, Text.of_ne_iff.1 (hp.description d hd), hread⟩
  obtain ⟨hgetter, hsetter⟩ : Spaceable s .getter ∧ Spaceable s .setter := List.forall_mem_append.1 hs
  constructor
  · intro hread
    have hrender : ∀ q, (getter s q).outcome = .ok (spacedGetter s q) := by
      intro q
      rw [outcome_getter, if_pos hgetter]
    exact (copies_getterText hp _).verbatim hrender hd (hplain hread)
  · intro hread
    have hrender : ∀ q, (setter s q).outcome = .ok (spacedSetter s q) := by
      intro q
      rw [outcome_setter, if_pos hsetter]
    exact (copies_setterText hp _ _ _).verbatim hrender hd (hplain hread)

/-- A property with the given words above it. -/
def described (words : Text) : List Text :=
  ["class A \x7b".toList, "    /** ".toList ++ words ++ " */".toList, "    private int $x;".toList, "\x7d".toList]

def describedProperty (words : Text) : Property :=
  ⟨⟨'x', []⟩, some "int".toList, some "int".toList, some words, Text.spaces 4⟩

theorem find?_described : ∀ words ∈ ["So far".toList, "See %type%".toList, "As of @return now".toList],
    Property.find? (described words) 2 = some ⟨2, describedProperty words⟩ := by decide +kernel

theorem description_copied_sample : Spaceable Settings.defaults .both ∧
    Property.find? (described "So far".toList) 2 = some ⟨2, describedProperty "So far".toList⟩ ∧
      Verbatim (getter Settings.defaults) rereadInGetter (describedProperty "So far".toList) "So far".toList ∧
        Verbatim (setter Settings.defaults) rereadInSetter (describedProperty "So far".toList) "So far".toList := by
  have hfind := find?_described "So far".toList (by simp)
  have hcopied := description_copied (s := Settings.defaults) (by decide) (by decide +kernel) hfind rfl
  exact ⟨by decide, hfind, hcopied.1 (by decide), hcopied.2 (by decide)⟩

/-- A mark in a description is filled in, and a tag in it is the one that the blanks are
    put behind. -/
theorem description_read_again :
    (∃ t, Property.find? (described "See %type%".toList) 2 = some ⟨2, describedProperty "See %type%".toList⟩ ∧
      (getter Settings.defaults (describedProperty "See %type%".toList)).outcome = .ok t ∧
        (Text.splitOn '\n' t)[1]? ≠ some (Text.spaces 4 ++ starMargin ++ "See %type%".toList)) ∧
    ∃ t t', Property.find? (described "So far".toList) 2 = some ⟨2, describedProperty "So far".toList⟩ ∧
      Property.find? (described "As of @return now".toList) 2 =
        some ⟨2, describedProperty "As of @return now".toList⟩ ∧
        (getter Settings.defaults (describedProperty "So far".toList)).outcome = .ok t ∧
          (getter Settings.defaults (describedProperty "As of @return now".toList)).outcome = .ok t' ∧
            (Text.splitOn '\n' t)[3]? ≠ (Text.splitOn '\n' t')[3]? := by
  have hgetter : ∀ p, (getter Settings.defaults p).outcome = .ok (spacedGetter Settings.defaults p) := by
    intro p
    rw [outcome_getter, if_pos (by decide)]
  refine ⟨⟨_, find?_described _ (by simp), hgetter _, ?_⟩,
    ⟨_, _, find?_described _ (by simp), find?_described _ (by simp), hgetter _, hgetter _, ?_⟩⟩
  · decide +kernel
  · decide +kernel

end Render

end Accessors
