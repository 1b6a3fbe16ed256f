/-
  Accessors.Proofs.Render.Block — the lines of the generated accessors.

  Every line of a template is empty or starts with one of a few heads (`heads`). No mark
  and no tag stands in a head, so that the heads stay whatever texts are filled in and
  whatever blanks are put behind the tags (`Accessor.fill`, `Accessor.replaceFirst`). With
  an indentation before it a line with a head is inert (`Headed.inert`). The texts that
  are filled in are of the characters of the property (`fits_getterTexts`,
  `fits_setterTexts`), so that they hold no break if it holds none, and the lines of the
  template stay lines:
  - `generated_getterText`, `generated_setterText`: an accessor is lines, each with a line
    feed behind it, which declare nothing; the first is not empty, and the last one is;
  - `count_getterText`, `count_setterText`: how many lines it is;
  - `getterText_ne_nil`, `setterText_ne_nil`: it is never empty, whatever the property holds.
-/
import Accessors.Proofs.Render.Indent
import Accessors.Proofs.Source.Inert
import Accessors.Proofs.Source.Unbroken
import Accessors.Render.Accessor

namespace Accessors.Render

open Text (Unbroken)

/-- What the lines of the templates start with. -/
def heads : List Text := ["/**".toList, " *".toList, "\x7b".toList, "\x7d".toList, "public function ".toList,
  "    return ".toList, "    $this->".toList]

def Headed (line : Text) : Prop := ∃ h ∈ heads, h <+: line

/-- The lines of an accessor, and the empty text behind the last line feed. -/
structure Accessor (pieces : List Text) : Prop where
  each : ∀ l ∈ pieces, (l = [] ∨ Headed l) ∧ Unbroken l
  first : ∀ l ∈ pieces.head?, l ≠ []
  last : [[], []] <:+ pieces

theorem Headed.ne_nil {l : Text} (h : Headed l) : l ≠ [] := by
  obtain ⟨head, hm, hp⟩ := h
  intro e
  rw [e, List.prefix_nil] at hp
  rw [hp] at hm
  exact absurd hm (by decide)

/-! ## Filling in -/

section Replace

variable {old new : Text}

/-- The first character of `old` is in no head. -/
def Apart (old : Text) : Prop := old ≠ [] ∧ ∀ c ∈ old.head?, ∀ h ∈ heads, c ∉ h

theorem prefix_replaceAll (ho : Apart old) {head l : Text} (hm : head ∈ heads) (h : head <+: l) :
    head <+: Text.replaceAll old new l := by
  obtain ⟨r, rfl⟩ := h
  rw [Text.replaceAll_append (fun c hc => ho.2 c hc head hm) ho.1]
  exact List.prefix_append _ _

theorem prefix_replaceFirst (ho : Apart old) {head l : Text} (hm : head ∈ heads) (h : head <+: l) :
    head <+: Text.replaceFirst old new l := by
  obtain ⟨r, rfl⟩ := h
  rw [Text.replaceFirst_append (fun c hc => ho.2 c hc head hm) ho.1]
  exact List.prefix_append _ _

theorem Headed.replaceAll (ho : Apart old) {l : Text} (h : Headed l) : Headed (Text.replaceAll old new l) := by
  obtain ⟨head, hm, hl⟩ := h
  exact ⟨head, hm, prefix_replaceAll ho hm hl⟩

theorem Headed.replaceFirst (ho : Apart old) {l : Text} (h : Headed l) : Headed (Text.replaceFirst old new l) := by
  obtain ⟨head, hm, hl⟩ := h
  exact ⟨head, hm, prefix_replaceFirst ho hm hl⟩

theorem Accessor.map {f : Text → Text} (hnil : f [] = []) (hhead : ∀ l, Headed l → Headed (f l))
    (hbreak : ∀ l, Unbroken l → Unbroken (f l)) {ps : List Text} (h : Accessor ps) : Accessor (ps.map f) := by
  refine ⟨?_, ?_, ?_⟩
  · intro l hl
    obtain ⟨m, hm, rfl⟩ := List.mem_map.1 hl
    obtain ⟨hm, hu⟩ := h.each m hm
    refine ⟨?_, hbreak m hu⟩
    rcases hm with rfl | hm
    · exact .inl hnil
    · exact .inr (hhead m hm)
  · intro l hl
    rw [List.head?_map, Option.mem_def, Option.map_eq_some_iff] at hl
    obtain ⟨m, hm, rfl⟩ := hl
    rcases (h.each m (List.mem_of_mem_head? hm)).1 with rfl | hh
    · exact absurd rfl (h.first _ hm)
    · exact (hhead m hh).ne_nil
  · have hlast := h.last.map f
    simpa [hnil] using hlast

theorem Accessor.replaceAll (ho : Apart old) (hn : Unbroken new) {ps : List Text} (h : Accessor ps) :
    Accessor (ps.map (Text.replaceAll old new)) :=
  h.map rfl (fun _ => Headed.replaceAll ho) fun _ => Text.Of.replaceAll hn

theorem replaceFirstIn_append_nil (hne : old ≠ []) (ps : List Text) :
    Text.replaceFirstIn old new (ps ++ [[], []]) = Text.replaceFirstIn old new ps ++ [[], []] := by
  induction ps with
  | nil => simp [Text.replaceFirstIn, Text.contains_nil hne]
  | cons p ps ih =>
    rw [List.cons_append, Text.replaceFirstIn, Text.replaceFirstIn, ih]
    split <;> rfl

theorem Accessor.replaceFirst (ho : Apart old) (hn : Unbroken new) {ps : List Text} (h : Accessor ps) :
    Accessor (Text.replaceFirstIn old new ps) := by
  have hpiece : ∀ p ∈ ps, p ≠ [] → Headed (Text.replaceFirst old new p) ∧ Unbroken (Text.replaceFirst old new p) := by
    intro p hp hne
    obtain ⟨hh, hu⟩ := h.each p hp
    exact ⟨(hh.resolve_left hne).replaceFirst ho, Text.Of.replaceFirst hn hu⟩
  have hself : Text.replaceFirst old new [] = [] := Text.replaceFirst_eq_self (Text.contains_nil ho.1)
  refine ⟨?_, ?_, ?_⟩
  · intro l hl
    rcases Text.mem_replaceFirstIn hl with hl | ⟨p, hp, rfl⟩
    · exact h.each l hl
    · by_cases hne : p = []
      · subst hne
        rw [hself]
        exact h.each _ hp
      · exact ⟨.inr (hpiece p hp hne).1, (hpiece p hp hne).2⟩
  · intro l hl
    cases ps with
    | nil => cases hl
    | cons p ps =>
      have hp := h.first p rfl
      rw [Text.replaceFirstIn] at hl
      split at hl
      · obtain rfl := Option.some.inj hl
        exact (hpiece p (by simp) hp).1.ne_nil
      · obtain rfl := Option.some.inj hl
        exact hp
  · obtain ⟨qs, rfl⟩ := h.last
    rw [replaceFirstIn_append_nil ho.1]
    exact List.suffix_append _ _

end Replace

theorem apart_mark (key : Text) : Apart (Template.mark key) := by
  refine ⟨by simp [Template.mark], ?_⟩
  intro c hc
  obtain rfl : '%' = c := by simpa [Template.mark] using hc
  decide

/-- What can be filled into a template, of a class of characters. -/
def Fits (P : Char → Prop) (texts : List (Text × Text)) : Prop := ∀ e ∈ texts, '\n' ∉ e.1 ∧ Text.Of P e.2

theorem splitOn_fill {P : Char → Prop} (hP : ¬P '\n') {texts : List (Text × Text)} (ht : Fits P texts) (t : Text) :
    Text.splitOn '\n' (Template.fill t texts) = (Text.splitOn '\n' t).map (Template.fill · texts) := by
  induction texts generalizing t with
  | nil => simp [Template.fill]
  | cons e texts ih =>
    obtain ⟨hkey, htext⟩ := ht e (by simp)
    have hmark : '\n' ∉ Template.mark e.1 := by simp [Template.mark, hkey]
    have hfill : ∀ u : Text, Template.fill u (e :: texts) =
        Template.fill (Text.replaceAll (Template.mark e.1) e.2 u) texts := fun _ => rfl
    simp only [hfill]
    rw [ih (fun f hf => ht f (List.mem_cons_of_mem _ hf)),
      Text.splitOn_replaceAll (apart_mark e.1).1 hmark (fun hm => hP (htext _ hm)), List.map_map]
    rfl

/-- Marks are filled in behind what holds none. -/
theorem fill_append (head : Text) (h : '%' ∉ head) (texts : List (Text × Text)) (t : Text) :
    Template.fill (head ++ t) texts = head ++ Template.fill t texts := by
  induction texts generalizing t with
  | nil => rfl
  | cons e texts ih =>
    have hapart : ∀ c ∈ (Template.mark e.1).head?, c ∉ head := by
      intro c hc
      obtain rfl : '%' = c := Option.some.inj hc
      exact h
    show Template.fill (Text.replaceAll (Template.mark e.1) e.2 (head ++ t)) texts = _
    rw [Text.replaceAll_append hapart (apart_mark e.1).1, ih]
    rfl

theorem fill_plain (l : Text) (h : '%' ∉ l) (texts : List (Text × Text)) : Template.fill l texts = l := by
  have hnil : Template.fill [] texts = [] := by
    induction texts with
    | nil => rfl
    | cons e texts ih => exact ih
  have happend := fill_append l h texts []
  rwa [List.append_nil, hnil, List.append_nil] at happend

theorem Accessor.fill {texts : List (Text × Text)} (ht : Fits (Text.isBreak · = false) texts) {ps : List Text}
    (h : Accessor ps) : Accessor (ps.map (Template.fill · texts)) := by
  induction texts generalizing ps with
  | nil => simpa [Template.fill] using h
  | cons e texts ih =>
    have hstep := ih (fun f hf => ht f (List.mem_cons_of_mem _ hf)) (h.replaceAll (apart_mark e.1) (ht e (by simp)).2)
    rw [List.map_map] at hstep
    exact hstep

/-! ## Indented -/

/-- Behind an indentation no line with a head is a declaration. -/
theorem Headed.inert {l : Text} (h : Headed l) {indentation : Text} (hi : ∀ c ∈ indentation, Text.isBlank c = true) :
    Inert (indentation ++ l) := by
  obtain ⟨head, hm, r, rfl⟩ := h
  have hblanks : ∀ n : Nat, ∀ c ∈ indentation ++ Text.spaces n, Text.isBlank c = true := by
    intro n c hc
    rcases List.mem_append.1 hc with hc | hc
    · exact hi c hc
    · rw [(List.mem_replicate.1 hc).2]
      decide
  -- A line whose first character other than blanks is none of a declaration.
  have hother : ∀ (n : Nat) (c : Char) (t : Text), Text.isBlank c = false ∧ ¬StartsDeclaration c →
      Inert (indentation ++ (Text.spaces n ++ c :: t)) := by
    intro n c t hc
    rw [← List.append_assoc]
    apply inert_of_head (hblanks n)
    intro d hd
    obtain rfl : c = d := by simpa using hd
    exact hc
  simp only [heads, List.mem_cons, List.not_mem_nil, or_false] at hm
  rcases hm with rfl | rfl | rfl | rfl | rfl | rfl | rfl
  · exact hother 0 '/' _ (by unfold StartsDeclaration; decide)
  · exact hother 1 '*' _ (by unfold StartsDeclaration; decide)
  · exact hother 0 '\x7b' _ (by unfold StartsDeclaration; decide)
  · exact hother 0 '\x7d' _ (by unfold StartsDeclaration; decide)
  · have hcut : "public function ".toList ++ r = "public".toList ++ (' ' :: "function".toList ++ ' ' :: r) := rfl
    rw [hcut]
    exact inert_modifier_statement hi (by unfold Keyword.AnyCase; decide) (Text.solid_of_all (by decide)) (by decide)
      (by decide) (by decide) (by decide)
  · have hcut : "    return ".toList ++ r = Text.spaces 4 ++ ("return".toList ++ ' ' :: r) := rfl
    rw [hcut, ← List.append_assoc]
    exact inert_statement (hblanks 4) (Text.solid_of_all (by decide)) (by decide) (by decide) (by decide) (by decide)
  · have hcut : "    $this->".toList ++ r = Text.spaces 4 ++ ("$this->".toList ++ r) := rfl
    have hname : "$this->".toList ++ Text.trimEnd r =
        '$' :: (⟨'t', "his".toList⟩ : Name).text ++ '-' :: '>' :: Text.trimEnd r := rfl
    rw [inert_iff, hcut, ← List.append_assoc, Text.trim_word (hblanks 4) (Text.solid_of_all (by decide)) (by decide),
      hname]
    refine scan?_member ⟨by decide, List.all_eq_true.1 (by decide)⟩ (by decide) (by decide) (by decide) ?_ (by decide)
    intro he
    cases he

/-- The lines of generated accessors, with a line feed behind each. -/
structure Generated (text : Text) (lines : List Text) : Prop where
  text_eq : text = Text.unlines lines
  inert : ∀ l ∈ lines, Inert l
  unbroken : ∀ l ∈ lines, Unbroken l
  first : ∀ l ∈ lines.head?, l ≠ []
  last : lines.getLast? = some []

theorem Generated.append {s t : Text} {S T : List Text} (hs : Generated s S) (ht : Generated t T) :
    Generated (s ++ t) (S ++ T) := by
  have hne : S ≠ [] := by
    intro e
    have hlast := hs.last
    rw [e] at hlast
    cases hlast
  refine ⟨?_, ?_, ?_, ?_, ?_⟩
  · rw [hs.text_eq, ht.text_eq, Text.unlines_append]
  · exact List.forall_mem_append.2 ⟨hs.inert, ht.inert⟩
  · exact List.forall_mem_append.2 ⟨hs.unbroken, ht.unbroken⟩
  · intro l hl
    rw [List.head?_append_of_ne_nil _ hne] at hl
    exact hs.first l hl
  · rw [List.getLast?_append, ht.last, Option.some_or]

theorem Generated.splitOn {t : Text} {T : List Text} (h : Generated t T) : Text.splitOn '\n' t = T ++ [[]] := by
  rw [h.text_eq, Text.splitOn_unlines fun l hl => Text.Unbroken.not_mem (h.unbroken l hl)]

theorem Generated.ne_nil {t : Text} {T : List Text} (h : Generated t T) : t ≠ [] := by
  intro ht
  have hpieces := h.splitOn
  have hlast := h.last
  rw [ht] at hpieces
  cases T with
  | nil => cases hlast
  | cons l T => simp [Text.splitOn] at hpieces

/-- The lines of an accessor, once they are indented. -/
theorem Accessor.generated {t : Text} (h : Accessor (Text.splitOn '\n' t)) {indentation : Text}
    (hb : ∀ c ∈ indentation, Text.isBlank c = true) (hu : Unbroken indentation) :
    ∃ lines, Generated (Template.indent indentation t) lines := by
  obtain ⟨ps, hps⟩ := h.last
  have hcut : Text.splitOn '\n' (Template.indent indentation t) =
      (ps ++ [[]]).map (Template.indentLine indentation) ++ [[]] := by
    rw [Template.splitOn_indent (Text.Unbroken.not_mem hu), ← hps]
    simp
  have hmem : ∀ l ∈ ps ++ [[]], (l = [] ∨ Headed l) ∧ Unbroken l := by
    intro l hl
    apply h.each
    rw [← hps]
    simpa using hl
  have hline : ∀ l ∈ (ps ++ [[]]).map (Template.indentLine indentation), Inert l ∧ Unbroken l := by
    intro l hl
    obtain ⟨m, hm, rfl⟩ := List.mem_map.1 hl
    obtain ⟨hm | hm, hmu⟩ := hmem m hm
    · subst hm
      exact ⟨inert_of_head (g := []) (by simp) (by simp), Text.of_nil⟩
    · rw [Template.indentLine_of_ne_nil indentation hm.ne_nil]
      exact ⟨hm.inert hb, Text.of_append.2 ⟨hu, hmu⟩⟩
  refine ⟨_, Text.eq_unlines hcut, fun l hl => (hline l hl).1, fun l hl => (hline l hl).2, ?_, ?_⟩
  · intro l hl
    cases ps with
    | nil =>
      have hfirst := h.first []
      rw [← hps] at hfirst
      exact absurd rfl (hfirst rfl)
    | cons p ps =>
      have hp : p ≠ [] := by
        apply h.first
        rw [← hps]
        rfl
      obtain rfl := Option.some.inj hl
      rw [Template.indentLine_of_ne_nil indentation hp]
      simp [hp]
  · simp

/-! ## Getters and setters -/

section Texts

variable {P : Char → Prop} {p : Property}

theorem of_spaces (hspace : P ' ') (n : Nat) : Text.Of P (Text.spaces n) := by
  intro c hc
  rw [(List.mem_replicate.1 hc).2]
  exact hspace

theorem of_spacedTag (hspace : P ' ') {tag : Text} (ht : Text.Of P tag) (n : Nat) :
    Text.Of P (spacedTag tag (Text.spaces n)) :=
  Text.of_append.2 ⟨ht.sublist (List.dropLast_sublist _), of_spaces hspace n⟩

theorem of_given {t : Option Text} (ht : ∀ u ∈ t, Text.Of P u) {otherwise : Text} (ho : Text.Of P otherwise) :
    Text.Of P (given t otherwise) := by
  unfold given
  cases hf : t.filter fun t => !t.isEmpty with
  | none => exact ho
  | some u => exact ht u (Option.filter_eq_some_iff.1 hf).1

/-- The capital of a letter of ASCII is one of ASCII. -/
theorem of_upperOf (hP : Text.Wordy P) {c : Char} (h : isNameStart c = true) : Text.Of P (Text.upperOf c) := by
  have hascii : ∀ n < 128, isNameStart (Char.ofNat n) = true → isNameChar (Char.ofNat n).toUpper = true := by
    decide +kernel
  have hlt : c.toNat < 128 := by
    rw [Grammar.isNameStart_iff] at h
    omega
  have hc := hascii c.toNat hlt
  rw [Char.ofNat_toNat] at hc
  rw [Text.upperOf_ascii hlt]
  intro d hd
  obtain rfl := List.mem_singleton.1 hd
  exact hP.name _ (hc h)

theorem of_name (hP : Text.Wordy P) {n : Name} (hn : Grammar.IsName n) : Text.Of P n.text := by
  refine Text.of_cons.2 ⟨hP.name _ ?_, fun c hc => hP.name c (hn.2 c hc)⟩
  rw [Grammar.isNameChar_iff]
  exact .inl hn.1

theorem of_method (hP : Text.Wordy P) {n : Name} (hn : Grammar.IsName n) {head : Text} (hh : Text.Of P head) :
    Text.Of P (n.method head) := by
  refine Text.of_append.2 ⟨Text.of_append.2 ⟨hh, of_upperOf hP hn.1⟩, ?_⟩
  exact (Text.of_cons.1 (of_name hP hn)).2

theorem of_typeText (hP : Text.Wordy P) (hp : p.Of P) : Text.Of P (typeText p) :=
  of_given hp.type (hP.of_all (by decide))

/-- The tag with the type, and blanks behind them. -/
theorem of_typed (hP : Text.Wordy P) (hp : p.Of P) (ht : Text.Of P paramTag) (n : Nat) :
    Text.Of P (paramTag ++ typeText p ++ Text.spaces n) :=
  Text.of_append.2 ⟨Text.of_append.2 ⟨ht, of_typeText hP hp⟩, of_spaces hP.space n⟩

theorem of_hintText (hP : Text.Wordy P) (hp : p.Of P) : Text.Of P (hintText p) := by
  unfold hintText
  split
  · rename_i h hf
    exact Text.of_append.2 ⟨hp.hint h (Option.filter_eq_some_iff.1 hf).1, hP.of_all (by decide)⟩
  · exact Text.of_nil

theorem fits_getterTexts (hP : Text.Wordy P) (hp : p.Of P) : Fits P (getterTexts p) := by
  have hdescription : Text.Of P ("Get the value of ".toList ++ p.name.text) :=
    Text.of_append.2 ⟨hP.of_all (by decide), hp.name⟩
  intro e he
  simp only [getterTexts, List.mem_cons, List.not_mem_nil, or_false] at he
  rcases he with rfl | rfl | rfl | rfl
  · exact ⟨show '\n' ∉ "description".toList by decide, of_given hp.description hdescription⟩
  · exact ⟨show '\n' ∉ "type".toList by decide, of_typeText hP hp⟩
  · exact ⟨show '\n' ∉ "getter_name".toList by decide, of_method hP hp.isName (hP.of_all (by decide))⟩
  · exact ⟨show '\n' ∉ "name".toList by decide, hp.name⟩

theorem fits_setterTexts (hP : Text.Wordy P) (hp : p.Of P) : Fits P (setterTexts p) := by
  have hdescription : Text.Of P ("Set the value of ".toList ++ p.name.text) :=
    Text.of_append.2 ⟨hP.of_all (by decide), hp.name⟩
  intro e he
  simp only [setterTexts, List.mem_cons, List.not_mem_nil, or_false] at he
  rcases he with rfl | rfl | rfl | rfl
  · exact ⟨show '\n' ∉ "description".toList by decide, of_given hp.description hdescription⟩
  · exact ⟨show '\n' ∉ "setter_name".toList by decide, of_method hP hp.isName (hP.of_all (by decide))⟩
  · exact ⟨show '\n' ∉ "type_hint".toList by decide, of_hintText hP hp⟩
  · exact ⟨show '\n' ∉ "name".toList by decide, hp.name⟩

/-- A tag that is replaced in a text with the lines of an accessor. -/
theorem Accessor.replaceTag {tag new t : Text} (ht : Apart tag) (hn : '\n' ∉ tag) (hu : Unbroken new)
    (h : Accessor (Text.splitOn '\n' t)) : Accessor (Text.splitOn '\n' (Text.replaceFirst tag new t)) := by
  rw [Text.splitOn_replaceFirst ht.1 hn (Text.Unbroken.not_mem hu)]
  exact h.replaceFirst ht hu

theorem accessor_fill {template : Text} (h : Accessor (Text.splitOn '\n' template)) {texts : List (Text × Text)}
    (ht : Fits (Text.isBreak · = false) texts) : Accessor (Text.splitOn '\n' (Template.fill template texts)) := by
  rw [splitOn_fill (by decide) ht]
  exact h.fill ht

theorem accessor_getter : Accessor (Text.splitOn '\n' Template.getter) := by
  unfold Template.getter
  rw [String.toList_ofList]
  refine ⟨?_, by decide, by decide⟩
  intro l hl
  refine ⟨?_, Text.unbroken_of_all ?_⟩
  · revert l
    unfold Headed heads
    repeat rw [String.toList_ofList]
    decide
  · revert l
    decide

theorem accessor_setter : Accessor (Text.splitOn '\n' Template.setter) := by
  unfold Template.setter
  rw [String.toList_ofList]
  refine ⟨?_, by decide, by decide⟩
  intro l hl
  refine ⟨?_, Text.unbroken_of_all ?_⟩
  · revert l
    unfold Headed heads
    repeat rw [String.toList_ofList]
    decide
  · revert l
    decide

/-- No head has an at sign, which every tag starts with. -/
theorem apart_tag {tag : Text} (h : tag.head? = some '@') : Apart tag := by
  refine ⟨?_, ?_⟩
  · intro e
    rw [e] at h
    cases h
  · intro c hc
    obtain rfl : '@' = c := Option.some.inj (h.symm.trans hc)
    decide

theorem contains_tag {tag : Text} (htag : tag.head? = some '@') {l : Text} (h : '@' ∉ l) : Text.contains tag l = false := by
  rw [← Bool.not_eq_true, Text.contains_iff]
  exact fun hin => h (hin.subset (List.mem_of_mem_head? htag))

theorem apart_returnTag : Apart returnTag := apart_tag (by decide)

theorem apart_paramTag : Apart paramTag := apart_tag (by decide)

theorem apart_typedParamTag : Apart typedParamTag := apart_tag (by decide)

theorem unbroken_returnTag : Unbroken returnTag := Text.unbroken_of_all (by decide)

theorem unbroken_paramTag : Unbroken paramTag := Text.unbroken_of_all (by decide)

theorem generated_getterText (hp : p.Unbroken) (n : Nat) :
    ∃ lines, Generated (getterText p (Text.spaces n)) lines := by
  have hfilled := accessor_fill accessor_getter (fits_getterTexts Text.wordy_unbroken hp)
  have hspaced := hfilled.replaceTag apart_returnTag (by decide) (of_spacedTag (by decide) unbroken_returnTag n)
  exact hspaced.generated hp.indentationBlank hp.indentation

theorem generated_setterText (hp : p.Unbroken) (l m n : Nat) :
    ∃ lines, Generated (setterText p (Text.spaces l) (Text.spaces m) (Text.spaces n)) lines := by
  have hfilled := accessor_fill accessor_setter (fits_setterTexts Text.wordy_unbroken hp)
  have htyped := hfilled.replaceTag apart_typedParamTag (by decide) (of_typed Text.wordy_unbroken hp unbroken_paramTag m)
  have hspaced := htyped.replaceTag apart_paramTag (by decide) (of_spacedTag (by decide) unbroken_paramTag l)
  have hreturn := hspaced.replaceTag apart_returnTag (by decide) (of_spacedTag (by decide) unbroken_returnTag n)
  exact hreturn.generated hp.indentationBlank hp.indentation

/-! ## How many lines -/

theorem oneLine_returnTag : Text.Of (· ≠ '\n') returnTag := Text.of_ne_iff.2 (by decide)

theorem oneLine_paramTag : Text.Of (· ≠ '\n') paramTag := Text.of_ne_iff.2 (by decide)

theorem count_eq {t : Text} {n : Nat} (h : (Text.splitOn '\n' t).length = n + 1) : t.count '\n' = n :=
  Nat.add_right_cancel ((Text.length_splitOn '\n' t).symm.trans h)

section Count

variable {t : Text} {n : Nat}

theorem count_fill {texts : List (Text × Text)} (ht : Fits (· ≠ '\n') texts) (h : t.count '\n' = n) :
    (Template.fill t texts).count '\n' = n := by
  apply count_eq
  rw [splitOn_fill (by decide) ht, List.length_map, Text.length_splitOn, h]

theorem count_replaceFirst {tag new : Text} (hne : tag ≠ []) (ht : Text.Of (· ≠ '\n') tag)
    (hn : Text.Of (· ≠ '\n') new) (h : t.count '\n' = n) : (Text.replaceFirst tag new t).count '\n' = n := by
  apply count_eq
  rw [Text.splitOn_replaceFirst hne (Text.of_ne_iff.1 ht) (Text.of_ne_iff.1 hn), Text.length_replaceFirstIn,
    Text.length_splitOn, h]

end Count

theorem count_getterText (hp : p.Of (· ≠ '\n')) (n : Nat) : (getterText p (Text.spaces n)).count '\n' = 10 := by
  have hfilled := count_fill (fits_getterTexts Text.wordy_ne_feed hp) (t := Template.getter) (n := 10) (by
    unfold Template.getter
    rw [String.toList_ofList]
    decide)
  have hspaced := count_replaceFirst apart_returnTag.1 oneLine_returnTag
    (of_spacedTag (by decide) oneLine_returnTag n) hfilled
  exact (Template.count_indent (Text.of_ne_iff.1 hp.indentation) _).trans hspaced

theorem count_setterText (hp : p.Of (· ≠ '\n')) (l m n : Nat) :
    (setterText p (Text.spaces l) (Text.spaces m) (Text.spaces n)).count '\n' = 14 := by
  have hfilled := count_fill (fits_setterTexts Text.wordy_ne_feed hp) (t := Template.setter) (n := 14) (by
    unfold Template.setter
    rw [String.toList_ofList]
    decide)
  have htyped := count_replaceFirst apart_typedParamTag.1 (Text.of_ne_iff.2 (by decide))
    (of_typed Text.wordy_ne_feed hp oneLine_paramTag m) hfilled
  have hparam := count_replaceFirst apart_paramTag.1 oneLine_paramTag (of_spacedTag (by decide) oneLine_paramTag l) htyped
  have hreturn := count_replaceFirst apart_returnTag.1 oneLine_returnTag
    (of_spacedTag (by decide) oneLine_returnTag n) hparam
  exact (Template.count_indent (Text.of_ne_iff.1 hp.indentation) _).trans hreturn

end Texts

/-! ## Never empty -/

theorem sublist_joinWith (sep : Text) {f : Text → Text} (hf : ∀ t : Text, t.Sublist (f t)) (ps : List Text) :
    (Text.joinWith sep ps).Sublist (Text.joinWith sep (ps.map f)) := by
  induction ps with
  | nil => exact List.Sublist.refl _
  | cons p ps ih =>
    cases ps with
    | nil => exact hf p
    | cons q ps => exact ((hf p).append (List.Sublist.refl sep)).append ih

/-- An indented text still has all its characters. -/
theorem sublist_indent (indentation t : Text) : t.Sublist (Template.indent indentation t) := by
  have hline : ∀ l : Text, l.Sublist (Template.indentLine indentation l) := by
    intro l
    by_cases hl : l = []
    · rw [hl, Template.indentLine_nil]
    · rw [Template.indentLine_of_ne_nil indentation hl]
      exact List.sublist_append_right _ _
  have hjoin := sublist_joinWith ['\n'] hline (Text.splitOn '\n' t)
  rwa [Text.joinWith_splitOn] at hjoin

/-- The head of a whole template stays, whatever is filled in. -/
theorem Headed.fill {t : Text} (h : Headed t) (texts : List (Text × Text)) : Headed (Template.fill t texts) := by
  induction texts generalizing t with
  | nil => exact h
  | cons e texts ih => exact ih (h.replaceAll (apart_mark e.1))

theorem Headed.indent_ne_nil {t : Text} (h : Headed t) (indentation : Text) : Template.indent indentation t ≠ [] := by
  intro hnil
  have hsub := sublist_indent indentation t
  rw [hnil, List.sublist_nil] at hsub
  exact h.ne_nil hsub

theorem headed_getter : Headed Template.getter := by
  refine ⟨"/**".toList, by decide, ?_⟩
  unfold Template.getter
  repeat rw [String.toList_ofList]
  decide

theorem headed_setter : Headed Template.setter := by
  refine ⟨"/**".toList, by decide, ?_⟩
  unfold Template.setter
  repeat rw [String.toList_ofList]
  decide

theorem getterText_ne_nil (p : Property) (blanks : Text) : getterText p blanks ≠ [] :=
  ((headed_getter.fill (getterTexts p)).replaceFirst apart_returnTag).indent_ne_nil p.indentation

theorem setterText_ne_nil (p : Property) (afterParam afterVar afterReturn : Text) :
    setterText p afterParam afterVar afterReturn ≠ [] :=
  ((((headed_setter.fill (setterTexts p)).replaceFirst apart_typedParamTag).replaceFirst
    apart_paramTag).replaceFirst apart_returnTag).indent_ne_nil p.indentation

end Accessors.Render
