/-
  Accessors.Proofs.Render.Methods — the methods that rendered accessors define.

  A line starts a method if it says so behind its indentation (`method?`). Of a template
  one line does, and the others have heads of another kind (`Quiet`). No mark and no tag
  stands in a head or in the name of a method, so that whatever is filled in the same
  lines go on to start a method and the others to start none (`Defining`).
  - `Defining.methods`: what such lines define, once they are indented;
  - `methods_append`: a text of whole lines, and one behind it, define what each defines;
  - `methods_text`: the accessors of a property define the getter, the setter, or both
    (`methodNames`), each once.
-/
import Accessors.Proofs.Render.Marks
import Accessors.Proofs.Render.Spacing

namespace Accessors.Render

open Template (mark)
open Text (Unbroken)

def methodHead : Text := "public function ".toList

/-- The name of the method that a line starts, if it starts one. -/
def method? (line : Text) : Option Text :=
  (Text.after? methodHead (Text.trimStart line)).map fun r => r.takeWhile (· ≠ '(')

/-- The names of the methods of a text, in the order of its lines. -/
def methods (t : Text) : List Text := (Text.splitOn '\n' t).filterMap method?

/-- What the names of the accessors start with. -/
def prefixes : AccessorKind → List Text
  | .getter => ["get".toList]
  | .setter => ["set".toList]
  | .both => ["get".toList, "set".toList]

def methodNames (n : Name) (kind : AccessorKind) : List Text := (prefixes kind).map n.method

/-! ## Lines that define -/

/-- A line that starts no method: an empty one, or one with another head. -/
def Quiet (line : Text) : Prop := line = [] ∨ ∃ h ∈ heads, h ≠ methodHead ∧ h <+: line

instance (line : Text) : Decidable (Quiet line) :=
  inferInstanceAs (Decidable (line = [] ∨ ∃ h ∈ heads, h ≠ methodHead ∧ h <+: line))

/-- Lines, and the names of the methods that they start. -/
inductive Defining : List Text → List Text → Prop
  | nil : Defining [] []
  | quiet {l : Text} {ls ms : List Text} : Quiet l → Defining ls ms → Defining (l :: ls) ms
  | method {m r : Text} {ls ms : List Text} : Text.Of (fun c => c ≠ '(' ∧ c ≠ '%' ∧ c ≠ '@') m →
      Defining ls ms → Defining ((methodHead ++ m ++ '(' :: r) :: ls) (m :: ms)

theorem Defining.append_quiet {ls ms above : List Text} (h : Defining ls ms) (habove : ∀ l ∈ above, Quiet l) :
    Defining (above ++ ls) ms := by
  induction above with
  | nil => exact h
  | cons l above ih =>
    obtain ⟨hl, habove⟩ := List.forall_mem_cons.1 habove
    exact .quiet hl (ih habove)

theorem defining_quiet {ls : List Text} (h : ∀ l ∈ ls, Quiet l) : Defining ls [] := by
  have hall := Defining.nil.append_quiet h
  rwa [List.append_nil] at hall

section Replace

variable {old new l : Text}

theorem Quiet.replaceAll (ho : Apart old) (h : Quiet l) : Quiet (Text.replaceAll old new l) := by
  rcases h with rfl | ⟨head, hm, hne, hl⟩
  · exact .inl rfl
  · exact .inr ⟨head, hm, hne, prefix_replaceAll ho hm hl⟩

theorem Quiet.replaceFirst (ho : Apart old) (h : Quiet l) : Quiet (Text.replaceFirst old new l) := by
  rcases h with rfl | ⟨head, hm, hne, hl⟩
  · rw [Text.replaceFirst_eq_self (Text.contains_nil ho.1)]
    exact .inl rfl
  · exact .inr ⟨head, hm, hne, prefix_replaceFirst ho hm hl⟩

theorem Quiet.fill (h : Quiet l) (texts : List (Text × Text)) : Quiet (Template.fill l texts) := by
  induction texts generalizing l with
  | nil => exact h
  | cons e texts ih => exact ih (h.replaceAll (apart_mark e.1))

theorem Defining.replaceFirstIn (htag : old.head? = some '@') {ls ms : List Text} (h : Defining ls ms) :
    Defining (Text.replaceFirstIn old new ls) ms := by
  have hapart := apart_tag htag
  induction h with
  | nil => exact .nil
  | quiet hl hls ih =>
    rw [Text.replaceFirstIn]
    split
    · exact .quiet (hl.replaceFirst hapart) hls
    · exact .quiet hl ih
  | @method m r ls ms hm hls ih =>
    rw [Text.replaceFirstIn]
    split
    · have hstart : ∀ c ∈ old.head?, c ∉ methodHead ++ m ++ ['('] := by
        intro c hc
        obtain rfl := Option.some.inj (htag.symm.trans hc)
        rw [List.mem_append, List.mem_append, not_or, not_or]
        exact ⟨⟨by decide, fun hat => (hm _ hat).2.2 rfl⟩, by decide⟩
      have hline : ∀ u : Text, methodHead ++ m ++ ['('] ++ u = methodHead ++ m ++ '(' :: u := fun u => by
        rw [List.append_assoc, List.singleton_append]
      rw [← hline, Text.replaceFirst_append hstart hapart.1, hline]
      exact .method hm hls
    · exact .method hm ih

end Replace

/-! ## Indented -/

section Indented

variable {indentation : Text}

theorem method?_quiet (hi : ∀ c ∈ indentation, Text.isBlank c = true) {l : Text} (h : Quiet l) :
    method? (Template.indentLine indentation l) = none := by
  rcases h with rfl | ⟨head, hm, hne, r, rfl⟩
  · rfl
  -- Each of the other heads has a first character that a method does not start with.
  have hother : ∀ head ∈ heads, head ≠ methodHead →
      (Text.trimStart head).isEmpty = false ∧ (Text.trimStart head).head? ≠ some 'p' := by decide
  obtain ⟨hsome, hp⟩ := hother head hm hne
  have hline : head ++ r ≠ [] := by
    cases head with
    | nil => cases hsome
    | cons c head => exact List.cons_ne_nil _ _
  rw [Template.indentLine_of_ne_nil indentation hline, method?, Text.trimStart_append hi]
  have hstart : Text.trimStart (head ++ r) = Text.trimStart head ++ r := by
    unfold Text.trimStart at hsome ⊢
    rw [List.dropWhile_append, if_neg (by rw [hsome]; exact Bool.false_ne_true)]
  rw [hstart]
  cases hhead : Text.trimStart head with
  | nil =>
    rw [hhead] at hsome
    cases hsome
  | cons c t =>
    rw [hhead, List.head?_cons, ne_eq, Option.some_inj] at hp
    have hstarts : Text.startsWith methodHead (c :: t ++ r) = false := by
      rw [← Bool.not_eq_true, Text.startsWith_iff]
      intro hpre
      exact hp (List.cons_prefix_cons.1 hpre).1.symm
    rw [Text.after?, hstarts]
    rfl

theorem method?_method (hi : ∀ c ∈ indentation, Text.isBlank c = true) {m : Text} (hm : '(' ∉ m) (r : Text) :
    method? (Template.indentLine indentation (methodHead ++ m ++ '(' :: r)) = some m := by
  have hline : methodHead ++ m ++ '(' :: r ≠ [] := by simp
  have hstart : Text.trimStart (methodHead ++ (m ++ '(' :: r)) = methodHead ++ (m ++ '(' :: r) :=
    Text.Flush.trimStart (Text.flush_cons.2 (by decide))
  have hstarts : Text.startsWith methodHead (methodHead ++ (m ++ '(' :: r)) = true :=
    Text.startsWith_iff.2 (List.prefix_append _ _)
  have hname : ∀ c ∈ m, decide (c ≠ '(') = true := fun c hc => decide_eq_true fun e => hm (e ▸ hc)
  rw [Template.indentLine_of_ne_nil indentation hline, method?, Text.trimStart_append hi, List.append_assoc, hstart,
    Text.after?, if_pos hstarts, List.drop_left, Option.map_some, List.takeWhile_append_of_pos hname,
    List.takeWhile_cons_of_neg (by decide), List.append_nil]

theorem Defining.methods (hi : ∀ c ∈ indentation, Text.isBlank c = true) {ls ms : List Text} (h : Defining ls ms) :
    (ls.map (Template.indentLine indentation)).filterMap method? = ms := by
  induction h with
  | nil => rfl
  | quiet hl _ ih => rw [List.map_cons, List.filterMap_cons_none (method?_quiet hi hl), ih]
  | method hm _ ih =>
    rw [List.map_cons, List.filterMap_cons_some (method?_method hi (fun hc => (hm _ hc).1 rfl) _), ih]

end Indented

/-- A text of whole lines defines what it does, whatever follows it. -/
theorem methods_append {s t : Text} {S : List Text} (hs : Generated s S) :
    methods (s ++ t) = methods s ++ methods t := by
  have hlines : ∀ {S : List Text}, (∀ l ∈ S, Unbroken l) →
      Text.splitOn '\n' (Text.unlines S ++ t) = S ++ Text.splitOn '\n' t := by
    intro S hS
    induction S with
    | nil => rfl
    | cons l S ih =>
      obtain ⟨hl, hS⟩ := List.forall_mem_cons.1 hS
      rw [Text.unlines_cons, List.append_assoc, List.cons_append, Text.splitOn_append_sep hl.not_mem, ih hS]
      rfl
  unfold methods
  rw [hs.splitOn, hs.text_eq, hlines hs.unbroken, List.filterMap_append, List.filterMap_append]
  show _ = S.filterMap method? ++ [] ++ _
  rw [List.append_nil]

/-! ## Getters and setters -/

section Accessors

variable {p : Property}

theorem of_accessor (hp : p.Unbroken) {head : Text} (hh : (head.all fun c => isNameChar c || c = ' ') = true) :
    Text.Of (fun c => c ≠ '(' ∧ c ≠ '%' ∧ c ≠ '@') (p.name.method head) := by
  have hwordy : Text.Wordy fun c => c ≠ '(' ∧ c ≠ '%' ∧ c ≠ '@' := by
    refine ⟨by decide, ?_⟩
    intro c hc
    refine ⟨?_, ?_, ?_⟩ <;> rintro rfl <;> exact absurd hc (by decide)
  exact of_method hwordy hp.isName (hwordy.of_all hh)

/-- A line of a template that starts a method is filled with its name. -/
theorem defining_fill {ls above below : List Text} {texts : List (Text × Text)} {key m r : Text}
    (hls : ls = above ++ (methodHead ++ (mark key ++ '(' :: r)) :: below) (hquiet : ∀ l ∈ above ++ below, Quiet l)
    (htexts : Keyed texts) (hkey : IsKey key) (hlookup : texts.lookup key = some m)
    (hm : Text.Of (fun c => c ≠ '(' ∧ c ≠ '%' ∧ c ≠ '@') m) :
    Defining (ls.map (Template.fill · texts)) [m] := by
  have hfilled : ∀ part : List Text, (∀ l ∈ part, Quiet l) → ∀ l ∈ part.map (Template.fill · texts), Quiet l := by
    intro part hpart l hl
    obtain ⟨u, hu, rfl⟩ := List.mem_map.1 hl
    exact (hpart u hu).fill _
  obtain ⟨habove, hbelow⟩ := List.forall_mem_append.1 hquiet
  have hsign : '%' ∉ m := fun hc => (hm _ hc).2.1 rfl
  have hends : EndsMark ('(' :: r) := by
    intro c hc
    obtain rfl := Option.some.inj hc
    decide
  have hline : Template.fill (methodHead ++ (mark key ++ '(' :: r)) texts =
      methodHead ++ m ++ '(' :: Template.fill r texts := by
    rw [fill_append methodHead (by decide), fill_mark htexts hkey hlookup hsign hends, ← List.singleton_append,
      fill_append ['('] (by decide), List.append_assoc]
    rfl
  rw [hls, List.map_append, List.map_cons, hline]
  exact (Defining.method hm (defining_quiet (hfilled below hbelow))).append_quiet (hfilled above habove)

theorem lines_getterMethod : ∃ above below, Text.splitOn '\n' Template.getter =
    above ++ (methodHead ++ (mark "getter_name".toList ++ '(' :: ")".toList)) :: below ∧
      ∀ l ∈ above ++ below, Quiet l := by
  unfold Template.getter methodHead Template.mark Quiet heads
  repeat rw [String.toList_ofList]
  refine ⟨[_, _, _, _, _], [_, _, _, _, _], rfl, ?_⟩
  decide

theorem lines_setterMethod : ∃ above below, Text.splitOn '\n' Template.setter =
    above ++ (methodHead ++ (mark "setter_name".toList ++ '(' :: "%type_hint%$%name%)".toList)) :: below ∧
      ∀ l ∈ above ++ below, Quiet l := by
  unfold Template.setter methodHead Template.mark Quiet heads
  repeat rw [String.toList_ofList]
  refine ⟨[_, _, _, _, _, _, _], [_, _, _, _, _, _, _], rfl, ?_⟩
  decide

/-- An indented accessor defines what its lines do. -/
theorem methods_indent {indentation t : Text} (hblank : ∀ c ∈ indentation, Text.isBlank c = true)
    (hi : Unbroken indentation) {ms : List Text} (h : Defining (Text.splitOn '\n' t) ms) :
    methods (Template.indent indentation t) = ms := by
  unfold methods
  rw [Template.splitOn_indent hi.not_mem, h.methods hblank]

/-- A tag of the comment is not in the way of what the lines define. -/
theorem Defining.replaceTag {new t : Text} (tag : Text) (htag : tag.head? = some '@') (hline : '\n' ∉ tag)
    (hnew : '\n' ∉ new) {ms : List Text} (h : Defining (Text.splitOn '\n' t) ms) :
    Defining (Text.splitOn '\n' (Text.replaceFirst tag new t)) ms := by
  rw [Text.splitOn_replaceFirst (apart_tag htag).1 hline hnew]
  exact h.replaceFirstIn htag

theorem methods_getterText (hp : p.Unbroken) (n : Nat) :
    methods (getterText p (Text.spaces n)) = [p.name.method "get".toList] := by
  obtain ⟨above, below, hlines, hquiet⟩ := lines_getterMethod
  have hfilled : Defining (Text.splitOn '\n' (Template.fill Template.getter (getterTexts p)))
      [p.name.method "get".toList] := by
    rw [splitOn_fill (by decide) (fits_getterTexts Text.wordy_unbroken hp)]
    exact defining_fill hlines hquiet (keyed_getterTexts p) (by decide) rfl (of_accessor hp (by decide))
  have hspaced := hfilled.replaceTag returnTag (by decide) (by decide)
    (Unbroken.not_mem (of_spacedTag (by decide) unbroken_returnTag n))
  exact methods_indent hp.indentationBlank hp.indentation hspaced

theorem methods_setterText (hp : p.Unbroken) (l m n : Nat) :
    methods (setterText p (Text.spaces l) (Text.spaces m) (Text.spaces n)) = [p.name.method "set".toList] := by
  obtain ⟨above, below, hlines, hquiet⟩ := lines_setterMethod
  have hfilled : Defining (Text.splitOn '\n' (Template.fill Template.setter (setterTexts p)))
      [p.name.method "set".toList] := by
    rw [splitOn_fill (by decide) (fits_setterTexts Text.wordy_unbroken hp)]
    exact defining_fill hlines hquiet (keyed_setterTexts p) (by decide) rfl (of_accessor hp (by decide))
  have htyped := hfilled.replaceTag typedParamTag (by decide) (by decide)
    (Unbroken.not_mem (of_typed Text.wordy_unbroken hp unbroken_paramTag m))
  have hparam := htyped.replaceTag paramTag (by decide) (by decide)
    (Unbroken.not_mem (of_spacedTag (by decide) unbroken_paramTag l))
  have hspaced := hparam.replaceTag returnTag (by decide) (by decide)
    (Unbroken.not_mem (of_spacedTag (by decide) unbroken_returnTag n))
  exact methods_indent hp.indentationBlank hp.indentation hspaced

/-- The accessors of a property define each its method. -/
theorem methods_text (s : Settings) (hp : p.Unbroken) (kind : AccessorKind) :
    methods (text s p kind) = methodNames p.name kind := by
  have hgetter : methods (spacedGetter s p) = [p.name.method "get".toList] := methods_getterText hp _
  have hsetter : methods (spacedSetter s p) = [p.name.method "set".toList] := methods_setterText hp _ _ _
  cases kind with
  | getter => exact hgetter
  | setter => exact hsetter
  | both =>
    obtain ⟨T, hT⟩ := generated_getterText hp (s.count Settings.spacesAfterReturn)
    show methods (spacedGetter s p ++ spacedSetter s p) = _
    rw [spacedGetter, methods_append hT, ← spacedGetter, hgetter, hsetter]
    rfl

end Accessors

end Accessors.Render
