/-
  Accessors.Proofs.Render.Wordless — what a comment without words documents.

  A comment without words is made of slashes, asterisks and blanks (`Wordless`). It gives
  no type. Of each of its lines an opener is left out, a closer, and one asterisk, and if
  nothing but blanks is left the line is `Hollow` (`content_eq_nil_iff`). One that is not,
  such as a line of asterisks, or an opener and a closer that share one, leaves some of
  its slashes and asterisks as the description.
  - `read_wordless`: a comment without words documents nothing if and only if each of its
    lines is hollow; then the accessors describe the property by its name;
  - `read_shared`: the shortest comment, in which the opener shares its asterisk, has a
    slash as its description.
-/
import Accessors.Proofs.Render.Layout
import Accessors.Proofs.Source.Comment
import Accessors.Proofs.Source.Unclosed
import Accessors.Proofs.Source.Provenance
import Mathlib.Data.List.Find

namespace Accessors

namespace DocBlock

/-- A slash, an asterisk or a blank. -/
def IsRule (c : Char) : Prop := c = '/' ∨ c = '*' ∨ Text.isBlank c = true

instance (c : Char) : Decidable (IsRule c) := inferInstanceAs (Decidable (_ ∨ _))

theorem IsRule.signless {c : Char} (h : IsRule c) : c ≠ '%' ∧ c ≠ '@' := by
  constructor <;> rintro rfl <;> exact absurd h (by decide)

def Wordless (line : Text) : Prop := Text.Of IsRule line

instance (line : Text) : Decidable (Wordless line) := inferInstanceAs (Decidable (Text.Of IsRule line))

/-- An opener or none, then one asterisk or none with blanks around it, then a closer or
    none. -/
inductive Hollow : Text → Prop
  | mk (opened closed : Bool) {m : Text} : Text.trim m = [] ∨ Text.trim m = ['*'] →
      Hollow ((if opened then opener else []) ++ m ++ if closed then closer else [])

/-- The line `k` opens a comment, and neither it nor the lines below it, above the line
    `n`, hold a word. -/
structure Ruled (lines : List Text) (k n : Nat) : Prop where
  above : k < n
  opens : ∃ l ∈ lines[k]?, Text.startsWith "/*".toList (Text.trim l) = true
  wordless : ∀ l ∈ between lines k n, Wordless l

/-! ## Hollow lines -/

theorem exists_dropStart (head t : Text) : ∃ b : Bool, t = (if b then head else []) ++ dropStart head t := by
  unfold dropStart Text.after?
  by_cases h : Text.startsWith head t = true
  · obtain ⟨u, rfl⟩ := Text.startsWith_iff.1 h
    rw [if_pos h, Option.getD_some, List.drop_left]
    exact ⟨true, rfl⟩
  · rw [if_neg h]
    exact ⟨false, rfl⟩

theorem exists_dropEnd (tail t : Text) : ∃ b : Bool, t = dropEnd tail t ++ if b then tail else [] := by
  unfold dropEnd
  by_cases h : Text.endsWith tail t = true
  · obtain ⟨u, rfl⟩ := List.isSuffixOf_iff_suffix.1 h
    rw [if_pos h, List.length_append, Nat.add_sub_cancel, List.take_left]
    exact ⟨true, rfl⟩
  · rw [if_neg h]
    exact ⟨false, (List.append_nil t).symm⟩

/-- What is left of a line once it is trimmed does not end in a blank. -/
theorem not_blank_of_suffix_trim {t y : Text} (hy : y <:+ Text.trim t) (hne : y ≠ []) :
    ∃ c ∈ y, Text.isBlank c = false := by
  have hfull : Text.trim t ≠ [] := by
    intro h
    rw [h, List.suffix_nil] at hy
    exact hne hy
  refine ⟨y.getLast hne, List.getLast_mem hne, ?_⟩
  rw [hy.getLast hne, ← Bool.not_eq_true]
  exact List.rdropWhile_last_not _ _ hfull

theorem blank_of_trim {t : Text} (h : Text.trim t = []) : ∀ c ∈ t, Text.isBlank c = true := by
  obtain ⟨g, ht, hg⟩ := Text.exists_blanks t
  rw [h, List.append_nil] at ht
  rw [ht]
  exact List.forall_mem_append.2 ⟨Text.indentation_blank t, hg⟩

theorem slash_not_mem {m : Text} (h : Text.trim m = [] ∨ Text.trim m = ['*']) : '/' ∉ m := by
  obtain ⟨g, hm, hg⟩ := Text.exists_blanks m
  have htrim : '/' ∉ Text.trim m := by
    rcases h with h | h
    · rw [h]
      decide
    · rw [h]
      decide
  have hblank : ¬Text.isBlank '/' = true := by decide
  rw [hm]
  simp only [List.mem_append, not_or]
  exact ⟨⟨fun hc => hblank (Text.indentation_blank m _ hc), htrim⟩, fun hc => hblank (hg _ hc)⟩

theorem dropStart_eq_self {head t : Text} (h : ¬head <+: t) : dropStart head t = t := by
  unfold dropStart Text.after?
  rw [if_neg fun hs => h (Text.startsWith_iff.1 hs)]
  rfl

theorem dropStart_append (head t : Text) : dropStart head (head ++ t) = t := by
  have hstarts : Text.startsWith head (head ++ t) = true := Text.startsWith_iff.2 (List.prefix_append head t)
  unfold dropStart Text.after?
  rw [if_pos hstarts, Option.getD_some, List.drop_left]

theorem dropEnd_eq_self {tail t : Text} (h : ¬tail <:+ t) : dropEnd tail t = t := by
  have hnot : ¬Text.endsWith tail t = true := fun hs => h (List.isSuffixOf_iff_suffix.1 hs)
  unfold dropEnd
  rw [if_neg hnot]

theorem dropEnd_append (t tail : Text) : dropEnd tail (t ++ tail) = t := by
  have hends : Text.endsWith tail (t ++ tail) = true := List.isSuffixOf_iff_suffix.2 (List.suffix_append t tail)
  unfold dropEnd
  rw [if_pos hends, List.length_append, Nat.add_sub_cancel, List.take_left]

/-- If nothing but blanks is left without an asterisk, there was nothing but that one. -/
theorem trim_of_dropStart {m : Text} (h : Text.trim (dropStart ['*'] (Text.trim m)) = []) :
    Text.trim m = [] ∨ Text.trim m = ['*'] := by
  have hblank := blank_of_trim h
  obtain ⟨starred, hstarred⟩ := exists_dropStart ['*'] (Text.trim m)
  -- A rest of blanks would be the end of a trimmed text.
  have hnil : dropStart ['*'] (Text.trim m) = [] := by
    by_contra hne
    obtain ⟨c, hc, hsolid⟩ := not_blank_of_suffix_trim (suffix_dropStart ['*'] _) hne
    rw [hblank c hc] at hsolid
    cases hsolid
  rw [hnil, List.append_nil] at hstarred
  cases starred with
  | true => exact .inr hstarred
  | false => exact .inl hstarred

theorem dropStart_opened {m : Text} (hm : '/' ∉ m) (opened closed : Bool) :
    dropStart opener ((if opened then opener else []) ++ m ++ if closed then closer else []) =
      m ++ if closed then closer else [] := by
  cases opened with
  | true => rw [if_pos rfl, List.append_assoc, dropStart_append]
  | false =>
    rw [if_neg Bool.false_ne_true, List.nil_append]
    refine dropStart_eq_self fun hpre => ?_
    cases m with
    | nil => cases closed <;> exact absurd hpre (by decide)
    | cons c m =>
      obtain rfl : '/' = c := (List.cons_prefix_cons.1 hpre).1
      exact hm List.mem_cons_self

theorem dropEnd_closed {m : Text} (hm : '/' ∉ m) (closed : Bool) :
    dropEnd closer (m ++ if closed then closer else []) = m := by
  cases closed with
  | true => rw [if_pos rfl, dropEnd_append]
  | false =>
    rw [if_neg Bool.false_ne_true, List.append_nil]
    exact dropEnd_eq_self fun hs => hm (hs.subset (by decide))

theorem content_eq_nil_iff (line : Text) : content line = [] ↔ Hollow line := by
  unfold content
  constructor
  · intro h
    obtain ⟨opened, hopened⟩ := exists_dropStart opener line
    obtain ⟨closed, hclosed⟩ := exists_dropEnd closer (dropStart opener line)
    rw [hopened, hclosed, ← List.append_assoc]
    exact .mk opened closed (trim_of_dropStart h)
  · rintro ⟨opened, closed, hm⟩
    have hslash := slash_not_mem hm
    rw [dropStart_opened hslash, dropEnd_closed hslash]
    rcases hm with hm | hm
    · rw [hm]
      rfl
    · rw [hm]
      rfl

/-! ## What the comment says -/

/-- It has no tag, and as its summary the first line that is not hollow. -/
theorem said_wordless {comment : List Text} (h : ∀ l ∈ comment, Wordless l) :
    said comment = ⟨.none, (comment.map content).find? fun t => !t.isEmpty⟩ := by
  have hat : ∀ c ∈ comment.map content, Text.startsWith ['@'] c = false := by
    intro c hc
    obtain ⟨l, hl, rfl⟩ := List.mem_map.1 hc
    rw [← Bool.not_eq_true, Text.startsWith_iff]
    intro hpre
    exact absurd (((h l hl).sublist (content_sublist l)) '@' (hpre.subset List.mem_cons_self)) (by decide)
  have htags : (comment.map content).filterMap tag? = [] := by
    rw [List.filterMap_eq_nil_iff]
    intro c hc
    obtain ⟨l, -, rfl⟩ := List.mem_map.1 hc
    cases ht : tag? (content l) with
    | none => rfl
    | some t =>
      have hstarts : Text.startsWith ['@'] (content l) = true := startsWith_of_tag? (Text.flush_trim _) ht
      rw [hat _ hc] at hstarts
      cases hstarts
  have hsummary : (comment.map content).find? isSummary = (comment.map content).find? fun t => !t.isEmpty := by
    refine List.find?_congr fun c hc => ?_
    rw [isSummary, hat c hc, Bool.not_false, Bool.and_true]
  unfold said
  simp only [htags, hsummary, List.getLast?_nil, Option.map_none, Option.bind_none, Option.or_none]

variable {lines : List Text} {j k n : Nat}

/-- No comment that is read starts above a line that opens another one. -/
theorem Ruled.le (h : Ruled lines k n) (hd : Documents lines j n) : k ≤ j := by
  by_contra hjk
  obtain ⟨l, hl, hopens⟩ := h.opens
  have hgoesOn : Text.startsWith ['*'] (Text.trim l) = true := hd.goesOn k h.above (by omega) l hl
  obtain ⟨u, hu⟩ := Text.startsWith_iff.1 hopens
  rw [← hu, Text.startsWith_iff] at hgoesOn
  exact absurd (List.cons_prefix_cons.1 hgoesOn).1 (by decide)

theorem Documents.unique {i : Nat} (hi : Documents lines i n) (hj : Documents lines j n) : i = j := by
  rcases Nat.lt_trichotomy i j with hij | hij | hij
  · obtain ⟨l, hl, ho⟩ := hj.opens
    exact absurd (hi.nearest j hj.above hij l hl) (by rw [ho]; decide)
  · exact hij
  · obtain ⟨l, hl, ho⟩ := hi.opens
    exact absurd (hj.nearest i hi.above hij l hl) (by rw [ho]; decide)

theorem between_subset (lines : List Text) (h : k ≤ j) (n : Nat) : between lines j n ⊆ between lines k n :=
  (List.drop_suffix_drop_left _ h).subset

theorem Ruled.said (h : Ruled lines k n) (hd : Documents lines j n) :
    said ((between lines j n).map Text.trim) =
      ⟨.none, ((between lines j n).map fun l => content (Text.trim l)).find? fun t => !t.isEmpty⟩ := by
  rw [said_wordless, List.map_map]
  · rfl
  · intro t ht
    obtain ⟨l, hl, rfl⟩ := List.mem_map.1 ht
    exact (h.wordless l (between_subset lines (h.le hd) n hl)).sublist (Text.trim_sublist l)

end DocBlock

/-! ## What is declared below it -/

namespace Render

theorem wordy_signless : Text.Wordy fun c => c ≠ '%' ∧ c ≠ '@' := by
  refine ⟨by decide, ?_⟩
  intro c hc
  constructor <;> rintro rfl <;> exact absurd hc (by decide)

theorem signless_hint {t u : Text} {d : Declaration} (h : Grammar.Declares t d) (hu : u ∈ d.hint) : Signless u := by
  intro c hc
  rcases (Property.hint_of_declares h u hu).union.chars.2 c hc with hchar | rfl
  · constructor <;> rintro rfl <;> exact absurd hchar (by unfold Grammar.IsTypeChar; decide)
  · decide

theorem signless_name {n : Name} (h : Grammar.IsName n) : Signless n.text := by
  intro c hc
  refine wordy_signless.name c ?_
  rcases List.mem_cons.1 hc with rfl | hc
  · exact Grammar.isNameChar_iff.2 (.inl h.1)
  · exact h.2 c hc

/-- Only documentation above can bring the sign of a mark or of a tag into a property. -/
theorem unmarked_ofDeclaration {t : Text} {d : Declaration} (h : Grammar.Declares t d) {doc : DocBlock}
    (htype : ∀ u ∈ doc.type, Signless u) (hdescription : ∀ u ∈ doc.description, Signless u) (indentation : Text) :
    Unmarked (Property.ofDeclaration d doc indentation) := by
  refine ⟨signless_name h.parts.1, fun u hu => signless_hint h (Option.filter_eq_some_iff.1 hu).1, fun u hu => ?_,
    hdescription⟩
  rcases Option.or_eq_some_iff.1 hu with hu | ⟨-, hu⟩
  · exact htype u hu
  rcases Option.or_eq_some_iff.1 hu with hu | ⟨-, hu⟩
  · exact signless_hint h (Option.filter_eq_some_iff.1 hu).1
  rcases Option.or_eq_some_iff.1 hu with hu | ⟨-, hu⟩
  · exact Property.of_inferred? wordy_signless _ u hu
  · exact signless_hint h (Option.filter_eq_some_iff.1 hu).1

/-- The text of an accessor that has the given summary. -/
def Opens (t : Text) (p : Property) (summary : Text) : Prop :=
  ∃ below, t = Template.indent p.indentation (Text.unlines ("/**".toList :: (" * ".toList ++ summary) :: below))

/-- The accessors of a property with such a description, or else with its name. -/
theorem opens_accessors {p : Property} (hp : Unmarked p) (hdescription : ∀ d ∈ p.description, d ≠ []) (s : Settings) :
    (Spaceable s .getter → ∃ t, (getter s p).outcome = .ok t ∧
      Opens t p (p.description.getD ("Get the value of ".toList ++ p.name.text))) ∧
    (Spaceable s .setter → ∃ t, (setter s p).outcome = .ok t ∧
      Opens t p (p.description.getD ("Set the value of ".toList ++ p.name.text))) := by
  have hgiven : ∀ otherwise, given p.description otherwise = p.description.getD otherwise := by
    intro otherwise
    cases hd : p.description with
    | none => rfl
    | some d =>
      obtain ⟨c, r, rfl⟩ := List.exists_cons_of_ne_nil (hdescription d hd)
      rfl
  obtain ⟨hgetter, hsetter⟩ := accessors_laidOut (s := s) hp
  constructor
  · intro hs
    refine ⟨_, hgetter hs, (getterLines p (Text.spaces (s.count Settings.spacesAfterReturn))).drop 2, ?_⟩
    rw [← hgiven]
    rfl
  · intro hs
    refine ⟨_, hsetter hs, (setterLines p (Text.spaces (s.count Settings.spacesAfterParam))
      (Text.spaces (s.count Settings.spacesAfterParamVar)) (Text.spaces (s.count Settings.spacesAfterReturn))).drop 2, ?_⟩
    rw [← hgiven]
    rfl

end Render

namespace DocBlock

open Render (Opens Spaceable)

variable {lines : List Text} {k n : Nat}

theorem exists_read (hn : n ≤ lines.length) (h : Ruled lines k n) :
    ∃ description, read (lines.take n).reverse = ⟨.none, description⟩ ∧
      (description = .none ↔ ∀ j, Documents lines j n → ∀ l ∈ between lines j n, Hollow (Text.trim l)) ∧
      ∀ d ∈ description, d ≠ [] ∧ Wordless d ∧ ∃ l ∈ between lines k n, content (Text.trim l) = d := by
  by_cases hdocuments : ∃ j, Documents lines j n
  · obtain ⟨j, hj⟩ := hdocuments
    refine ⟨_, (read_eq_said hn hj).trans (h.said hj), ?_, ?_⟩
    · rw [List.find?_eq_none, List.forall_mem_map]
      constructor
      · intro hempty i hi l hl
        rw [hi.unique hj] at hl
        refine (content_eq_nil_iff _).1 (List.isEmpty_iff.1 ?_)
        simpa using hempty l hl
      · intro hhollow l hl
        rw [(content_eq_nil_iff _).2 (hhollow j hj l hl)]
        decide
    · intro d hd
      obtain ⟨l, hl, rfl⟩ := List.mem_map.1 (List.mem_of_find?_eq_some hd)
      have hmem : l ∈ between lines k n := between_subset lines (h.le hj) n hl
      refine ⟨fun hnil => ?_, ?_, l, hmem, rfl⟩
      · have hsome := List.find?_some hd
        rw [hnil] at hsome
        cases hsome
      · exact (h.wordless l hmem).sublist ((content_sublist _).trans (Text.trim_sublist l))
  · have hnot : ∀ j, ¬Documents lines j n := fun j hj => hdocuments ⟨j, hj⟩
    exact ⟨.none, read_eq_none hn hnot, ⟨fun _ j hj => absurd hj (hnot j), fun _ => rfl⟩, fun d hd => by cases hd⟩

/-- Of a comment without words no type is read, and no description either if and only if
    all the lines that are read of it are hollow. If there is one, it is what is left of a
    line, and it has no words. The accessors of a property that is declared below have it
    as their summary, and otherwise one that is made from the name. -/
theorem read_wordless (hn : n ≤ lines.length) (h : Ruled lines k n) :
    ∃ description, readAt lines n = .ok ⟨.none, description⟩ ∧
      (description = .none ↔ ∀ j, Documents lines j n → ∀ l ∈ between lines j n, Hollow (Text.trim l)) ∧
      (∀ d ∈ description, d ≠ [] ∧ Wordless d ∧ ∃ l ∈ between lines k n, content (Text.trim l) = d) ∧
      ∀ p, Property.declaredOn? lines n = some p → ∀ s : Settings,
        (Spaceable s .getter → ∃ t, (Render.getter s p).outcome = .ok t ∧
          Opens t p (description.getD ("Get the value of ".toList ++ p.name.text))) ∧
        (Spaceable s .setter → ∃ t, (Render.setter s p).outcome = .ok t ∧
          Opens t p (description.getD ("Set the value of ".toList ++ p.name.text))) := by
  obtain ⟨description, hread, hnone, hsome⟩ := exists_read hn h
  refine ⟨description, ?_, hnone, hsome, ?_⟩
  · rw [readAt_eq hn, hread]
  · intro p hp s
    obtain ⟨line, hline, hdeclares⟩ := Option.bind_eq_some_iff.1 hp
    rw [Property.ofLine?_eq, hread] at hdeclares
    obtain ⟨d, hd, rfl⟩ := Option.map_eq_some_iff.1 hdeclares
    have hsignless : ∀ t ∈ description, Render.Signless t :=
      fun t ht c hc => ((hsome t ht).2.1 c hc).signless
    have hunmarked : Render.Unmarked (Property.ofDeclaration d ⟨.none, description⟩ (Text.indentation line)) :=
      Render.unmarked_ofDeclaration (Grammar.declares_of_scan? hd) (by simp) hsignless _
    exact Render.opens_accessors hunmarked (fun t ht => (hsome t ht).1) s

/-- A comment of three lines, one of them an asterisk alone, and a declaration. -/
def emptyComment : List Text := ["  /** ".toList, "   *".toList, "   */".toList, "  private $a;".toList]

theorem read_wordless_sample : Ruled emptyComment 0 3 ∧ readAt emptyComment 3 = .ok none ∧
    ∃ p t, Property.declaredOn? emptyComment 3 = some p ∧
      (Render.getter Settings.defaults p).outcome = .ok t ∧ Opens t p "Get the value of a".toList := by
  have hn : 3 ≤ emptyComment.length := by decide
  have hruled : Ruled emptyComment 0 3 := by
    refine ⟨by decide, ⟨_, rfl, by decide⟩, ?_⟩
    decide
  obtain ⟨description, hread, hnone, -, haccessors⟩ := read_wordless hn hruled
  have hempty : readAt emptyComment 3 = .ok none := by
    rw [readAt_eq hn]
    exact congrArg Except.ok (by decide +kernel)
  obtain rfl : .none = description := congrArg DocBlock.description (Except.ok.inj (hempty.symm.trans hread))
  have hp : Property.declaredOn? emptyComment 3 =
      some ⟨⟨'a', []⟩, .none, .none, .none, "  ".toList⟩ := by decide +kernel
  obtain ⟨t, ht, hopens⟩ := (haccessors _ hp Settings.defaults).1 (Render.spaceable_defaults .getter)
  exact ⟨hruled, hempty, _, t, hp, ht, hopens⟩

/-- The shortest comment below which a property is declared. -/
def sharedAsterisk : List Text := ["/**/".toList, "private $a;".toList]

/-- A comment without words that has a description: the asterisk of the opener is also
    that of the closer, of which the slash is left. -/
theorem read_shared : Ruled sharedAsterisk 0 1 ∧ readAt sharedAsterisk 1 = .ok ⟨.none, some ['/']⟩ := by
  have hn : 1 ≤ sharedAsterisk.length := by decide
  refine ⟨⟨by decide, ⟨_, rfl, by decide⟩, ?_⟩, ?_⟩
  · decide
  · rw [readAt_eq hn]
    exact congrArg Except.ok (by decide +kernel)

end DocBlock

end Accessors
