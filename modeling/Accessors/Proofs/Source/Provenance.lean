/-
  Accessors.Proofs.Source.Provenance — where each part of a property comes from.

  The line of a declaration gives the name, the hint and the indentation, whatever the
  other lines are. A pseudo-type in the place of the hint is no hint, nullable or not
  (`Nullable`, `isPseudoType_iff`). The documentation above gives the description.

  A type has four sources, and the first of them that says something counts (`TypeFrom`):
  the documentation, the hint, what the default value shows, and a pseudo-type in the
  place of the hint. A default value of null shows nothing (`Shows`).
  - `typeFrom`, `TypeFrom.eq`: the type of a property is the one of that order, and no other;
  - `declaredAt?_stated`: a line declares the property of which all this holds (`Stated`),
    and two documents that have the line in common get its parts from it alike.
-/
import Accessors.Proofs.Source.Grammar
import Accessors.Proofs.Source.Walk
import Accessors.Proofs.Text.Trim

namespace Accessors

/-! ## Words behind a mark -/

namespace Keyword

variable {words : List Text} {word h : Text}

/-- One of `words` up to the case of ASCII letters, with the mark of a nullable type
    before it or without. -/
def Nullable (words : List Text) (h : Text) : Prop := AnyCase words h ∨ ∃ word, h = '?' :: word ∧ AnyCase words word

/-- No word starts with a mark that a hint can start with. -/
def Unmarked (words : List Text) : Prop := ∀ w ∈ words, w.head? ≠ some '?' ∧ w.head? ≠ some '\x5c'

instance (words : List Text) : Decidable (Unmarked words) := List.decidableBAll _ _

theorem AnyCase.head?_ne (hwords : Unmarked words) (h : AnyCase words word) :
    word.head? ≠ some '?' ∧ word.head? ≠ some '\x5c' := by
  have hlower : (word.map Char.toLower).head? = word.head?.map Char.toLower := List.head?_map
  obtain ⟨hnullable, hrooted⟩ := hwords _ h
  refine ⟨fun he => hnullable ?_, fun he => hrooted ?_⟩
  · rw [hlower, he]
    rfl
  · rw [hlower, he]
    rfl

/-- Of a word nothing is left out with the marks. -/
theorem AnyCase.bareHint (hwords : Unmarked words) (h : AnyCase words word) : bareHint word = word := by
  obtain ⟨hnullable, hrooted⟩ := h.head?_ne hwords
  cases word with
  | nil => rfl
  | cons c r =>
    have hc : ¬(c = '?' ∨ c = '\x5c') := by
      rintro (rfl | rfl)
      · exact hnullable rfl
      · exact hrooted rfl
    simp [Accessors.bareHint, hc]

/-- A hint that is no such word without its marks is none with them. -/
theorem not_nullable (hwords : Unmarked words) (h : ¬AnyCase words (bareHint word)) : ¬Nullable words word := by
  rintro (hword | ⟨u, rfl, hu⟩)
  · rw [hword.bareHint hwords] at h
    exact h hword
  · have hmark : Accessors.bareHint ('?' :: u) = Accessors.bareHint u := by simp [Accessors.bareHint]
    rw [hmark, hu.bareHint hwords] at h
    exact h hu

theorem unmarked_modifiers : Unmarked modifiers := by decide

theorem unmarked_statementWords : Unmarked statementWords := by decide

theorem unmarked_pseudoTypes : Unmarked pseudoTypes := by decide

end Keyword

/-! ## Pseudo-types -/

namespace Grammar

theorem TypeName.exists_mark {t : Text} (h : TypeName t) :
    ∃ (nullable : Bool) (c : Char) (r : Text), t = (if nullable then ['?'] else []) ++ c :: r ∧ c ≠ '?' := by
  obtain ⟨nullable, rooted, hc, -⟩ := h
  rename_i c r
  cases rooted with
  | false =>
    refine ⟨nullable, c, r, by rw [if_neg Bool.false_ne_true, List.append_nil], ?_⟩
    rintro rfl
    exact absurd hc (by decide)
  | true => exact ⟨nullable, '\x5c', c :: r, by rw [if_pos rfl, List.append_assoc]; rfl, by decide⟩

/-- A hint has one mark of a nullable type at its start at most. -/
theorem TypeUnion.exists_mark {t : Text} (h : TypeUnion t) :
    ∃ (nullable : Bool) (c : Char) (r : Text), t = (if nullable then ['?'] else []) ++ c :: r ∧ c ≠ '?' := by
  cases h with
  | name h => exact h.exists_mark
  | bar h _ =>
    obtain ⟨nullable, c, r, rfl, hc⟩ := h.exists_mark
    exact ⟨nullable, c, r ++ '|' :: _, by rw [List.append_assoc, List.cons_append], hc⟩

end Grammar

namespace Keyword

theorem isPseudoType_iff {h : Text} (hunion : Grammar.TypeUnion h) :
    isPseudoType h = true ↔ Nullable pseudoTypes h := by
  have hascii := hunion.ascii
  obtain ⟨nullable, c, r, rfl, hc⟩ := hunion.exists_mark
  have hdrop : ((if nullable then ['?'] else []) ++ c :: r).dropWhile (· = '?') = c :: r := by
    cases nullable <;> simp [hc]
  unfold isPseudoType
  rw [hdrop, contains_lower_iff fun d hd => hascii d (List.mem_append_right _ hd)]
  cases nullable with
  | false =>
    refine ⟨.inl, ?_⟩
    rintro (hword | ⟨u, hu, -⟩)
    · exact hword
    · exact absurd (List.cons.inj hu).1 hc
  | true =>
    refine ⟨fun hword => .inr ⟨c :: r, rfl, hword⟩, ?_⟩
    rintro (hword | ⟨u, hu, hword⟩)
    · exact absurd rfl (hword.head?_ne unmarked_pseudoTypes).1
    · have hrest : c :: r = u := (List.cons.inj hu).2
      rwa [hrest]

end Keyword

/-! ## The type -/

namespace Property

open Grammar (TypeUnion)
open Keyword (Nullable pseudoTypes)

/-- The type of a default value that is a literal other than null. -/
def Shows (default : Option Text) (t : Text) : Prop :=
  ∃ v l, default = some v ∧ Literal.infer? v = some l ∧ l ≠ .null ∧ t = l.name

/-- The type in the order of its sources. -/
inductive TypeFrom (documented hint default : Option Text) : Option Text → Prop
  | documented {t : Text} : documented = some t → TypeFrom documented hint default (some t)
  | hinted {t : Text} : documented = none → hint = some t → ¬Nullable pseudoTypes t →
      TypeFrom documented hint default (some t)
  | shown {t : Text} : documented = none → (∀ h ∈ hint, Nullable pseudoTypes h) → Shows default t →
      TypeFrom documented hint default (some t)
  | pseudo {t : Text} : documented = none → hint = some t → Nullable pseudoTypes t → (∀ u, ¬Shows default u) →
      TypeFrom documented hint default (some t)
  | unknown : documented = none → hint = none → (∀ u, ¬Shows default u) → TypeFrom documented hint default none

theorem inferred?_eq_some {default : Option Text} {t : Text} : inferred? default = some t ↔ Shows default t := by
  unfold inferred? Shows
  constructor
  · intro h
    split at h
    · cases h
    · rename_i l hnull hl
      obtain ⟨v, hv, hinfer⟩ := Option.bind_eq_some_iff.1 hl
      exact ⟨v, l, hv, hinfer, hnull, (Option.some.inj h).symm⟩
    · cases h
  · rintro ⟨v, l, rfl, hinfer, hnull, rfl⟩
    rw [Option.bind_some, hinfer]
    cases l with
    | null => exact absurd rfl hnull
    | _ => rfl

theorem inferred?_eq_none {default : Option Text} : inferred? default = none ↔ ∀ t, ¬Shows default t := by
  rw [Option.eq_none_iff_forall_ne_some]
  exact forall_congr' fun t => not_congr inferred?_eq_some

section Sources

variable {d : Declaration} {doc : DocBlock} {indentation : Text} {t : Text}

theorem concreteHint?_eq_some {hint : Option Text} (hunion : ∀ h ∈ hint, TypeUnion h) :
    concreteHint? hint = some t ↔ hint = some t ∧ ¬Nullable pseudoTypes t := by
  rw [concreteHint?, Option.filter_eq_some_iff]
  refine and_congr_right fun ht => ?_
  rw [Bool.not_eq_true', ← Bool.not_eq_true, Keyword.isPseudoType_iff (hunion t ht)]

theorem pseudoHint?_eq_some {hint : Option Text} (hunion : ∀ h ∈ hint, TypeUnion h) :
    pseudoHint? hint = some t ↔ hint = some t ∧ Nullable pseudoTypes t := by
  rw [pseudoHint?, Option.filter_eq_some_iff]
  exact and_congr_right fun ht => Keyword.isPseudoType_iff (hunion t ht)

theorem concreteHint?_eq_none {hint : Option Text} (hunion : ∀ h ∈ hint, TypeUnion h) :
    concreteHint? hint = none ↔ ∀ h ∈ hint, Nullable pseudoTypes h := by
  rw [Option.eq_none_iff_forall_ne_some]
  refine forall_congr' fun h => ?_
  rw [ne_eq, concreteHint?_eq_some hunion, not_and, not_not]
  exact Iff.rfl

theorem TypeFrom.eq (hunion : ∀ h ∈ d.hint, TypeUnion h) {type : Option Text}
    (h : TypeFrom doc.type d.hint d.default type) : (ofDeclaration d doc indentation).type = type := by
  show doc.type.or ((concreteHint? d.hint).or ((inferred? d.default).or (pseudoHint? d.hint))) = type
  cases h with
  | documented hdoc => rw [hdoc, Option.some_or]
  | hinted hdoc hhint hp => rw [hdoc, Option.none_or, (concreteHint?_eq_some hunion).2 ⟨hhint, hp⟩, Option.some_or]
  | shown hdoc hp hs =>
    rw [hdoc, Option.none_or, (concreteHint?_eq_none hunion).2 hp, Option.none_or, inferred?_eq_some.2 hs,
      Option.some_or]
  | pseudo hdoc hhint hp hs =>
    have hconcrete : ∀ h ∈ d.hint, Nullable pseudoTypes h := by
      intro h hh
      rwa [Option.some.inj (hhint.symm.trans hh)] at hp
    rw [hdoc, Option.none_or, (concreteHint?_eq_none hunion).2 hconcrete, Option.none_or, inferred?_eq_none.2 hs,
      Option.none_or, (pseudoHint?_eq_some hunion).2 ⟨hhint, hp⟩]
  | unknown hdoc hhint hs =>
    rw [hdoc, Option.none_or, hhint, inferred?_eq_none.2 hs]
    rfl

theorem exists_typeFrom (documented hint default : Option Text) :
    ∃ type, TypeFrom documented hint default type := by
  cases hdoc : documented with
  | some t => exact ⟨some t, .documented rfl⟩
  | none =>
    by_cases hp : ∀ h ∈ hint, Nullable pseudoTypes h
    · by_cases hs : ∃ t, Shows default t
      · obtain ⟨t, hs⟩ := hs
        exact ⟨some t, .shown rfl hp hs⟩
      · rw [not_exists] at hs
        cases hint with
        | some h => exact ⟨some h, .pseudo rfl rfl (hp h rfl) hs⟩
        | none => exact ⟨none, .unknown rfl rfl hs⟩
    · push Not at hp
      obtain ⟨h, hhint, hp⟩ := hp
      exact ⟨some h, .hinted rfl hhint hp⟩

theorem typeFrom (hunion : ∀ h ∈ d.hint, TypeUnion h) :
    TypeFrom doc.type d.hint d.default (ofDeclaration d doc indentation).type := by
  obtain ⟨type, h⟩ := exists_typeFrom doc.type d.hint d.default
  rwa [h.eq hunion]

end Sources

end Property

/-! ## What a line declares -/

namespace Grammar

theorem Modifiers.dollar_not_mem {m : Text} (h : Modifiers m) : '$' ∉ m := by
  induction h with
  | nil => exact List.not_mem_nil
  | cons hw hg _ ih =>
    intro hc
    rcases List.mem_append.1 hc with hc | hc
    · rcases List.mem_append.1 hc with hc | hc
      · exact absurd (hw.modifier_letter '$' hc) (by decide)
      · exact absurd (hg.2 '$' hc) (by decide)
    · exact ih hc

theorem HintPart.dollar_not_mem {h : Text} {hint : Option Text} (hh : HintPart h hint) : '$' ∉ h := by
  cases hh with
  | none => exact List.not_mem_nil
  | some hh hg =>
    intro hc
    rcases List.mem_append.1 hc with hc | hc
    · rcases hh.union.chars.2 '$' hc with htype | hbar
      · exact htype.ne (.inr rfl) rfl
      · exact absurd hbar (by decide)
    · exact absurd (hg.2 '$' hc) (by decide)

theorem HintPart.hint {h : Text} {hint : Option Text} (hh : HintPart h hint) : ∀ t ∈ hint, Hint t := by
  cases hh with
  | none =>
    intro t ht
    cases ht
  | some hh _ =>
    intro t ht
    rwa [← Option.some.inj ht]

theorem IsName.ascii {n : Name} (h : IsName n) : ∀ c ∈ n.text, c.toNat < 128 := by
  intro c hc
  have hchar : isNameChar c = true := by
    rcases List.mem_cons.1 hc with rfl | hc
    · exact isNameChar_iff.2 (.inl h.1)
    · exact h.2 c hc
  exact IsTypeChar.ascii (.inl hchar)

end Grammar

namespace Property

open Grammar (Declares HintPart IsName Modifiers)
open Keyword (Nullable modifiers statementWords pseudoTypes)

/-- What `p` says if `line` is the declaration `d` below the documentation `doc`. -/
structure Stated (line : Text) (doc : DocBlock) (d : Declaration) (p : Property) : Prop where
  declares : Declares (Text.trim line) d
  /-- The hint and the name where they stand in the line. -/
  written : ∃ m h part, line = p.indentation ++ m ++ h ++ '$' :: (p.name.text ++ part) ∧
    Modifiers m ∧ HintPart h d.hint ∧ '$' ∉ p.indentation ++ m ++ h
  name : p.name = d.name ∧ IsName p.name ∧ ∀ c ∈ p.name.text, c.toNat < 128
  indentation : ∃ rest, line = p.indentation ++ rest ∧ (∀ c ∈ p.indentation, Text.isBlank c = true) ∧ Text.Flush rest
  hint : ∀ h, p.hint = some h ↔ d.hint = some h ∧ ¬Nullable pseudoTypes h
  hint_word : ∀ h ∈ p.hint, ¬Nullable modifiers h ∧ ¬Nullable statementWords h
  type : TypeFrom doc.type d.hint d.default p.type
  typed : p.hint.isSome → p.type.isSome
  description : p.description = doc.description

/-- Trimming a line, and taking its indentation, a break at its end makes no difference. -/
theorem ofLine?_eq (above : List Text) (line : Text) : ofLine? above line =
    (Declaration.scan? (Text.trim line)).map fun d =>
      ofDeclaration d (DocBlock.read above) (Text.indentation line) := by
  show (Declaration.scan? (Text.trim (Text.dropBreak line))).map (fun d =>
    ofDeclaration d (DocBlock.read above) (Text.indentation (Text.dropBreak line))) = _
  rw [Text.trim_dropBreak]
  by_cases hblank : Text.trim line = []
  · rw [hblank]
    rfl
  · rw [Text.indentation_dropBreak hblank]

section Line

variable {line : Text} {doc : DocBlock} {d : Declaration} {p : Property}

theorem hint_of_declares {t : Text} (h : Declares t d) : ∀ u ∈ d.hint, Grammar.Hint u := by
  obtain ⟨-, hh, -⟩ := h
  exact hh.hint

/-- A line is blanks, modifiers, a hint or none, the name, and something more. -/
theorem exists_written (h : Declares (Text.trim line) d) :
    ∃ m h part, line = Text.indentation line ++ m ++ h ++ '$' :: (d.name.text ++ part) ∧
      Modifiers m ∧ HintPart h d.hint ∧ '$' ∉ Text.indentation line ++ m ++ h := by
  obtain ⟨blanks, hline, -⟩ := Text.exists_blanks line
  generalize Text.trim line = t at h hline
  obtain ⟨hm, hh, hv⟩ := h
  rename_i m h v n hint default
  obtain ⟨hn, -, -, -, -, -⟩ := hv
  rename_i w r s
  refine ⟨m, h, w ++ r ++ blanks, ?_, hm, hh, ?_⟩
  · simpa only [List.append_assoc, List.cons_append] using hline
  · intro hc
    rcases List.mem_append.1 hc with hc | hc
    · rcases List.mem_append.1 hc with hc | hc
      · exact absurd (Text.indentation_blank line '$' hc) (by decide)
      · exact hm.dollar_not_mem hc
    · exact hh.dollar_not_mem hc

theorem stated_ofDeclaration (h : Declares (Text.trim line) d) :
    Stated line doc d (ofDeclaration d doc (Text.indentation line)) := by
  have hhint := hint_of_declares h
  have hunion : ∀ u ∈ d.hint, Grammar.TypeUnion u := fun u hu => (hhint u hu).union
  have hname := h.parts.1
  refine ⟨h, exists_written h, ⟨rfl, hname, hname.ascii⟩, ?_, fun u => concreteHint?_eq_some hunion, ?_,
    typeFrom hunion, ?_, rfl⟩
  · exact ⟨Text.trimStart line, List.takeWhile_append_dropWhile.symm, Text.indentation_blank line,
      Text.flush_dropWhile line⟩
  · intro u hu
    have hwritten := hhint u ((concreteHint?_eq_some hunion).1 hu).1
    exact ⟨Keyword.not_nullable Keyword.unmarked_modifiers hwritten.notModifier,
      Keyword.not_nullable Keyword.unmarked_statementWords hwritten.notStatement⟩
  · intro hsome
    obtain ⟨u, hu⟩ := Option.isSome_iff_exists.1 hsome
    have hconcrete : concreteHint? d.hint = some u := hu
    show (doc.type.or ((concreteHint? d.hint).or _)).isSome
    rw [hconcrete, Option.some_or]
    cases doc.type <;> rfl

/-- What is said of a property leaves no choice. -/
theorem Stated.eq (h : Stated line doc d p) : p = ofDeclaration d doc (Text.indentation line) := by
  have hunion : ∀ u ∈ d.hint, Grammar.TypeUnion u := fun u hu => (hint_of_declares h.declares u hu).union
  have hhint : p.hint = concreteHint? d.hint := by
    ext u
    exact (h.hint u).trans (concreteHint?_eq_some hunion).symm
  have htype : p.type = (ofDeclaration d doc (Text.indentation line)).type := (h.type.eq hunion).symm
  obtain ⟨rest, hline, hblank, hrest⟩ := h.indentation
  have hindentation : p.indentation = Text.indentation line := by
    rw [hline, Text.indentation_append_of_flush hblank hrest]
  have hdescription := h.description
  have hname := h.name.1
  cases p
  rw [mk.injEq]
  exact ⟨hname, hhint, htype, hdescription, hindentation⟩

end Line

/-- What a line alone gives of the property that it declares. -/
def onLine (lines : List Text) (i : Nat) : Except Int (Option (Name × Option Text × Text)) :=
  (declaredAt? lines i).map (Option.map fun p => (p.name, p.hint, p.indentation))

theorem declaredAt?_out {lines : List Text} {i : Nat} (h : lines[i]? = none) :
    declaredAt? lines i = .error (i : Int) := by
  unfold declaredAt? lineAt
  rw [if_neg (by omega), Int.toNat_natCast, h]
  rfl

theorem declaredAt?_in {lines : List Text} {i : Nat} {line : Text} (h : lines[i]? = some line) :
    declaredAt? lines i = .ok ((Declaration.scan? (Text.trim line)).map fun d =>
      ofDeclaration d (DocBlock.read (lines.take i).reverse) (Text.indentation line)) := by
  rw [declaredAt?_eq (List.getElem?_eq_some_iff.1 h).1, declaredOn?_eq h, ofLine?_eq]

/-- The line of a number declares a property if and only if it holds a declaration and the
    property says what is stated of that below the documentation above. Name, hint,
    indentation, and whether there is a property, are the same in any two documents that
    have this line in common. -/
theorem declaredAt?_stated (lines : List Text) (i : Nat) :
    (∀ p, declaredAt? lines i = .ok (some p) ↔ ∃ line doc d, lines[i]? = some line ∧
      DocBlock.readAt lines i = .ok doc ∧ Stated line doc d p) ∧
    (∀ others : List Text, others[i]? = lines[i]? → onLine others i = onLine lines i) := by
  refine ⟨fun p => ⟨fun h => ?_, ?_⟩, fun others hsame => ?_⟩
  · cases hline : lines[i]? with
    | none =>
      rw [declaredAt?_out hline] at h
      cases h
    | some line =>
      rw [declaredAt?_in hline, Except.ok.injEq, Option.map_eq_some_iff] at h
      obtain ⟨d, hd, rfl⟩ := h
      exact ⟨line, _, d, rfl, DocBlock.readAt_eq (Nat.le_of_lt (List.getElem?_eq_some_iff.1 hline).1),
        stated_ofDeclaration (Grammar.declares_of_scan? hd)⟩
  · rintro ⟨line, doc, d, hline, hdoc, hstated⟩
    rw [DocBlock.readAt_eq (Nat.le_of_lt (List.getElem?_eq_some_iff.1 hline).1), Except.ok.injEq] at hdoc
    rw [declaredAt?_in hline, hstated.declares.scan?, hdoc, hstated.eq]
    rfl
  · unfold onLine
    cases hline : lines[i]? with
    | none => rw [declaredAt?_out hline, declaredAt?_out (hsame.trans hline)]
    | some line =>
      rw [declaredAt?_in hline, declaredAt?_in (hsame.trans hline)]
      cases Declaration.scan? (Text.trim line) <;> rfl

/-- A declaration with a pseudo-type and a default value, below documentation of its type. -/
def documented : List Text := ["/** @var bool */".toList, "  var ?Mixed $a = 1;".toList]

/-- The same declaration below nothing. -/
def undocumented : List Text := [[], "  var ?Mixed $a = 1;".toList]

theorem declaredAt?_stated_sample : undocumented[1]? = documented[1]? ∧ onLine undocumented 1 = onLine documented 1 ∧
    ∃ p q, declaredAt? documented 1 = .ok (some p) ∧ declaredAt? undocumented 1 = .ok (some q) ∧
      p.type = some "bool".toList ∧ q.type = some "int".toList ∧
      ∃ line doc d, documented[1]? = some line ∧ DocBlock.readAt documented 1 = .ok doc ∧ Stated line doc d p := by
  have hsame : undocumented[1]? = documented[1]? := rfl
  obtain ⟨hstated, hline⟩ := declaredAt?_stated documented 1
  have hp : declaredAt? documented 1 =
      .ok (some ⟨⟨'a', []⟩, none, some "bool".toList, none, "  ".toList⟩) := by
    rw [declaredAt?_eq (by decide)]
    exact congrArg Except.ok (by decide +kernel)
  have hq : declaredAt? undocumented 1 =
      .ok (some ⟨⟨'a', []⟩, none, some "int".toList, none, "  ".toList⟩) := by
    rw [declaredAt?_eq (by decide)]
    exact congrArg Except.ok (by decide +kernel)
  exact ⟨hsame, hline undocumented hsame, _, _, hp, hq, rfl, rfl, (hstated _).1 hp⟩

end Property

end Accessors
