/-
  Accessors.Proofs.Source.Grammar — what a declaration is, without the scanner.

  A declaration is written `M H $ n W R`:
  - `M`, modifiers in any letter case, each with a gap behind it (`Modifiers`);
  - `H`, nothing or a hint with a gap behind it (`HintPart`). A hint is one type name or
    several with bars between them, and what is left of it without its first marks is
    neither a modifier nor the start of a statement (`Hint`);
  - `n`, a name that no further name character follows, and `W`, all blanks behind it;
  - `R`, of which only what stands before the end of the statement counts (`Before`):
    a semicolon or the start of a comment, outside of strings. Blanks at its end aside,
    that is nothing, or starts with a comma, or is an assignment (`Value`).

  Proved of the scanner (`Declaration.scan?`):
  - each part of it decides its part of the grammar (`isTypeUnion_iff`, `isHint_iff`,
    `before_iff`, `default?_iff`);
  - `scan?_eq_some_iff`: it finds the declarations of this grammar with their parts, and
    nothing else, so that a text is one declaration at most.
-/
import Accessors.Proofs.Source.Keyword
import Accessors.Proofs.Text.Gap
import Accessors.Proofs.Text.Pieces
import Accessors.Source.Declaration

namespace Accessors.Grammar

open Text (Gap Solid Flush)

/-! ## Modifiers and hints -/

inductive Modifiers : Text → Prop
  | nil : Modifiers []
  | cons {w g t : Text} : Keyword.AnyCase Keyword.modifiers w → Gap g → Modifiers t → Modifiers (w ++ g ++ t)

/-- A name that may be nullable, may be rooted, and goes on with name characters and
    backslashes. -/
inductive TypeName : Text → Prop
  | mk (nullable rooted : Bool) {c : Char} {r : Text} : isNameStart c = true →
      (∀ d ∈ r, isNameChar d = true ∨ d = '\x5c') →
      TypeName ((if nullable then ['?'] else []) ++ (if rooted then ['\x5c'] else []) ++ c :: r)

inductive TypeUnion : Text → Prop
  | name {t : Text} : TypeName t → TypeUnion t
  | bar {t u : Text} : TypeName t → TypeUnion u → TypeUnion (t ++ '|' :: u)

structure Hint (h : Text) : Prop where
  union : TypeUnion h
  notModifier : ¬Keyword.AnyCase Keyword.modifiers (bareHint h)
  notStatement : ¬Keyword.AnyCase Keyword.statementWords (bareHint h)

inductive HintPart : Text → Option Text → Prop
  | none : HintPart [] none
  | some {h g : Text} : Hint h → Gap g → HintPart (h ++ g) (some h)

/-! ## The rest of the line -/

def IsName (n : Name) : Prop := isNameStart n.first = true ∧ ∀ c ∈ n.rest, isNameChar c = true

/-- No name goes on with this text. -/
def EndsName (t : Text) : Prop := ∀ c ∈ t.head?, isNameChar c = false

def IsQuote (c : Char) : Prop := c = '\x27' ∨ c = '\x22'

instance (c : Char) : Decidable (IsQuote c) := inferInstanceAs (Decidable (_ ∨ _))

/-- What can stand between two quotes `q`. -/
inductive Quoted (q : Char) : Text → Prop
  | nil : Quoted q []
  | char {c : Char} {t : Text} : c ≠ q → c ≠ '\x5c' → Quoted q t → Quoted q (c :: t)
  | escape {c : Char} {t : Text} : Quoted q t → Quoted q ('\x5c' :: c :: t)

/-- A statement ends where this text starts. -/
inductive Ends : Text → Prop
  | semicolon (r : Text) : Ends (';' :: r)
  | hash (r : Text) : Ends ('#' :: r)
  | slashes (r : Text) : Ends ('/' :: '/' :: r)
  | comment (r : Text) : Ends ('/' :: '*' :: r)

/-- `Before r p`: of `r`, `p` stands before the first end of a statement outside of
    strings. A string may be left open, also behind a backslash. -/
inductive Before : Text → Text → Prop
  | nil : Before [] []
  | ends {r : Text} : Ends r → Before r []
  | char {c : Char} {r p : Text} : ¬IsQuote c → ¬Ends (c :: r) → Before r p → Before (c :: r) (c :: p)
  | string {q : Char} {b r p : Text} : IsQuote q → Quoted q b → Before r p →
      Before (q :: b ++ q :: r) (q :: b ++ q :: p)
  | openString {q : Char} {b : Text} : IsQuote q → Quoted q b → Before (q :: b) (q :: b)
  | openEscape {q : Char} {b : Text} : IsQuote q → Quoted q b → Before (q :: b ++ ['\x5c']) (q :: b ++ ['\x5c'])

/-- What a statement says behind its variable. -/
inductive Value : Text → Option Text → Prop
  | done : Value [] none
  | comma (r : Text) : Value (',' :: r) none
  | assigned {r : Text} : r.head? ≠ some '=' → Value ('=' :: r) (some (Text.trim r))

/-- The variable and all that is behind it. -/
inductive Variable : Text → Name → Option Text → Prop
  | mk {w r p : Text} {n : Name} {default : Option Text} : IsName n → EndsName (w ++ r) →
      (∀ c ∈ w, Text.isBlank c = true) → Flush r → Before r p → Value (Text.trimEnd p) default →
      Variable ('$' :: n.text ++ w ++ r) n default

inductive Declares : Text → Declaration → Prop
  | mk {m h v : Text} {n : Name} {hint default : Option Text} : Modifiers m → HintPart h hint → Variable v n default →
      Declares (m ++ h ++ v) ⟨n, hint, default⟩

/-! ## Classes of characters -/

theorem isNameStart_iff {c : Char} : isNameStart c = true ↔
    (65 ≤ c.toNat ∧ c.toNat ≤ 90) ∨ (97 ≤ c.toNat ∧ c.toNat ≤ 122) ∨ c.toNat = 95 := by
  have hu : c = '_' ↔ c.toNat = 95 := ⟨fun h => by rw [h]; rfl, fun h => Char.toNat_inj.1 h⟩
  simp only [isNameStart, Bool.or_eq_true, Bool.and_eq_true, decide_eq_true_eq, Char.le_def, UInt32.le_iff_toNat_le, hu,
    or_assoc]
  exact Iff.rfl

theorem isNameChar_iff {c : Char} : isNameChar c = true ↔
    isNameStart c = true ∨ (48 ≤ c.toNat ∧ c.toNat ≤ 57) := by
  simp only [isNameChar, Bool.or_eq_true, Bool.and_eq_true, decide_eq_true_eq, Char.le_def, UInt32.le_iff_toNat_le]
  exact Iff.rfl

/-- The characters of a type name. -/
def IsTypeChar (c : Char) : Prop := isNameChar c = true ∨ c = '?' ∨ c = '\x5c'

theorem IsTypeChar.ascii {c : Char} (h : IsTypeChar c) : c.toNat < 128 := by
  rcases h with h | rfl | rfl
  · rw [isNameChar_iff, isNameStart_iff] at h
    omega
  · decide
  · decide

theorem IsTypeChar.not_blank {c : Char} (h : IsTypeChar c) : Text.isBlank c = false := by
  rcases h with h | rfl | rfl
  · rw [isNameChar_iff, isNameStart_iff] at h
    simp only [Text.isBlank, Bool.or_eq_false_iff, Bool.and_eq_false_iff, decide_eq_false_iff_not, beq_eq_false_iff_ne]
    omega
  · decide
  · decide

theorem IsTypeChar.ne {c d : Char} (h : IsTypeChar c) (hd : d = '|' ∨ d = '$') : c ≠ d := by
  have hnot : ¬IsTypeChar d := by
    unfold IsTypeChar
    rcases hd with rfl | rfl
    · decide
    · decide
  intro e
  exact hnot (e ▸ h)

/-! ## Type names and hints -/

theorem TypeName.chars {t : Text} (h : TypeName t) : t ≠ [] ∧ ∀ c ∈ t, IsTypeChar c := by
  obtain ⟨nullable, rooted, hc, hr⟩ := h
  refine ⟨by simp, fun c hc' => ?_⟩
  simp only [List.mem_append, List.mem_cons] at hc'
  rcases hc' with (hc' | hc') | rfl | hc'
  · split at hc' <;> simp at hc'
    exact .inr (.inl hc')
  · split at hc' <;> simp at hc'
    exact .inr (.inr hc')
  · exact .inl (isNameChar_iff.2 (.inl hc))
  · rcases hr c hc' with h | h
    · exact .inl h
    · exact .inr (.inr h)

/-- What `dropOne` drops is the character or nothing. -/
theorem exists_dropOne (c : Char) (t : Text) : ∃ b : Bool, t = (if b then [c] else []) ++ dropOne c t := by
  cases t with
  | nil => exact ⟨false, rfl⟩
  | cons d r =>
    by_cases h : d = c
    · exact ⟨true, by simp [dropOne, h]⟩
    · exact ⟨false, by simp [dropOne, h]⟩

theorem isTypeName_iff (t : Text) : isTypeName t = true ↔ TypeName t := by
  constructor
  · intro h
    obtain ⟨nullable, hn⟩ := exists_dropOne '?' t
    obtain ⟨rooted, hr⟩ := exists_dropOne '\x5c' (dropOne '?' t)
    unfold isTypeName at h
    split at h
    · rename_i c r hcr
      simp only [Bool.and_eq_true, List.all_eq_true, Bool.or_eq_true, decide_eq_true_eq] at h
      rw [hn, hr, hcr, ← List.append_assoc]
      exact TypeName.mk nullable rooted h.1 h.2
    · cases h
  · intro h
    obtain ⟨nullable, rooted, hc, hr⟩ := h
    rename_i c r
    have hmark : ∀ d : Char, isNameStart d = false → c ≠ d := by
      intro d hd e
      rw [e, hd] at hc
      cases hc
    have hq : c ≠ '?' := hmark _ (by decide)
    have hb : c ≠ '\x5c' := hmark _ (by decide)
    have hrest : (isNameStart c && r.all fun d => isNameChar d || d = '\x5c') = true := by
      simpa [hc, List.all_eq_true] using hr
    cases nullable <;> cases rooted <;> simpa [isTypeName, dropOne, hq, hb] using hrest

theorem TypeUnion.chars {t : Text} (h : TypeUnion t) : t ≠ [] ∧ ∀ c ∈ t, IsTypeChar c ∨ c = '|' := by
  induction h with
  | name h => exact ⟨h.chars.1, fun c hc => .inl (h.chars.2 c hc)⟩
  | bar h _ ih =>
    refine ⟨by simp, fun c hc => ?_⟩
    rcases List.mem_append.1 hc with hc | hc
    · exact .inl (h.chars.2 c hc)
    · rcases List.mem_cons.1 hc with rfl | hc
      · exact .inr rfl
      · exact ih.2 c hc

theorem TypeName.bar_not_mem {t : Text} (h : TypeName t) : '|' ∉ t :=
  fun hm => (h.chars.2 _ hm).ne (.inl rfl) rfl

/-- Type names with bars between them are a union of them. -/
theorem TypeUnion.of_names {ps : List Text} (hne : ps ≠ []) (h : ∀ p ∈ ps, TypeName p) :
    TypeUnion (Text.joinWith ['|'] ps) := by
  induction ps with
  | nil => exact absurd rfl hne
  | cons p ps ih =>
    cases ps with
    | nil => exact .name (h p (by simp))
    | cons q ps =>
      have hq := ih (by simp) fun x hx => h x (List.mem_cons_of_mem _ hx)
      simpa [Text.joinWith] using TypeUnion.bar (h p (by simp)) hq

theorem isTypeUnion_iff (t : Text) : isTypeUnion t = true ↔ TypeUnion t := by
  simp only [isTypeUnion, List.all_eq_true, isTypeName_iff]
  constructor
  · intro h
    rw [← Text.joinWith_splitOn '|' t]
    exact TypeUnion.of_names (Text.splitOn_ne_nil '|' t) h
  · intro h
    induction h with
    | name h =>
      rw [Text.splitOn_of_not_mem h.bar_not_mem]
      simpa using h
    | bar h _ ih =>
      rw [Text.splitOn_append_sep h.bar_not_mem]
      simpa using ⟨h, ih⟩

theorem TypeUnion.ascii {t : Text} (h : TypeUnion t) : ∀ c ∈ t, c.toNat < 128 := fun c hc => by
  rcases h.chars.2 c hc with h | rfl
  · exact h.ascii
  · decide

theorem isHint_iff (h : Text) : isHint h = true ↔ Hint h := by
  simp only [isHint, Bool.and_eq_true, Bool.not_eq_true', ← Bool.not_eq_true, isTypeUnion_iff, Keyword.isModifier_iff]
  have hascii : TypeUnion h → ∀ c ∈ bareHint h, c.toNat < 128 :=
    fun hu c hc => hu.ascii c ((List.dropWhile_sublist _).subset hc)
  constructor
  · intro hall
    obtain ⟨⟨hu, hm⟩, hs⟩ := hall
    exact ⟨hu, hm, fun hw => hs ((Keyword.contains_lower_iff (hascii hu)).2 hw)⟩
  · intro hh
    obtain ⟨hu, hm, hs⟩ := hh
    exact ⟨⟨hu, hm⟩, fun hw => hs ((Keyword.contains_lower_iff (hascii hu)).1 hw)⟩

theorem Hint.solid {h : Text} (hh : Hint h) : Solid h := fun c hc => by
  rcases hh.union.chars.2 c hc with h | rfl
  · exact h.not_blank
  · decide

theorem Hint.ne_nil {h : Text} (hh : Hint h) : h ≠ [] := hh.union.chars.1

theorem Hint.head?_ne {h : Text} (hh : Hint h) : h.head? ≠ some '$' := fun he => by
  rcases hh.union.chars.2 '$' (List.mem_of_mem_head? he) with h | h
  · exact h.ne (.inr rfl) rfl
  · exact absurd h (by decide)

/-- A hint is no modifier, as a modifier has no marks to be left out. -/
theorem Hint.not_modifier {h : Text} (hh : Hint h) : ¬Keyword.AnyCase Keyword.modifiers h := by
  intro hm
  have hbare : bareHint h = h := by
    obtain ⟨c, r, rfl⟩ := List.exists_cons_of_ne_nil hh.ne_nil
    have hl := hm.modifier_letter c (by simp)
    have hc : ¬(c = '?' ∨ c = '\x5c') := by
      intro hmark
      rcases hmark with rfl | rfl
      · exact absurd hl (by decide)
      · exact absurd hl (by decide)
    simp [bareHint, hc]
  exact hh.notModifier (hbare.symm ▸ hm)

/-! ## Names -/

theorem Name.take?_iff {t : Text} {n : Name} {r : Text} :
    Name.take? t = some (n, r) ↔ t = n.text ++ r ∧ IsName n ∧ EndsName r := by
  constructor
  · intro h
    cases t with
    | nil => cases h
    | cons c s =>
      simp only [Name.take?] at h
      by_cases hc : isNameStart c = true
      · rw [if_pos hc] at h
        cases h
        refine ⟨?_, ⟨hc, fun d hd => List.mem_takeWhile_imp hd⟩, fun d hd => ?_⟩
        · simp [Name.text]
        · have hn := List.head?_dropWhile_not isNameChar s
          rw [hd] at hn
          simpa using hn
      · rw [if_neg hc] at h
        cases h
  · intro h
    obtain ⟨rfl, ⟨hf, hr⟩, he⟩ := h
    have hdrop : r.dropWhile isNameChar = r ∧ r.takeWhile isNameChar = [] := by
      cases r with
      | nil => exact ⟨rfl, rfl⟩
      | cons c s =>
        have hc : isNameChar c = false := he c rfl
        simp [hc]
    simp only [Name.text, List.cons_append, Name.take?, hf, if_true, List.takeWhile_append_of_pos hr,
      List.dropWhile_append_of_pos hr, hdrop.1, hdrop.2, List.append_nil]

/-! ## The end of a statement -/

theorem ends_iff (t : Text) : Ends t ↔ t ≠ [] ∧ endsStatement t = true := by
  constructor
  · intro h
    cases h <;> exact ⟨by simp, by simp [endsStatement]⟩
  · intro hend
    obtain ⟨hne, h⟩ := hend
    obtain ⟨c, r, rfl⟩ := List.exists_cons_of_ne_nil hne
    simp only [endsStatement, Bool.or_eq_true, Bool.and_eq_true, decide_eq_true_eq, beq_iff_eq] at h
    rcases h with (rfl | rfl) | ⟨rfl, h⟩
    · exact .semicolon r
    · exact .hash r
    · cases r with
      | nil => simp at h
      | cons d r =>
        simp only [List.head?_cons, Option.some.injEq] at h
        rcases h with rfl | rfl
        · exact .slashes r
        · exact .comment r

theorem IsQuote.ne_backslash {q : Char} (h : IsQuote q) : q ≠ '\x5c' := by
  rcases h with rfl | rfl <;> decide

theorem IsQuote.not_blank {q : Char} (h : IsQuote q) : Text.isBlank q = false := by
  rcases h with rfl | rfl <;> decide

theorem not_quote_of_isBlank {c : Char} (h : Text.isBlank c = true) : ¬IsQuote c := by
  intro hq
  rw [hq.not_blank] at h
  cases h

/-- A string ends no statement. -/
theorem IsQuote.not_ends {q : Char} (h : IsQuote q) (t : Text) : ¬Ends (q :: t) := by
  intro he
  rcases h with rfl | rfl <;> cases he

/-- Inside of a string nothing ends the statement. -/
theorem beforeEnd_quoted {q : Char} {b : Text} (hb : Quoted q b) (t : Text) :
    beforeEnd (.inside q) (b ++ t) = b ++ beforeEnd (.inside q) t := by
  induction hb with
  | nil => rfl
  | char hq hs _ ih => simp [beforeEnd, Quoting.next, hq, hs, ih]
  | escape _ ih => simp [beforeEnd, Quoting.next, ih]

theorem beforeEnd_quote {q : Char} (hq : IsQuote q) (t : Text) :
    beforeEnd .outside (q :: t) = q :: beforeEnd (.inside q) t := by
  have he : ¬endsStatement (q :: t) = true := fun he => hq.not_ends t ((ends_iff _).2 ⟨by simp, he⟩)
  have hn : Quoting.outside.next q = .inside q := if_pos hq
  simp [beforeEnd, he, hn]

theorem beforeEnd_unquote {q : Char} (hq : IsQuote q) (t : Text) :
    beforeEnd (.inside q) (q :: t) = q :: beforeEnd .outside t := by
  simp [beforeEnd, Quoting.next, hq.ne_backslash]

theorem beforeEnd_char {c : Char} (hq : ¬IsQuote c) {t : Text} (he : ¬Ends (c :: t)) :
    beforeEnd .outside (c :: t) = c :: beforeEnd .outside t := by
  have he' : ¬endsStatement (c :: t) = true := fun h => he ((ends_iff _).2 ⟨by simp, h⟩)
  have hn : Quoting.outside.next c = .outside := if_neg hq
  simp [beforeEnd, he', hn]

theorem beforeEnd_ends {t : Text} (h : Ends t) : beforeEnd .outside t = [] := by
  obtain ⟨hne, he⟩ := (ends_iff t).1 h
  obtain ⟨c, r, rfl⟩ := List.exists_cons_of_ne_nil hne
  simp [beforeEnd, he]

theorem Before.beforeEnd {r p : Text} (h : Before r p) : beforeEnd .outside r = p := by
  induction h with
  | nil => rfl
  | ends he => exact beforeEnd_ends he
  | char hq he _ ih => rw [beforeEnd_char hq he, ih]
  | string hq hb _ ih =>
    rw [List.cons_append, beforeEnd_quote hq, beforeEnd_quoted hb, beforeEnd_unquote hq, ih, List.cons_append]
  | openString hq hb =>
    have h := beforeEnd_quoted hb []
    simp only [List.append_nil, Accessors.beforeEnd] at h
    rw [beforeEnd_quote hq, h]
  | openEscape hq hb =>
    rw [List.cons_append, beforeEnd_quote hq, beforeEnd_quoted hb]
    simp [Accessors.beforeEnd]

/-- Behind a quote there is a string with its end, or one that is left open, perhaps
    behind a backslash. -/
theorem quoted_cases (q : Char) : ∀ t : Text, (∃ b r, t = b ++ q :: r ∧ Quoted q b) ∨ Quoted q t ∨
    ∃ b, t = b ++ ['\x5c'] ∧ Quoted q b
  | [] => .inr (.inl .nil)
  | [c] => by
    by_cases hq : c = q
    · exact .inl ⟨[], [], by simp [hq], .nil⟩
    by_cases hs : c = '\x5c'
    · exact .inr (.inr ⟨[], by simp [hs], .nil⟩)
    · exact .inr (.inl (.char hq hs .nil))
  | c :: d :: t => by
    by_cases hq : c = q
    · exact .inl ⟨[], d :: t, by simp [hq], .nil⟩
    by_cases hs : c = '\x5c'
    · subst hs
      rcases quoted_cases q t with ⟨b, r, rfl, hb⟩ | hb | ⟨b, rfl, hb⟩
      · exact .inl ⟨'\x5c' :: d :: b, r, rfl, .escape hb⟩
      · exact .inr (.inl (.escape hb))
      · exact .inr (.inr ⟨'\x5c' :: d :: b, rfl, .escape hb⟩)
    · rcases quoted_cases q (d :: t) with ⟨b, r, hr, hb⟩ | hb | ⟨b, hr, hb⟩
      · exact .inl ⟨c :: b, r, by rw [hr]; rfl, .char hq hs hb⟩
      · exact .inr (.inl (.char hq hs hb))
      · exact .inr (.inr ⟨c :: b, by rw [hr]; rfl, .char hq hs hb⟩)

theorem exists_before (r : Text) : ∃ p, Before r p := by
  induction hn : r.length using Nat.strong_induction_on generalizing r with
  | _ n ih =>
    cases r with
    | nil => exact ⟨[], .nil⟩
    | cons c r =>
      have hlen : r.length < n := by rw [← hn]; simp
      by_cases he : Ends (c :: r)
      · exact ⟨[], .ends he⟩
      by_cases hq : IsQuote c
      · rcases quoted_cases c r with ⟨b, u, rfl, hb⟩ | hb | ⟨b, rfl, hb⟩
        · obtain ⟨p, hp⟩ := ih u.length (by simp at hlen; omega) u rfl
          exact ⟨_, .string hq hb hp⟩
        · exact ⟨_, .openString hq hb⟩
        · exact ⟨_, .openEscape hq hb⟩
      · obtain ⟨p, hp⟩ := ih r.length hlen r rfl
        exact ⟨_, .char hq he hp⟩

theorem before_iff {r p : Text} : Before r p ↔ beforeEnd .outside r = p := by
  constructor
  · exact Before.beforeEnd
  · intro h
    obtain ⟨q, hq⟩ := exists_before r
    have hpq : p = q := h.symm.trans hq.beforeEnd
    rw [hpq]
    exact hq

theorem default?_iff {s : Text} {d : Option Text} : Declaration.default? s = some d ↔ Value s d := by
  constructor
  · intro h
    unfold Declaration.default? at h
    split at h
    · cases h
      exact .done
    · cases h
      exact .comma _
    · cases h
    · rename_i r hne
      cases h
      refine .assigned fun he => ?_
      cases r with
      | nil => cases he
      | cons c r =>
        simp only [List.head?_cons, Option.some.injEq] at he
        exact hne r (by rw [he])
    · cases h
  · intro h
    cases h with
    | done => rfl
    | comma => rfl
    | assigned hne =>
      unfold Declaration.default?
      split <;> simp_all

/-! ## The variable -/

/-- Behind a name, and the blanks there, the statement tells the default value. -/
theorem ofVariable?_name {w r : Text} {n : Name} (hn : IsName n) (he : EndsName (w ++ r))
    (hw : ∀ c ∈ w, Text.isBlank c = true) (hr : Flush r) (hint : Option Text) :
    Declaration.ofVariable? hint ('$' :: n.text ++ w ++ r) =
      (Declaration.default? (statement r)).map fun d => ⟨n, hint, d⟩ := by
  have htake : Name.take? (n.text ++ w ++ r) = some (n, w ++ r) :=
    Name.take?_iff.2 ⟨by rw [List.append_assoc], hn, he⟩
  have htrim : Text.trimStart (w ++ r) = r := by
    rw [Text.trimStart, List.dropWhile_append_of_pos hw]
    cases r with
    | nil => rfl
    | cons c r => simp [Text.flush_cons.1 hr]
  simp only [List.cons_append, Declaration.ofVariable?, htake, htrim]

theorem Variable.ofVariable? {v : Text} {n : Name} {default : Option Text} (h : Variable v n default)
    (hint : Option Text) : Declaration.ofVariable? hint v = some ⟨n, hint, default⟩ := by
  obtain ⟨hn, he, hw, hr, hp, hd⟩ := h
  rw [ofVariable?_name hn he hw hr, statement, before_iff.1 hp, default?_iff.2 hd, Option.map_some]

theorem exists_variable {hint : Option Text} {v : Text} {d : Declaration}
    (h : Declaration.ofVariable? hint v = some d) : ∃ n default, d = ⟨n, hint, default⟩ ∧ Variable v n default := by
  unfold Declaration.ofVariable? at h
  split at h
  · split at h
    · rename_i _ r _ n s hs
      obtain ⟨default, hd, rfl⟩ := Option.map_eq_some_iff.1 h
      obtain ⟨rfl, hn, he⟩ := Name.take?_iff.1 hs
      refine ⟨n, default, rfl, ?_⟩
      have hs' : s = s.takeWhile Text.isBlank ++ Text.trimStart s := List.takeWhile_append_dropWhile.symm
      have hv := Variable.mk hn (hs' ▸ he) (fun c hc => List.mem_takeWhile_imp hc) (Text.flush_dropWhile s)
        (before_iff.2 rfl) (default?_iff.1 hd)
      rwa [List.append_assoc, ← Text.trimStart, ← hs'] at hv
    · cases h
  · cases h

theorem Variable.head? {v : Text} {n : Name} {default : Option Text} (h : Variable v n default) :
    v.head? = some '$' := by
  obtain ⟨_, _, _, _, _, _⟩ := h
  rfl

/-! ## The scan -/

/-- A scan goes by the first word. -/
theorem scan?_word {w g u : Text} (hw : Solid w) (hg : ∀ c ∈ g, Text.isBlank c = true) (hu : Flush u)
    (hgu : g = [] → u = []) (hne : w ++ g ≠ []) :
    Declaration.scan? (w ++ g ++ u) =
      if Keyword.isModifier w then Declaration.scan? u
      else if (w ++ g ++ u).head? = some '$' then Declaration.ofVariable? none (w ++ g ++ u)
      else if isHint w then Declaration.ofVariable? (some w) u else none := by
  have hchunks : Text.chunks (w ++ g ++ u) = ⟨w, g⟩ :: Text.chunks u := by
    by_cases e : g = []
    · have hu' := hgu e
      subst e hu'
      simpa [Text.chunks] using Text.chunks_word hw (by simpa using hne)
    · exact Text.chunks_word_gap hw ⟨e, hg⟩ hu
  unfold Declaration.scan?
  rw [hchunks, List.dropWhile_cons]
  split
  · rfl
  · have hall : ((⟨w, g⟩ : Text.Chunk) :: Text.chunks u).flatMap Text.Chunk.text = w ++ g ++ u := by
      rw [← hchunks, Text.flatMap_chunks]
    rw [Declaration.ofChunks?, hall]
    simp only [Text.flatMap_chunks]

theorem not_modifier_of_dollar {w : Text} (h : w.head? = some '$') : Keyword.isModifier w = false := by
  rw [← Bool.not_eq_true, Keyword.isModifier_iff]
  intro hm
  exact absurd (hm.modifier_letter '$' (List.mem_of_mem_head? h)) (by decide)

theorem scan?_modifier {w g u : Text} (hw : Keyword.AnyCase Keyword.modifiers w) (hg : Gap g) (hu : Flush u) :
    Declaration.scan? (w ++ g ++ u) = Declaration.scan? u := by
  rw [scan?_word hw.modifier_solid hg.2 hu (fun h => absurd h hg.1) (by simp [hg.1]),
    if_pos ((Keyword.isModifier_iff w).2 hw)]

theorem scan?_variable {v : Text} (hv : v.head? = some '$') :
    Declaration.scan? v = Declaration.ofVariable? none v := by
  obtain ⟨w, g, u, rfl, hw, hg, hu, hgu⟩ := Text.exists_word v
  have hne : w ≠ [] := by
    intro e
    subst e
    cases g with
    | nil => simp [hgu rfl] at hv
    | cons c g =>
      have hc := hg c (by simp)
      have he : c = '$' := by simpa using hv
      exact absurd (he ▸ hc) (by decide)
  have hwd : w.head? = some '$' := by
    obtain ⟨c, r, rfl⟩ := List.exists_cons_of_ne_nil hne
    simpa using hv
  rw [scan?_word hw hg hu hgu (by simp [hne]), if_neg (by simp [not_modifier_of_dollar hwd]), if_pos hv]

theorem scan?_hint {h g v : Text} (hh : Hint h) (hg : Gap g) (hv : Flush v) :
    Declaration.scan? (h ++ g ++ v) = Declaration.ofVariable? (some h) v := by
  have hm : ¬Keyword.isModifier h = true := by
    rw [Keyword.isModifier_iff]
    exact hh.not_modifier
  have hd : ¬(h ++ g ++ v).head? = some '$' := by
    obtain ⟨c, r, rfl⟩ := List.exists_cons_of_ne_nil hh.ne_nil
    exact hh.head?_ne
  rw [scan?_word hh.solid hg.2 hv (fun e => absurd e hg.1) (by simp [hg.1]), if_neg hm, if_neg hd,
    if_pos ((isHint_iff h).2 hh)]

/-! ## The grammar is what is scanned -/

theorem flush_variable {m h v : Text} {hint : Option Text} (hm : Modifiers m) (hh : HintPart h hint)
    (hv : v.head? = some '$') : Flush (m ++ h ++ v) := by
  cases hm with
  | cons hw hg _ =>
    rw [List.append_assoc, List.append_assoc, List.append_assoc]
    exact hw.modifier_solid.flush_append hw.modifier_ne_nil
  | nil =>
    cases hh with
    | none =>
      intro c hc
      obtain rfl := Option.some.inj (hv.symm.trans hc)
      decide
    | some hh _ =>
      rw [List.nil_append, List.append_assoc]
      exact hh.solid.flush_append hh.ne_nil

/-- Modifiers and a hint are passed over up to the variable. -/
theorem scan?_upTo {m h v : Text} {hint : Option Text} (hm : Modifiers m) (hh : HintPart h hint)
    (hv : v.head? = some '$') : Declaration.scan? (m ++ h ++ v) = Declaration.ofVariable? hint v := by
  induction hm with
  | nil =>
    cases hh with
    | none => exact scan?_variable hv
    | some hh hg => exact scan?_hint hh hg (flush_variable .nil .none hv)
  | cons hw hg hm ih =>
    rw [List.append_assoc _ h v, List.append_assoc, ← List.append_assoc _ h v,
      scan?_modifier hw hg (flush_variable hm hh hv), ih]

theorem Declares.scan? {t : Text} {d : Declaration} (h : Declares t d) : Declaration.scan? t = some d := by
  obtain ⟨hm, hh, hv⟩ := h
  rw [scan?_upTo hm hh hv.head?, hv.ofVariable?]

theorem declares_of_scan? {t : Text} {d : Declaration} (h : Declaration.scan? t = some d) : Declares t d := by
  induction hn : t.length using Nat.strong_induction_on generalizing t with
  | _ n ih =>
    obtain ⟨w, g, u, rfl, hw, hg, hu, hgu⟩ := Text.exists_word t
    by_cases hne : w ++ g = []
    · obtain ⟨rfl, rfl⟩ := List.append_eq_nil_iff.1 hne
      rw [hgu rfl] at h
      cases h
    rw [scan?_word hw hg hu hgu hne] at h
    have hgap : u ≠ [] → Gap g := fun hune => ⟨fun e => hune (hgu e), hg⟩
    by_cases hmod : Keyword.isModifier w = true
    · rw [if_pos hmod] at h
      have hune : u ≠ [] := by
        intro e
        subst e
        cases h
      have hlen : u.length < n := by
        have hpos := List.length_pos_iff.2 hne
        rw [← hn, List.length_append]
        omega
      obtain ⟨hm, hh, hv⟩ := ih u.length hlen h rfl
      have hm' := Modifiers.cons ((Keyword.isModifier_iff w).1 hmod) (hgap hune) hm
      simpa only [List.append_assoc] using Declares.mk hm' hh hv
    · rw [if_neg hmod] at h
      split at h
      · obtain ⟨n, default, rfl, hv⟩ := exists_variable h
        have hd := Declares.mk .nil .none hv
        rwa [List.nil_append, List.nil_append] at hd
      · by_cases hhint : isHint w = true
        · rw [if_pos hhint] at h
          obtain ⟨n, default, rfl, hv⟩ := exists_variable h
          have hune : u ≠ [] := by
            intro e
            subst e
            cases hv.head?
          have hd := Declares.mk .nil (.some ((isHint_iff w).1 hhint) (hgap hune)) hv
          rwa [List.nil_append] at hd
        · rw [if_neg hhint] at h
          cases h

/-- Name and hint of a declaration stand in its text. -/
theorem Declares.parts {t : Text} {d : Declaration} (h : Declares t d) :
    IsName d.name ∧ d.name.text.Sublist t ∧ ∀ hint ∈ d.hint, hint.Sublist t := by
  obtain ⟨hm, hh, hv⟩ := h
  rename_i m h v n hint default
  refine ⟨?_, ?_, ?_⟩
  · cases hv with
    | mk hn => exact hn
  · refine List.Sublist.trans ?_ (List.sublist_append_right (m ++ h) v)
    cases hv with
    | @mk w r =>
      rw [List.cons_append, List.cons_append, List.append_assoc]
      exact (List.sublist_append_left n.text (w ++ r)).cons _
  · intro u hu
    cases hh with
    | none => cases hu
    | @some h g =>
      obtain rfl := Option.some.inj hu
      exact ((List.sublist_append_left h g).trans (List.sublist_append_right m _)).trans (List.sublist_append_left _ v)

/-- A scan finds the declaration that the grammar gives a text, with its name, hint and
    default value, and finds none where the grammar gives none. -/
theorem scan?_eq_some_iff (t : Text) :
    (∀ d, Declaration.scan? t = some d ↔ Declares t d) ∧ (Declaration.scan? t = none ↔ ∀ d, ¬Declares t d) := by
  have hiff : ∀ d, Declaration.scan? t = some d ↔ Declares t d := fun _ => ⟨declares_of_scan?, Declares.scan?⟩
  refine ⟨hiff, ?_⟩
  rw [Option.eq_none_iff_forall_ne_some]
  exact forall_congr' fun d => not_congr (hiff d)

end Accessors.Grammar
