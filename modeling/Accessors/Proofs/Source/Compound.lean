/-
  Accessors.Proofs.Source.Compound — compound expressions, and what is inferred of them.

  A compound expression has an operator outside of strings and brackets (`Compound`). If a
  literal is opened at its start, then what stands before the operator holds the end of
  that (`Opens.exists_rest`, `Opens.exists_end`), so that it is no single literal
  (`Compound.not_single`), and no number or word either (`Compound.not_word`).
  - `infer?_fenced`: which values are taken for a string or an array, which of them are
    one, and which compound expressions are taken for none;
  - `infer?_concatenation`: two strings with a point between them are taken for one.
-/
import Accessors.Proofs.Source.Numeral
import Accessors.Proofs.Source.Single
import Mathlib.Tactic.SplitIfs

namespace Accessors.Literal

open Grammar (IsQuote Quoted)
open Text (IsLetter)

/-! ## Compound expressions -/

def pairs : List (Char × Char) := [('(', ')'), ('[', ']'), ('\x7b', '\x7d')]

/-- Neither a quote nor a bracket. -/
def Plain (c : Char) : Prop := ¬IsQuote c ∧ ∀ p ∈ pairs, c ≠ p.1 ∧ c ≠ p.2

instance (c : Char) : Decidable (Plain c) := inferInstanceAs (Decidable (_ ∧ _))

/-- Every string and every bracket in the text is closed in it. -/
inductive Balanced : Text → Prop
  | nil : Balanced []
  | char {c : Char} {t : Text} : Plain c → Balanced t → Balanced (c :: t)
  | string {q : Char} {b t : Text} : IsQuote q → Quoted q b → Balanced t → Balanced (q :: b ++ q :: t)
  | group {p : Char × Char} {b t : Text} : p ∈ pairs → Balanced b → Balanced t → Balanced (p.1 :: b ++ p.2 :: t)

/-- What the operators between two values start with: concatenation, comparisons,
    arithmetic, conditions, and the comma before a further declarator. -/
def signs : Text := ".,=<>!+-*/%&|^?:".toList

def operatorWords : List Text := ["and".toList, "or".toList, "xor".toList, "instanceof".toList]

/-- An operator with something behind it; a word is one between blanks. -/
inductive Operator : Text → Prop
  | sign {c : Char} {r : Text} : c ∈ signs → r ≠ [] → Operator (c :: r)
  | word {g w g' r : Text} : Text.Gap g → Keyword.AnyCase operatorWords w → Text.Gap g' → r ≠ [] →
      Operator (g ++ w ++ g' ++ r)

/-- Something, an operator outside of strings and brackets, and something more, which is
    not the sign or the point of a number; or parentheses around such an expression. -/
inductive Compound : Text → Prop
  | joined {a t : Text} : a ≠ [] → Balanced a → Operator t → ¬Numeral (a ++ t) → Compound (a ++ t)
  | enclosed {v : Text} : Compound v → Compound ('(' :: v ++ [')'])

theorem Nested.append {o c : Char} {s t : Text} (hs : Nested o c s) (ht : Nested o c t) : Nested o c (s ++ t) := by
  induction hs with
  | nil => exact ht
  | char ho hc hq _ ih => exact .char ho hc hq ih
  | string hq hb _ ih =>
    rw [List.append_assoc]
    exact .string hq hb ih
  | group hb _ _ ih =>
    rw [List.append_assoc]
    exact .group hb ih

theorem not_quote_of_pair : ∀ p ∈ pairs, ¬IsQuote p.1 ∧ ¬IsQuote p.2 := by decide

/-- In a balanced text each kind of brackets stands in pairs. -/
theorem Balanced.nested {p : Char × Char} (hp : p ∈ pairs) {t : Text} (h : Balanced t) : Nested p.1 p.2 t := by
  have hother : ∀ p ∈ pairs, ∀ p' ∈ pairs, p' ≠ p → (p'.1 ≠ p.1 ∧ p'.1 ≠ p.2) ∧ p'.2 ≠ p.1 ∧ p'.2 ≠ p.2 := by decide
  induction h with
  | nil => exact .nil
  | char hc _ ih => exact .char (hc.2 p hp).1 (hc.2 p hp).2 hc.1 ih
  | string hq hb _ ih => exact .string hq hb ih
  | @group p' b t hp' _ _ ihb iht =>
    by_cases he : p' = p
    · rw [he]
      exact .group ihb iht
    · obtain ⟨hopen, hclose⟩ := hother p hp p' hp' he
      exact .char hopen.1 hopen.2 (not_quote_of_pair p' hp').1
        (ihb.append (.char hclose.1 hclose.2 (not_quote_of_pair p' hp').2 iht))

theorem Balanced.of_plain_cons {c : Char} {t : Text} (hc : Plain c) (h : Balanced (c :: t)) : Balanced t := by
  cases h with
  | char _ h => exact h
  | string hq => exact absurd hq hc.1
  | group hp => exact absurd rfl (hc.2 _ hp).1

theorem Balanced.of_plain_append {s t : Text} (hs : ∀ c ∈ s, Plain c) (h : Balanced (s ++ t)) : Balanced t := by
  induction s with
  | nil => exact h
  | cons c s ih =>
    obtain ⟨hc, hs⟩ := List.forall_mem_cons.1 hs
    exact ih hs (h.of_plain_cons hc)

/-- What follows an opening bracket in a balanced text. -/
theorem Balanced.exists_close {p : Char × Char} (hp : p ∈ pairs) {t : Text} (h : Balanced (p.1 :: t)) :
    ∃ b u, t = b ++ p.2 :: u ∧ Nested p.1 p.2 b := by
  have hunique : ∀ p ∈ pairs, ∀ p' ∈ pairs, p'.1 = p.1 → p' = p := by decide
  generalize hv : p.1 :: t = v at h
  cases h with
  | nil => cases hv
  | char hc => exact absurd (List.cons.inj hv).1.symm (hc.2 p hp).1
  | string hq => exact absurd ((List.cons.inj hv).1 ▸ hq) (not_quote_of_pair p hp).1
  | @group p' b u hp' hb _ =>
    obtain ⟨hopen, hrest⟩ := List.cons.inj hv
    obtain rfl := hunique p hp p' hp' hopen.symm
    exact ⟨b, u, hrest, hb.nested hp⟩

theorem plain_of {P : Char → Prop} (hquote : ∀ {c}, P c → ¬IsQuote c) (hpairs : ∀ p ∈ pairs, ¬P p.1 ∧ ¬P p.2)
    {c : Char} (h : P c) : Plain c := by
  refine ⟨hquote h, fun p hp => ?_⟩
  obtain ⟨hopen, hclose⟩ := hpairs p hp
  constructor
  · rintro rfl
    exact hopen h
  · rintro rfl
    exact hclose h

theorem plain_of_letter {c : Char} (h : IsLetter c) : Plain c :=
  plain_of (fun hl hq => not_letter_of_quote hq hl) (by decide) h

theorem plain_of_isBlank {c : Char} (h : Text.isBlank c = true) : Plain c :=
  plain_of (P := fun c => Text.isBlank c = true) Grammar.not_quote_of_isBlank (by decide) h

theorem sign_apart {c : Char} (h : c ∈ signs) : ¬IsLetter c ∧ Text.isBlank c = false ∧ c ≠ '(' := by
  have hall : signs.all (fun c => decide (¬IsLetter c ∧ Text.isBlank c = false ∧ c ≠ '(')) = true := by decide
  exact of_decide_eq_true (List.all_eq_true.1 hall c h)

/-- How an operator starts: with a sign, or with blanks and a letter. -/
theorem Operator.start {t : Text} (h : Operator t) : (∃ c r, t = c :: r ∧ c ∈ signs) ∨
    ∃ g c r, t = g ++ c :: r ∧ Text.Gap g ∧ IsLetter c := by
  cases h with
  | sign hc => exact .inl ⟨_, _, rfl, hc⟩
  | @word g w g' r hg hw =>
    have hwords : ∀ w ∈ operatorWords, w ≠ [] ∧ w.all Text.isPlainLetter = true := by decide
    obtain ⟨hne, hplain⟩ := hwords _ hw
    cases w with
    | nil => exact absurd rfl hne
    | cons c w =>
      have hc : IsLetter c := Keyword.isLetter_of_toLower (List.all_eq_true.1 hplain _ List.mem_cons_self)
      exact .inr ⟨g, c, w ++ g' ++ r, by simp only [List.append_assoc, List.cons_append], hg, hc⟩

theorem Operator.ne_nil {t : Text} (h : Operator t) : t ≠ [] := by
  rcases h.start with ⟨c, r, rfl, -⟩ | ⟨g, c, r, rfl, -, -⟩
  · exact List.cons_ne_nil c r
  · exact List.append_ne_nil_of_right_ne_nil g (List.cons_ne_nil c r)

/-- No operator starts with a letter, -/
theorem Operator.not_letter {c : Char} {u : Text} (h : Operator (c :: u)) : ¬IsLetter c := by
  rcases h.start with ⟨d, r, hd, hsign⟩ | ⟨g, d, r, hd, hg, -⟩
  · rw [(List.cons.inj hd).1]
    exact (sign_apart hsign).1
  · intro hc
    cases g with
    | nil => exact hg.1 rfl
    | cons b g =>
      have hb := hg.2 b List.mem_cons_self
      rw [← (List.cons.inj hd).1, hc.not_blank] at hb
      cases hb

/-- nor with a parenthesis, blanks before it or not. -/
theorem Operator.not_parenthesis {g u : Text} (hg : ∀ c ∈ g, Text.isBlank c = true) : ¬Operator (g ++ '(' :: u) := by
  intro h
  rcases h.start with ⟨d, r, hd, hsign⟩ | ⟨g', d, r, hd, hg', hletter⟩
  · cases g with
    | nil => exact (sign_apart hsign).2.2 (List.cons.inj hd).1.symm
    | cons b g =>
      have hb := hg b List.mem_cons_self
      rw [(List.cons.inj hd).1, (sign_apart hsign).2.1] at hb
      cases hb
  · have hstart : Text.trimStart (g ++ '(' :: u) = '(' :: u := by
      rw [Text.trimStart_append hg]
      exact Text.Flush.trimStart (Text.flush_cons.2 (by decide))
    rw [hd, Text.trimStart_append hg'.2, Text.Flush.trimStart (Text.flush_cons.2 hletter.not_blank)] at hstart
    exact absurd ((List.cons.inj hstart).1 ▸ hletter) (by decide)

section Opens

variable {l : Literal} {head : Text} {close : Char} {Body : Text → Prop}

/-- A balanced text in which a literal is opened holds its end. -/
theorem Opens.exists_end (h : Opens l head close Body) {x : Text} (hx : Balanced (head ++ x)) :
    ∃ b y, x = b ++ close :: y ∧ Body b := by
  cases h with
  | @quote q hq =>
    rw [List.singleton_append] at hx
    cases hx with
    | char hc => exact absurd hq hc.1
    | string _ hb => exact ⟨_, _, rfl, hb⟩
    | group hp => exact absurd hq (not_quote_of_pair _ hp).1
  | bracket => exact Balanced.exists_close (p := ('[', ']')) (by decide) hx
  | @call w g hw hg =>
    have hplain : ∀ c ∈ w ++ g, Plain c := List.forall_mem_append.2
      ⟨fun c hc => plain_of_letter (letters_of_array hw c hc), fun c hc => plain_of_isBlank (hg c hc)⟩
    rw [List.append_assoc] at hx
    exact Balanced.exists_close (p := ('(', ')')) (by decide) (hx.of_plain_append hplain)

/-- An operator stands behind what opens a literal, and not within it. -/
theorem Opens.exists_rest (h : Opens l head close Body) {a t u : Text} (ha : a ≠ []) (ht : Operator t)
    (he : a ++ t = head ++ u) : ∃ x, a = head ++ x := by
  have hfirst : ∀ c : Char, a ++ t = [c] ++ u → ∃ x, a = [c] ++ x := by
    intro c hc
    obtain ⟨d, a', rfl⟩ := List.exists_cons_of_ne_nil ha
    obtain ⟨rfl, -⟩ := List.cons.inj hc
    exact ⟨a', rfl⟩
  cases h with
  | quote hq => exact hfirst _ he
  | bracket => exact hfirst _ he
  | @call w g hw hg =>
    rw [List.append_assoc, List.append_assoc] at he
    rcases List.append_eq_append_iff.1 he with ⟨x, rfl, hx⟩ | ⟨x, rfl, hx⟩
    · -- The operator starts in the word, or right behind it.
      rw [hx] at ht
      cases x with
      | nil => exact absurd ht (Operator.not_parenthesis hg)
      | cons c x => exact absurd (letters_of_array hw c (by simp)) ht.not_letter
    rcases List.append_eq_append_iff.1 hx with ⟨y, rfl, hy⟩ | ⟨y, rfl, hy⟩
    · -- It starts at the parenthesis, if not behind it.
      cases y with
      | nil =>
        rw [List.nil_append] at hy
        rw [← hy] at ht
        exact absurd ht (Operator.not_parenthesis (g := []) (by simp))
      | cons c y =>
        obtain ⟨rfl, -⟩ := List.cons.inj hy
        exact ⟨y, by simp only [List.append_assoc, List.singleton_append]⟩
    · -- It starts in the blanks.
      rw [hy] at ht
      exact absurd ht (Operator.not_parenthesis fun c hc => hg c (List.mem_append_right x hc))

end Opens

theorem Compound.not_single {v : Text} (h : Compound v) (l : Literal) : ¬Single l v := by
  rintro ⟨head, close, Body, body, hopens, hbody, hv⟩
  cases h with
  | @joined a t ha hbalanced ht _ =>
    -- The literal that opens ends before the operator, and so not at the end.
    rw [List.append_assoc] at hv
    obtain ⟨x, rfl⟩ := hopens.exists_rest ha ht hv
    obtain ⟨b, y, rfl, hb⟩ := hopens.exists_end hbalanced
    rw [List.append_assoc, List.append_assoc] at hv
    obtain ⟨-, hrest⟩ := hopens.unique_end hb hbody (List.append_cancel_left hv)
    exact ht.ne_nil (List.append_eq_nil_iff.1 hrest).2
  | @enclosed v _ =>
    rw [List.append_assoc] at hv
    cases hopens with
    | quote hq => exact absurd ((List.cons.inj hv).1 ▸ hq) (by decide)
    | bracket => exact absurd (List.cons.inj hv).1 (by decide)
    | call hw _ => exact absurd hv.symm (call_ne hw (by decide))

/-- A compound expression is no number, and no word either. -/
theorem Compound.not_word {v : Text} (h : Compound v) : ¬Numeral v ∧ ∃ c ∈ v, ¬IsLetter c := by
  cases h with
  | joined _ _ ht hnumeral =>
    refine ⟨hnumeral, ?_⟩
    rcases ht.start with ⟨c, r, rfl, hc⟩ | ⟨g, c, r, rfl, hg, -⟩
    · exact ⟨c, List.mem_append_right _ List.mem_cons_self, (sign_apart hc).1⟩
    · obtain ⟨b, hb⟩ := List.exists_mem_of_ne_nil g hg.1
      refine ⟨b, List.mem_append_right _ (List.mem_append_left _ hb), fun hletter => ?_⟩
      have hblank := hg.2 b hb
      rw [hletter.not_blank] at hblank
      cases hblank
  | enclosed _ =>
    refine ⟨fun hn => ?_, '(', List.mem_cons_self, by decide⟩
    exact absurd (hn.chars '(' List.mem_cons_self) (by decide)

/-! ## What is inferred -/

/-- What is no number and no word of its own is judged by its ends. -/
theorem ofBare?_ends {v : Text} (hnumeral : ¬Numeral v) (hconstant : Text.lower v ∉ constants) : ofBare? v =
    if isString v then some .string else if isBracketed v ∨ isArrayCall v then some .array else none := by
  simp only [constants, List.mem_cons, List.not_mem_nil, or_false, not_or] at hconstant
  obtain ⟨htrue, hfalse, hnull⟩ := hconstant
  unfold ofBare?
  rw [if_neg fun h => hnumeral (numeral_of_isInt h), if_neg fun h => hnumeral (numeral_of_isFloat h),
    if_neg (not_or.2 ⟨htrue, hfalse⟩), if_neg hnull]

theorem Fenced.not_word {l : Literal} {v : Text} (h : Fenced l v) : ¬Numeral v ∧ Text.lower v ∉ constants := by
  obtain ⟨head, close, Body, body, hopens, rfl⟩ := h
  cases hopens with
  | quote hq =>
    refine not_word_of_mem List.mem_cons_self ?_
    rcases hq with rfl | rfl <;> decide
  | bracket => exact not_word_of_mem (c := '[') List.mem_cons_self (by decide)
  | call => exact not_word_of_mem (c := '(') (by simp) (by decide)

theorem ofBare?_string (v : Text) : ofBare? v = some .string ↔ Fenced .string v := by
  constructor
  · intro h
    rw [← isString_iff]
    by_contra hnot
    rw [ofBare?, if_neg hnot] at h
    split_ifs at h <;> cases h
  · intro h
    rw [ofBare?_ends h.not_word.1 h.not_word.2, if_pos ((isString_iff v).2 h)]

theorem ofBare?_array (v : Text) : ofBare? v = some .array ↔ Fenced .array v := by
  constructor
  · intro h
    rw [← isArray_iff]
    by_contra hnot
    rw [ofBare?, if_neg hnot] at h
    split_ifs at h <;> cases h
  · intro h
    have hstring : ¬isString v = true := by
      rw [isString_iff]
      intro hs
      cases hs.unique h
    rw [ofBare?_ends h.not_word.1 h.not_word.2, if_neg hstring, if_pos ((isArray_iff v).2 h)]

theorem Opens.string_or_array {l : Literal} {head : Text} {close : Char} {Body : Text → Prop}
    (h : Opens l head close Body) : l = .string ∨ l = .array := by
  cases h with
  | quote => exact .inl rfl
  | bracket => exact .inr rfl
  | call => exact .inr rfl

theorem infer?_iff (expression : Text) {l : Literal} (hl : l = .string ∨ l = .array) :
    infer? expression = some l ↔ Fenced l (bare expression) := by
  rcases hl with rfl | rfl
  · exact ofBare?_string _
  · exact ofBare?_array _

/-- For any expression, without the blanks around it and the semicolons behind it. It is
    taken for a string or an array if and only if it starts and ends as one does. Then it
    is a single one if and only if what stands between can stand there, and every single
    string or array is taken for what it is. A compound expression is no single literal,
    and is taken for none if and only if it does not start and end as a string or an
    array does. -/
theorem infer?_fenced (expression : Text) :
    (∀ l, l = .string ∨ l = .array → (infer? expression = some l ↔ Fenced l (bare expression))) ∧
    (∀ l head close Body body, Opens l head close Body → bare expression = head ++ body ++ [close] →
      infer? expression = some l ∧ (Single l (bare expression) ↔ Body body)) ∧
    (Compound (bare expression) → (∀ l, ¬Single l (bare expression)) ∧
      (infer? expression = none ↔ ¬Fenced .string (bare expression) ∧ ¬Fenced .array (bare expression))) := by
  refine ⟨fun l => infer?_iff expression, fun l head close Body body hopens hbare => ⟨?_, ?_⟩,
    fun h => ⟨h.not_single, ?_⟩⟩
  · exact (infer?_iff expression hopens.string_or_array).2 ⟨head, close, Body, body, hopens, hbare⟩
  · rw [hbare]
    exact single_iff hopens body
  · obtain ⟨hnumeral, c, hc, hletter⟩ := h.not_word
    have hconstant : Text.lower (bare expression) ∉ constants := fun hl => hletter (letters_of_constant hl c hc)
    unfold infer?
    rw [ofBare?_ends hnumeral hconstant, ← isString_iff, ← isArray_iff]
    split_ifs with hstring harray
    · simp [hstring]
    · simp [harray]
    · simp [hstring, harray]

/-- A number that is less than another. -/
theorem compound_comparison : Compound "1 < 2".toList := by
  have hbalanced : Balanced "1 ".toList := .char (by decide) (.char (by decide) .nil)
  have hoperator : Operator "< 2".toList := .sign (by decide) (by decide)
  refine Compound.joined (a := "1 ".toList) (by decide) hbalanced hoperator fun h => ?_
  exact absurd (h.chars '<' (by decide)) (by decide)

/-- A string with a quote of its own behind a backslash is a single one, and a comparison
    is none. -/
theorem infer?_fenced_sample : infer? "'it\x5c\x27s';".toList = some .string ∧
    Single .string (bare "'it\x5c\x27s';".toList) ∧ Compound (bare "1 < 2".toList) ∧ infer? "1 < 2".toList = none := by
  have hopens : Opens .string ['\x27'] '\x27' (Quoted '\x27') := .quote (.inl rfl)
  have hbody : Quoted '\x27' "it\x5c\x27s".toList :=
    .char (by decide) (by decide) (.char (by decide) (by decide) (.escape (.char (by decide) (by decide) .nil)))
  have hcompound : Compound (bare "1 < 2".toList) := by
    have hbare : bare "1 < 2".toList = "1 < 2".toList := by decide +kernel
    rw [hbare]
    exact compound_comparison
  obtain ⟨-, hends, -⟩ := infer?_fenced "'it\x5c\x27s';".toList
  obtain ⟨hstring, hsingle⟩ := hends _ _ _ _ "it\x5c\x27s".toList hopens (by decide +kernel)
  obtain ⟨-, -, hnone⟩ := infer?_fenced "1 < 2".toList
  refine ⟨hstring, hsingle.2 hbody, hcompound, (hnone hcompound).2.2 ⟨?_, ?_⟩⟩
  · rw [← isString_iff]
    decide +kernel
  · rw [← isArray_iff]
    decide +kernel

/-- Two strings with a point between them, and a sum of two arrays. -/
theorem infer?_concatenation :
    (infer? "'a' . 'b'".toList = some .string ∧ Compound (bare "'a' . 'b'".toList) ∧
      ¬Single .string (bare "'a' . 'b'".toList)) ∧
    infer? "[1] + [2]".toList = some .array ∧ Compound (bare "[1] + [2]".toList) ∧
      ¬Single .array (bare "[1] + [2]".toList) := by
  have hspace : Balanced " ".toList := .char (by decide) .nil
  have hstrings : Compound (bare "'a' . 'b'".toList) := by
    have hbare : bare "'a' . 'b'".toList = "'a' ".toList ++ ". 'b'".toList := by decide +kernel
    have hquoted : Quoted '\x27' "a".toList := .char (by decide) (by decide) .nil
    rw [hbare]
    refine .joined (by decide) (.string (.inl rfl) hquoted hspace) (.sign (by decide) (by decide)) fun h => ?_
    exact absurd (h.chars '\x27' (by decide)) (by decide)
  have harrays : Compound (bare "[1] + [2]".toList) := by
    have hbare : bare "[1] + [2]".toList = "[1] ".toList ++ "+ [2]".toList := by decide +kernel
    have hbracket : Balanced "[1] ".toList :=
      .group (p := ('[', ']')) (by decide) (.char (by decide) .nil) hspace
    rw [hbare]
    refine .joined (by decide) hbracket (.sign (by decide) (by decide)) fun h => ?_
    exact absurd (h.chars '[' (by decide)) (by decide)
  exact ⟨⟨by decide +kernel, hstrings, hstrings.not_single _⟩, by decide +kernel, harrays, harrays.not_single _⟩

end Accessors.Literal
