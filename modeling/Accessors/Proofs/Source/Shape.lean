/-
  Accessors.Proofs.Source.Shape — which values are numbers, and that a value has one shape.

  Whole numbers are written in four bases, each with its own digits and underscores among
  them (`Whole`). Floating-point numbers have a point, an exponent or both, and their
  digits are those of any script (`Floating`). Each literal has a test that a value passes
  or not (`passes`).
  - `isInt_iff`, `isFloat_iff`: the tests for numbers are passed by these and nothing else;
  - `ofBare?_eq_some_iff`: what is inferred is the literal whose test is passed, so that
    there is one at most and the order of the tests makes no difference
    (`find?_passes`).
-/
import Accessors.Proofs.Source.Compound

namespace Accessors.Literal

/-! ## Numbers as they are written -/

/-- One character at least, and each of them one of `chars`. -/
def Run (chars : String) (t : Text) : Prop := t ≠ [] ∧ ∀ c ∈ t, c ∈ chars.toList

inductive UnsignedWhole : Text → Prop
  | hexadecimal {x : Char} {t : Text} : x = 'x' ∨ x = 'X' → Run "0123456789abcdefABCDEF_" t →
      UnsignedWhole ('0' :: x :: t)
  | binary {b : Char} {t : Text} : b = 'b' ∨ b = 'B' → Run "01_" t → UnsignedWhole ('0' :: b :: t)
  | octal {o t : Text} : o = [] ∨ o = ['o'] ∨ o = ['O'] → Run "01234567_" t → UnsignedWhole ('0' :: (o ++ t))
  | decimal {c : Char} {t : Text} : c ∈ "123456789".toList → (∀ d ∈ t, d ∈ "0123456789_".toList) →
      UnsignedWhole (c :: t)
  | zero : UnsignedWhole ['0']

inductive UnsignedFloating : Text → Prop
  | point {i f x : Text} : i = [] ∨ Digits i → Digits f → x = [] ∨ Exponent x →
      UnsignedFloating (i ++ '.' :: (f ++ x))
  | lastPoint {i x : Text} : Digits i → x = [] ∨ Exponent x → UnsignedFloating (i ++ '.' :: x)
  | power {i x : Text} : Digits i → Exponent x → UnsignedFloating (i ++ x)

/-- A whole number behind a sign or none. -/
def Whole (v : Text) : Prop := ∃ s u, Signed s ∧ UnsignedWhole u ∧ v = s ++ u

/-- A floating-point number behind a sign or none. -/
def Floating (v : Text) : Prop := ∃ s u, Signed s ∧ UnsignedFloating u ∧ v = s ++ u

/-! ## Signs -/

def isSign (c : Char) : Bool := c = '+' || c = '-'

theorem not_sign_of_isDigit {c : Char} (h : Text.isDigit c = true) : isSign c = false := by
  rw [← Bool.not_eq_true]
  intro hsign
  rw [isSign, Bool.or_eq_true, decide_eq_true_eq, decide_eq_true_eq] at hsign
  rcases hsign with rfl | rfl <;> exact absurd h (by decide)

theorem unsigned_append {s u : Text} (hs : Signed s) (hu : ∀ c ∈ u.head?, isSign c = false) : unsigned (s ++ u) = u := by
  rcases hs with rfl | rfl | rfl
  · cases u with
    | nil => rfl
    | cons c r =>
      have hc : ¬(c = '+' ∨ c = '-') := by simpa [isSign] using hu c rfl
      exact if_neg hc
  · rfl
  · rfl

/-! ## Whole numbers -/

/-- A class of ASCII characters is the list of its members. -/
theorem class_iff {p : Char → Bool} {chars : Text} (hp : ∀ {c}, p c = true → isNameChar c = true)
    (hall : ∀ n < 128, p (Char.ofNat n) = true ↔ Char.ofNat n ∈ chars) (hchars : chars.Forall (·.toNat < 128))
    (c : Char) : p c = true ↔ c ∈ chars := by
  constructor
  · intro h
    have hn := hall _ (Grammar.IsTypeChar.ascii (.inl (hp h)))
    rw [Char.ofNat_toNat] at hn
    exact hn.1 h
  · intro h
    have hn := hall _ (List.forall_iff_forall_mem.1 hchars c h)
    rw [Char.ofNat_toNat] at hn
    exact hn.2 h

theorem isHexChar_iff (c : Char) : isHexChar c = true ↔ c ∈ "0123456789abcdefABCDEF_".toList :=
  class_iff isNameChar_of_isHexChar (by decide +kernel) (by decide) c

theorem isBinaryChar_iff (c : Char) : isBinaryChar c = true ↔ c ∈ "01_".toList :=
  class_iff isNameChar_of_isBinaryChar (by decide) (by decide) c

theorem isOctalChar_iff (c : Char) : isOctalChar c = true ↔ c ∈ "01234567_".toList :=
  class_iff isNameChar_of_isOctalChar (by decide) (by decide) c

theorem isDecimalChar_iff (c : Char) : isDecimalChar c = true ↔ c ∈ "0123456789_".toList :=
  class_iff isNameChar_of_isDecimalChar (by decide) (by decide) c

theorem isRunOf_iff {p : Char → Bool} {chars : String} (hp : ∀ c, p c = true ↔ c ∈ chars.toList) (t : Text) :
    isRunOf p t = true ↔ Run chars t := by
  rw [isRunOf, Bool.and_eq_true, Bool.not_eq_true', List.isEmpty_eq_false_iff, List.all_eq_true, Run]
  exact and_congr_right fun _ => forall₂_congr fun c _ => hp c

theorem first_iff (c : Char) : '1' ≤ c ∧ c ≤ '9' ↔ c ∈ "123456789".toList := by
  rw [← class_iff (p := fun c => decide ('1' ≤ c) && decide (c ≤ '9')) ?_ (by decide) (by decide), Bool.and_eq_true,
    decide_eq_true_eq, decide_eq_true_eq]
  intro c hc
  rw [Bool.and_eq_true, decide_eq_true_eq, decide_eq_true_eq] at hc
  apply isNameChar_of_isDecimalChar
  rw [isDecimalChar, Bool.or_eq_true, Bool.and_eq_true, decide_eq_true_eq, decide_eq_true_eq]
  exact .inl ⟨Char.le_trans (by decide) hc.1, hc.2⟩

theorem unsignedWhole_of {u : Text} (h : isUnsignedInt u = true) : UnsignedWhole u := by
  unfold isUnsignedInt at h
  split at h
  · exact .zero
  · rename_i c r
    by_cases hx : c = 'x' ∨ c = 'X'
    · rw [if_pos hx] at h
      exact .hexadecimal hx ((isRunOf_iff isHexChar_iff r).1 h)
    rw [if_neg hx] at h
    by_cases hb : c = 'b' ∨ c = 'B'
    · rw [if_pos hb] at h
      exact .binary hb ((isRunOf_iff isBinaryChar_iff r).1 h)
    rw [if_neg hb] at h
    by_cases ho : c = 'o' ∨ c = 'O'
    · rw [if_pos ho] at h
      refine .octal (o := [c]) ?_ ((isRunOf_iff isOctalChar_iff r).1 h)
      rcases ho with rfl | rfl
      · exact .inr (.inl rfl)
      · exact .inr (.inr rfl)
    · rw [if_neg ho, List.all_eq_true] at h
      exact .octal (o := []) (.inl rfl) ⟨List.cons_ne_nil c r, fun d hd => (isOctalChar_iff d).1 (h d hd)⟩
  · rename_i c r _ _
    rw [Bool.and_eq_true, Bool.and_eq_true, decide_eq_true_eq, decide_eq_true_eq, List.all_eq_true] at h
    exact .decimal ((first_iff c).1 h.1) fun d hd => (isDecimalChar_iff d).1 (h.2 d hd)
  · cases h

theorem UnsignedWhole.isUnsignedInt {u : Text} (h : UnsignedWhole u) : isUnsignedInt u = true := by
  cases h with
  | hexadecimal hx ht =>
    have hrun := (isRunOf_iff isHexChar_iff _).2 ht
    rcases hx with rfl | rfl <;> exact hrun
  | binary hb ht =>
    have hrun := (isRunOf_iff isBinaryChar_iff _).2 ht
    rcases hb with rfl | rfl <;> exact hrun
  | @octal o t ho ht =>
    have hrun := (isRunOf_iff isOctalChar_iff t).2 ht
    rcases ho with rfl | rfl | rfl
    · -- The first of the digits is no letter, so that it is none of the marks of a base.
      obtain ⟨c, r, rfl⟩ := List.exists_cons_of_ne_nil ht.1
      have hmarks : ∀ d ∈ "01234567_".toList, ¬(d = 'x' ∨ d = 'X') ∧ ¬(d = 'b' ∨ d = 'B') ∧ ¬(d = 'o' ∨ d = 'O') :=
        List.forall_iff_forall_mem.1 (by decide)
      obtain ⟨hx, hb, ho⟩ := hmarks c (ht.2 c List.mem_cons_self)
      have hall : (c :: r).all isOctalChar = true := (Bool.and_eq_true_iff.1 hrun).2
      show (if _ then _ else _) = true
      rw [if_neg hx, if_neg hb, if_neg ho, hall]
    · exact hrun
    · exact hrun
  | @decimal c t hc ht =>
    have hzero : c ≠ '0' := by
      rintro rfl
      exact absurd hc (by decide)
    have hrest : t.all isDecimalChar = true := List.all_eq_true.2 fun d hd => (isDecimalChar_iff d).2 (ht d hd)
    obtain ⟨hlow, hhigh⟩ := (first_iff c).2 hc
    unfold Literal.isUnsignedInt
    split
    · rfl
    · rename_i he
      exact absurd (List.cons.inj he).1 hzero
    · rename_i he
      obtain ⟨rfl, rfl⟩ := List.cons.inj he
      simp [hlow, hhigh, hrest]
    · rename_i he
      cases he
  | zero => rfl

theorem UnsignedWhole.head {u : Text} (h : UnsignedWhole u) : ∀ c ∈ u.head?, isSign c = false := by
  obtain ⟨c, r, rfl, hc, -⟩ := exists_digit h.isUnsignedInt
  intro d hd
  obtain rfl : c = d := Option.some.inj hd
  rw [← Bool.not_eq_true]
  intro hsign
  rw [isSign, Bool.or_eq_true, decide_eq_true_eq, decide_eq_true_eq] at hsign
  rcases hsign with rfl | rfl <;> exact absurd hc (by decide)

theorem isInt_iff (v : Text) : isInt v = true ↔ Whole v := by
  constructor
  · intro h
    obtain ⟨s, hs, hv⟩ := exists_sign v
    exact ⟨s, unsigned v, hs, unsignedWhole_of h, hv⟩
  · rintro ⟨s, u, hs, hu, rfl⟩
    rw [isInt, unsigned_append hs hu.head]
    exact hu.isUnsignedInt

/-! ## Floating-point numbers -/

theorem Digits.isDigitRun {t : Text} (h : Digits t) : isDigitRun t = true := by
  obtain ⟨c, r, rfl, hc, hr⟩ := h
  exact Bool.and_eq_true_iff.2 ⟨hc, List.all_eq_true.2 hr⟩

theorem Digits.run {t : Text} (h : Digits t) : ∀ c ∈ t, isRunChar c = true := by
  obtain ⟨c, r, rfl, hc, hr⟩ := h
  exact List.forall_mem_cons.2 ⟨Bool.or_eq_true_iff.2 (.inl hc), hr⟩

theorem Digits.head {t r : Text} (h : Digits t) : ∀ c ∈ (t ++ r).head?, Text.isDigit c = true := by
  obtain ⟨c, u, rfl, hc, -⟩ := h
  intro d hd
  obtain rfl : c = d := Option.some.inj hd
  exact hc

theorem Exponent.isExponent {x : Text} (h : Exponent x) : isExponent x = true := by
  obtain ⟨e, s, d, rfl, he, hs, hne, hd⟩ := h
  have hsign : unsigned (s ++ d) = d := by
    refine unsigned_append hs fun c hc => not_sign_of_isDigit (hd c (List.mem_of_mem_head? hc))
  have hrun : isRunOf Text.isDigit d = true :=
    Bool.and_eq_true_iff.2 ⟨by simpa using hne, List.all_eq_true.2 hd⟩
  rw [List.cons_append, Literal.isExponent, hsign, hrun]
  simpa using he

theorem Exponent.head {x : Text} (h : x = [] ∨ Exponent x) : ∀ c ∈ x.head?, isRunChar c = false := by
  intro c hc
  rcases h with rfl | ⟨e, s, d, rfl, he, -, -, -⟩
  · cases hc
  · obtain rfl : e = c := Option.some.inj hc
    rcases he with rfl | rfl <;> decide

theorem Exponent.orNothing {x : Text} (h : x = [] ∨ Exponent x) : isExponentOrNothing x = true := by
  rw [isExponentOrNothing, Bool.or_eq_true, List.isEmpty_iff]
  exact h.imp_right Exponent.isExponent

theorem isUnsignedFloat_point {i f x : Text} (hi : ∀ c ∈ i, isRunChar c = true) (hf : ∀ c ∈ f, isRunChar c = true)
    (hx : x = [] ∨ Exponent x) : isUnsignedFloat (i ++ '.' :: (f ++ x)) =
      if f.isEmpty then isDigitRun i && isExponentOrNothing x
      else (i.isEmpty || isDigitRun i) && isDigitRun f && isExponentOrNothing x := by
  obtain ⟨hwhole, hpoint⟩ := Text.span_append (r := '.' :: (f ++ x)) hi fun c hc => by
    obtain rfl : '.' = c := Option.some.inj hc
    decide
  obtain ⟨hfraction, hrest⟩ := Text.span_append hf (Exponent.head hx)
  unfold isUnsignedFloat
  simp only [hwhole, hpoint, hfraction, hrest]

theorem UnsignedFloating.isUnsignedFloat {u : Text} (h : UnsignedFloating u) : isUnsignedFloat u = true := by
  cases h with
  | @point i f x hi hf hx =>
    have hwhole : (i.isEmpty || isDigitRun i) = true := by
      rw [Bool.or_eq_true, List.isEmpty_iff]
      exact hi.imp_right Digits.isDigitRun
    have hchars : ∀ c ∈ i, isRunChar c = true := by
      rcases hi with rfl | hi
      · exact List.forall_mem_nil _
      · exact hi.run
    rw [isUnsignedFloat_point hchars hf.run hx, if_neg (by simpa using hf.ne_nil), hwhole, hf.isDigitRun,
      Exponent.orNothing hx]
    rfl
  | @lastPoint i x hi hx =>
    have hempty := isUnsignedFloat_point hi.run (List.forall_mem_nil _) hx
    rw [List.nil_append] at hempty
    rw [hempty, List.isEmpty_nil, if_pos rfl, hi.isDigitRun, Exponent.orNothing hx]
    rfl
  | @power i x hi hx =>
    obtain ⟨hwhole, hrest⟩ := Text.span_append hi.run (Exponent.head (.inr hx))
    unfold Literal.isUnsignedFloat
    rw [hwhole, hrest]
    split
    · obtain ⟨e, s, d, he, hmark, -⟩ := hx
      rcases hmark with rfl | rfl <;> cases he
    · show (isDigitRun i && isExponent x) = true
      rw [hi.isDigitRun, hx.isExponent]
      rfl

theorem unsignedFloating_of {u : Text} (h : isUnsignedFloat u = true) : UnsignedFloating u := by
  unfold isUnsignedFloat at h
  have hwhole : u.takeWhile isRunChar ++ u.dropWhile isRunChar = u := List.takeWhile_append_dropWhile
  rw [← hwhole]
  dsimp only at h
  split at h
  · rename_i r hr
    have hfraction : r.takeWhile isRunChar ++ r.dropWhile isRunChar = r := List.takeWhile_append_dropWhile
    rw [hr]
    split at h
    · rename_i hempty
      rw [Bool.and_eq_true] at h
      rw [List.isEmpty_iff.1 hempty, List.nil_append] at hfraction
      rw [hfraction] at h
      exact .lastPoint (digits_of_isDigitRun h.1) (exponent_or_nothing h.2)
    · rw [Bool.and_eq_true, Bool.and_eq_true, Bool.or_eq_true, List.isEmpty_iff] at h
      rw [← hfraction]
      exact .point (h.1.1.imp_right digits_of_isDigitRun) (digits_of_isDigitRun h.1.2) (exponent_or_nothing h.2)
  · rw [Bool.and_eq_true] at h
    exact .power (digits_of_isDigitRun h.1) (exponent_of_isExponent h.2)

theorem UnsignedFloating.head {u : Text} (h : UnsignedFloating u) : ∀ c ∈ u.head?, isSign c = false := by
  intro c hc
  cases h with
  | point hi _ _ =>
    rcases hi with rfl | hi
    · obtain rfl : '.' = c := Option.some.inj hc
      decide
    · exact not_sign_of_isDigit (hi.head c hc)
  | lastPoint hi _ => exact not_sign_of_isDigit (hi.head c hc)
  | power hi _ => exact not_sign_of_isDigit (hi.head c hc)

theorem isFloat_iff (v : Text) : isFloat v = true ↔ Floating v := by
  constructor
  · intro h
    obtain ⟨s, hs, hv⟩ := exists_sign v
    exact ⟨s, unsigned v, hs, unsignedFloating_of h, hv⟩
  · rintro ⟨s, u, hs, hu, rfl⟩
    rw [isFloat, unsigned_append hs hu.head]
    exact hu.isUnsignedFloat

/-! ## One shape -/

/-- A whole number has the mark of a base behind its zero, or it is of digits and
    underscores alone. -/
theorem UnsignedWhole.mark_or_digits {u : Text} (h : UnsignedWhole u) :
    (∃ m t, u = '0' :: m :: t ∧ m ∈ "xXbBoO".toList) ∨ ∀ c ∈ u, c ∈ "0123456789_".toList := by
  have hoctal : ∀ d ∈ "01234567_".toList, d ∈ "0123456789_".toList := List.forall_iff_forall_mem.1 (by decide)
  have hfirst : ∀ d ∈ "123456789".toList, d ∈ "0123456789_".toList := List.forall_iff_forall_mem.1 (by decide)
  cases h with
  | hexadecimal hx _ => exact .inl ⟨_, _, rfl, by rcases hx with rfl | rfl <;> decide⟩
  | binary hb _ => exact .inl ⟨_, _, rfl, by rcases hb with rfl | rfl <;> decide⟩
  | @octal o t ho ht =>
    rcases ho with rfl | rfl | rfl
    · exact .inr (List.forall_mem_cons.2 ⟨by decide, fun d hd => hoctal d (ht.2 d hd)⟩)
    · exact .inl ⟨_, _, rfl, by decide⟩
    · exact .inl ⟨_, _, rfl, by decide⟩
  | decimal hc ht => exact .inr (List.forall_mem_cons.2 ⟨hfirst _ hc, ht⟩)
  | zero => exact .inr (List.forall_mem_singleton.2 (by decide))

theorem UnsignedWhole.point_not_mem {u : Text} (h : UnsignedWhole u) : '.' ∉ u := by
  obtain ⟨c, r, rfl, hc, hr⟩ := exists_digit h.isUnsignedInt
  intro hmem
  rcases List.mem_cons.1 hmem with rfl | hmem
  · exact absurd hc (by decide)
  · exact absurd (hr '.' hmem) (by decide)

/-- What stands behind the digits of a number with an exponent is the mark of the exponent,
    and of no base. -/
theorem UnsignedWhole.not_floating {u : Text} (h : UnsignedWhole u) : ¬UnsignedFloating u := by
  intro hf
  cases hf with
  | point | lastPoint => exact h.point_not_mem (by simp)
  | power hi hx =>
    obtain ⟨e, s, d, rfl, he, -, -, -⟩ := hx
    rcases h.mark_or_digits with ⟨m, t, hu, hm⟩ | hdigits
    · obtain ⟨c, r, rfl, -, hr⟩ := hi
      have hmarks : ∀ m ∈ "xXbBoO".toList, ¬(m = 'e' ∨ m = 'E') ∧ isRunChar m = false :=
        List.forall_iff_forall_mem.1 (by decide)
      obtain ⟨hpower, hrun⟩ := hmarks m hm
      have hrest := (List.cons.inj hu).2
      cases r with
      | nil => exact hpower ((List.cons.inj hrest).1 ▸ he)
      | cons b r =>
        have hb := hr b List.mem_cons_self
        rw [(List.cons.inj hrest).1, hrun] at hb
        cases hb
    · have hmem := hdigits e (by simp)
      rcases he with rfl | rfl <;> exact absurd hmem (by decide)

theorem Whole.not_floating {v : Text} (h : Whole v) : ¬Floating v := by
  obtain ⟨s, u, hs, hu, rfl⟩ := h
  rintro ⟨s', u', hs', hu', he⟩
  have hsame := unsigned_append hs hu.head
  rw [he, unsigned_append hs' hu'.head] at hsame
  exact hu.not_floating (hsame ▸ hu')

/-- A number is no word. -/
theorem Numeral.not_constant {v : Text} (h : Numeral v) : Text.lower v ∉ constants := by
  have hdigit : ∀ {c : Char}, Text.isDigit c = true → ¬Text.IsLetter c := by
    intro c hc hletter
    have hall : ∀ n < 128, Text.isDigit (Char.ofNat n) = true → ¬Text.IsLetter (Char.ofNat n) := by decide +kernel
    have hn := hall c.toNat (by unfold Text.IsLetter at hletter; omega)
    rw [Char.ofNat_toNat] at hn
    exact hn hc hletter
  have hnot : ∀ {c : Char}, c ∈ v → ¬Text.IsLetter c → Text.lower v ∉ constants :=
    fun hc hletter hconstant => hletter (letters_of_constant hconstant _ hc)
  cases h with
  | @whole s c r _ hc _ =>
    refine hnot (c := c) (by simp) fun hletter => ?_
    have hlow : 48 ≤ c.toNat := hc.1
    have hhigh : c.toNat ≤ 57 := hc.2
    unfold Text.IsLetter at hletter
    omega
  | point => exact hnot (c := '.') (by simp) (by decide)
  | power _ hi _ =>
    obtain ⟨c, r, rfl, hc, -⟩ := hi
    exact hnot (c := c) (by simp) (hdigit hc)

/-- The test of each literal. -/
def passes (v : Text) : Literal → Bool
  | string => isString v
  | int => isInt v
  | float => isFloat v
  | bool => Text.lower v = "true".toList ∨ Text.lower v = "false".toList
  | null => Text.lower v = "null".toList
  | array => isBracketed v ∨ isArrayCall v

theorem ofBare?_numeral {v : Text} (h : Numeral v) :
    ofBare? v = if isInt v then some .int else if isFloat v then some .float else none := by
  have hstring : ¬isString v = true := fun hs => ((isString_iff v).1 hs).not_word.1 h
  have harray : ¬(isBracketed v = true ∨ isArrayCall v = true) := fun ha => ((isArray_iff v).1 ha).not_word.1 h
  have hconstant := h.not_constant
  simp only [constants, List.mem_cons, List.not_mem_nil, or_false, not_or] at hconstant
  obtain ⟨htrue, hfalse, hnull⟩ := hconstant
  rw [ofBare?, if_neg hstring, if_neg (not_or.2 ⟨htrue, hfalse⟩), if_neg hnull, if_neg harray]

theorem ofBare?_word {v : Text} (h : Text.lower v ∈ constants) :
    ofBare? v = if Text.lower v = "null".toList then some .null else some .bool := by
  have hstring : ¬isString v = true := fun hs => ((isString_iff v).1 hs).not_word.2 h
  have hint : ¬isInt v = true := fun hi => (numeral_of_isInt hi).not_constant h
  have hfloat : ¬isFloat v = true := fun hf => (numeral_of_isFloat hf).not_constant h
  rw [ofBare?, if_neg hstring, if_neg hint, if_neg hfloat]
  simp only [constants, List.mem_cons, List.not_mem_nil, or_false] at h
  rcases h with h | h | h
  · rw [h]
    rfl
  · rw [h]
    rfl
  · rw [h]
    rfl

/-- What is inferred is the literal whose test is passed. -/
theorem ofBare?_eq_some_iff (v : Text) (l : Literal) : ofBare? v = some l ↔ passes v l = true := by
  constructor
  · intro h
    unfold ofBare? at h
    split_ifs at h with hstring hint hfloat hbool hnull harray
    all_goals cases h
    · exact hstring
    · exact hint
    · exact hfloat
    · exact decide_eq_true hbool
    · exact decide_eq_true hnull
    · exact decide_eq_true harray
  · intro h
    cases l with
    | string => exact (ofBare?_string v).2 ((isString_iff v).1 h)
    | int =>
      have hint : isInt v = true := h
      rw [ofBare?_numeral (numeral_of_isInt hint), if_pos hint]
    | float =>
      have hfloat : isFloat v = true := h
      have hint : ¬isInt v = true := fun hi => ((isInt_iff v).1 hi).not_floating ((isFloat_iff v).1 hfloat)
      rw [ofBare?_numeral (numeral_of_isFloat hfloat), if_neg hint, if_pos hfloat]
    | bool =>
      have hbool := of_decide_eq_true h
      rcases hbool with htrue | hfalse
      · rw [ofBare?_word (by rw [htrue]; decide), htrue]
        rfl
      · rw [ofBare?_word (by rw [hfalse]; decide), hfalse]
        rfl
    | null =>
      have hnull : Text.lower v = "null".toList := of_decide_eq_true h
      rw [ofBare?_word (by rw [hnull]; decide), if_pos hnull]
    | array => exact (ofBare?_array v).2 ((isArray_iff v).1 (of_decide_eq_true h))

theorem passes_unique {v : Text} {l l' : Literal} (h : passes v l = true) (h' : passes v l' = true) : l = l' := by
  rw [← ofBare?_eq_some_iff] at h h'
  exact Option.some.inj (h.symm.trans h')

/-- The first of the tests that is passed, in whatever order they are tried. -/
theorem find?_passes (v : Text) {order : List Literal} (h : ∀ l, l ∈ order) :
    order.find? (passes v) = ofBare? v := by
  cases hfind : order.find? (passes v) with
  | some l => exact ((ofBare?_eq_some_iff v l).2 (List.find?_some hfind)).symm
  | none =>
    cases hbare : ofBare? v with
    | none => rfl
    | some l =>
      have hnot := List.find?_eq_none.1 hfind l (h l)
      exact absurd ((ofBare?_eq_some_iff v l).1 hbare) hnot

/-- For any expression, without the blanks around it and the semicolons behind it: it is
    taken for a whole or a floating-point number if and only if it is written as one. No
    value passes two of the six tests, so that trying them in another order, or one of them
    again, leads to the same. -/
theorem infer?_exact (expression : Text) :
    (infer? expression = some .int ↔ Whole (bare expression)) ∧
    (infer? expression = some .float ↔ Floating (bare expression)) ∧
    (∀ v l l', passes v l = true → passes v l' = true → l = l') ∧
    ∀ order : List Literal, (∀ l, l ∈ order) → order.find? (passes (bare expression)) = infer? expression := by
  refine ⟨?_, ?_, fun v l l' => passes_unique, fun order h => find?_passes _ h⟩
  · rw [← isInt_iff]
    exact ofBare?_eq_some_iff _ _
  · rw [← isFloat_iff]
    exact ofBare?_eq_some_iff _ _

/-- A number in hexadecimal digits, one with an exponent in digits of another script, and
    the tests from the last to the first. -/
theorem infer?_exact_sample : infer? " -0x1e_F; ".toList = some .int ∧ infer? "٣_.e+٤".toList = some .float ∧
    passes "0".toList .int = true ∧ passes "0".toList .float ≠ true ∧
    [array, null, bool, float, int, string].find? (passes (bare "1e5".toList)) = some .float := by
  have hwhole : Whole (bare " -0x1e_F; ".toList) := by
    have hbare : bare " -0x1e_F; ".toList = "-0x1e_F".toList := by decide +kernel
    rw [hbare]
    exact ⟨['-'], "0x1e_F".toList, .inr (.inr rfl),
      .hexadecimal (.inl rfl) ⟨by decide, List.forall_iff_forall_mem.1 (by decide)⟩, rfl⟩
  have hfloating : Floating (bare "٣_.e+٤".toList) := by
    have hbare : bare "٣_.e+٤".toList = "٣_.e+٤".toList := by decide +kernel
    have hdigits : Digits "٣_".toList := ⟨'٣', ['_'], rfl, by decide, List.forall_iff_forall_mem.1 (by decide)⟩
    have hexponent : Exponent "e+٤".toList :=
      ⟨'e', ['+'], ['٤'], rfl, .inl rfl, .inr (.inl rfl), by decide, List.forall_iff_forall_mem.1 (by decide)⟩
    rw [hbare]
    exact ⟨[], "٣_.e+٤".toList, .inl rfl, .lastPoint hdigits (.inr hexponent), rfl⟩
  have hzero : passes "0".toList .int = true := by decide
  refine ⟨(infer?_exact _).1.2 hwhole, (infer?_exact _).2.1.2 hfloating, hzero, fun hfloat => ?_, ?_⟩
  · exact absurd ((infer?_exact []).2.2.1 _ _ _ hzero hfloat) (by decide)
  · rw [(infer?_exact "1e5".toList).2.2.2 _ fun l => by cases l <;> decide]
    decide +kernel

end Accessors.Literal
