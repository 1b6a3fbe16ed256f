/-
  Accessors.Proofs.Source.Numeral — what numbers and words are made of.

  A number is a digit with name characters behind it, or has digits around a point or an
  exponent (`Numeral`); a value that is a word has letters only (`letters_of_constant`).
  - `numeral_of_isInt`, `numeral_of_isFloat`: nothing else passes for a number;
  - `not_word_of_mem`: so a value with another character (`InNumeral`) is neither.
-/
import Accessors.Proofs.Source.Grammar
import Accessors.Source.Literal

namespace Accessors.Literal

/-! ## Numbers -/

/-- A sign or none. -/
def Signed (s : Text) : Prop := s = [] ∨ s = ['+'] ∨ s = ['-']

/-- A digit of any script, then digits and underscores. -/
def Digits (t : Text) : Prop := ∃ c r, t = c :: r ∧ Text.isDigit c = true ∧ ∀ d ∈ r, isRunChar d = true

/-- The part of a number behind its digits that gives a power. -/
def Exponent (x : Text) : Prop :=
  ∃ e s d, x = e :: s ++ d ∧ (e = 'e' ∨ e = 'E') ∧ Signed s ∧ d ≠ [] ∧ ∀ c ∈ d, Text.isDigit c = true

/-- What can be a number: a digit with letters, digits and underscores behind it, digits on
    one side of a point or on both, with an exponent or without, or digits with an exponent.
    A sign may stand before it. -/
inductive Numeral : Text → Prop
  | whole {s : Text} {c : Char} {r : Text} : Signed s → '0' ≤ c ∧ c ≤ '9' → (∀ d ∈ r, isNameChar d = true) →
      Numeral (s ++ c :: r)
  | point {s i f x : Text} : Signed s → i = [] ∨ Digits i → f = [] ∨ Digits f → ¬(i = [] ∧ f = []) →
      x = [] ∨ Exponent x → Numeral (s ++ (i ++ '.' :: (f ++ x)))
  | power {s i x : Text} : Signed s → Digits i → Exponent x → Numeral (s ++ (i ++ x))

theorem exists_sign (t : Text) : ∃ s, Signed s ∧ t = s ++ unsigned t := by
  cases t with
  | nil => exact ⟨[], .inl rfl, rfl⟩
  | cons c r =>
    by_cases hc : c = '+' ∨ c = '-'
    · refine ⟨[c], ?_, by rw [unsigned, if_pos hc]; rfl⟩
      rcases hc with rfl | rfl
      · exact .inr (.inl rfl)
      · exact .inr (.inr rfl)
    · exact ⟨[], .inl rfl, by rw [unsigned, if_neg hc]; rfl⟩

/-! ### Whole numbers -/

theorem isNameChar_of_isHexChar {c : Char} (h : isHexChar c = true) : isNameChar c = true := by
  simp only [isHexChar, isNameChar, isNameStart, Bool.or_eq_true, Bool.and_eq_true, decide_eq_true_eq] at h ⊢
  rcases h with ((h | h) | h) | h
  · exact .inr h
  · exact .inl (.inl (.inr ⟨h.1, Char.le_trans h.2 (by decide)⟩))
  · exact .inl (.inl (.inl ⟨h.1, Char.le_trans h.2 (by decide)⟩))
  · exact .inl (.inr h)

theorem isNameChar_of_isDecimalChar {c : Char} (h : isDecimalChar c = true) : isNameChar c = true := by
  apply isNameChar_of_isHexChar
  rw [isDecimalChar, Bool.or_eq_true] at h
  rw [isHexChar, Bool.or_eq_true, Bool.or_eq_true, Bool.or_eq_true]
  exact h.imp_left fun hdigit => .inl (.inl hdigit)

theorem isNameChar_of_isOctalChar {c : Char} (h : isOctalChar c = true) : isNameChar c = true := by
  apply isNameChar_of_isDecimalChar
  simp only [isOctalChar, isDecimalChar, Bool.or_eq_true, Bool.and_eq_true, decide_eq_true_eq] at h ⊢
  exact h.imp_left fun hdigit => ⟨hdigit.1, Char.le_trans hdigit.2 (by decide)⟩

theorem isNameChar_of_isBinaryChar {c : Char} (h : isBinaryChar c = true) : isNameChar c = true := by
  simp only [isBinaryChar, Bool.or_eq_true, decide_eq_true_eq] at h
  rcases h with (rfl | rfl) | rfl <;> decide

theorem nameChars_of_isRunOf {p : Char → Bool} (hp : ∀ {d}, p d = true → isNameChar d = true) {c : Char} {r : Text}
    (hc : isNameChar c = true) (hr : isRunOf p r = true) : ∀ d ∈ c :: r, isNameChar d = true := by
  rw [isRunOf, Bool.and_eq_true, List.all_eq_true] at hr
  exact List.forall_mem_cons.2 ⟨hc, fun d hd => hp (hr.2 d hd)⟩

/-- A whole number is a digit with name characters behind it. -/
theorem exists_digit {u : Text} (h : isUnsignedInt u = true) :
    ∃ c r, u = c :: r ∧ ('0' ≤ c ∧ c ≤ '9') ∧ ∀ d ∈ r, isNameChar d = true := by
  unfold isUnsignedInt at h
  split at h
  · exact ⟨'0', [], rfl, by decide, List.forall_mem_nil _⟩
  · rename_i c r
    refine ⟨'0', c :: r, rfl, by decide, ?_⟩
    by_cases hx : c = 'x' ∨ c = 'X'
    · rw [if_pos hx] at h
      exact nameChars_of_isRunOf isNameChar_of_isHexChar (by rcases hx with rfl | rfl <;> decide) h
    rw [if_neg hx] at h
    by_cases hb : c = 'b' ∨ c = 'B'
    · rw [if_pos hb] at h
      exact nameChars_of_isRunOf isNameChar_of_isBinaryChar (by rcases hb with rfl | rfl <;> decide) h
    rw [if_neg hb] at h
    by_cases ho : c = 'o' ∨ c = 'O'
    · rw [if_pos ho] at h
      exact nameChars_of_isRunOf isNameChar_of_isOctalChar (by rcases ho with rfl | rfl <;> decide) h
    · rw [if_neg ho] at h
      exact fun d hd => isNameChar_of_isOctalChar (List.all_eq_true.1 h d hd)
  · rename_i c r _ _
    simp only [Bool.and_eq_true, decide_eq_true_eq, List.all_eq_true] at h
    exact ⟨c, r, rfl, ⟨Char.le_trans (by decide) h.1.1, h.1.2⟩, fun d hd => isNameChar_of_isDecimalChar (h.2 d hd)⟩
  · cases h

theorem numeral_of_isInt {v : Text} (h : isInt v = true) : Numeral v := by
  obtain ⟨s, hs, hv⟩ := exists_sign v
  obtain ⟨c, r, hu, hc, hr⟩ := exists_digit h
  rw [hv, hu]
  exact .whole hs hc hr

/-! ### Floating-point numbers -/

theorem exponent_of_isExponent {x : Text} (h : isExponent x = true) : Exponent x := by
  cases x with
  | nil => cases h
  | cons e r =>
    simp only [isExponent, isRunOf, Bool.and_eq_true, Bool.or_eq_true, decide_eq_true_eq, Bool.not_eq_true',
      List.isEmpty_eq_false_iff, List.all_eq_true] at h
    obtain ⟨s, hs, hr⟩ := exists_sign r
    exact ⟨e, s, unsigned r, by rw [List.cons_append, ← hr], h.1, hs, h.2.1, h.2.2⟩

theorem exponent_or_nothing {x : Text} (h : isExponentOrNothing x = true) : x = [] ∨ Exponent x := by
  rw [isExponentOrNothing, Bool.or_eq_true, List.isEmpty_iff] at h
  exact h.imp_right exponent_of_isExponent

theorem digits_of_isDigitRun {t : Text} (h : isDigitRun t = true) : Digits t := by
  cases t with
  | nil => cases h
  | cons c r =>
    rw [isDigitRun, Bool.and_eq_true, List.all_eq_true] at h
    exact ⟨c, r, rfl, h.1, h.2⟩

theorem Digits.ne_nil {t : Text} (h : Digits t) : t ≠ [] := by
  obtain ⟨c, r, rfl, -⟩ := h
  exact List.cons_ne_nil c r

/-- Digits around a point, one side of it at least. -/
theorem numeral_of_point {s i f x : Text} (hs : Signed s)
    (h : (if f.isEmpty then isDigitRun i && isExponentOrNothing x
      else (i.isEmpty || isDigitRun i) && isDigitRun f && isExponentOrNothing x) = true) :
    Numeral (s ++ (i ++ '.' :: (f ++ x))) := by
  split at h
  · rename_i hf
    rw [Bool.and_eq_true] at h
    have hi := digits_of_isDigitRun h.1
    exact .point hs (.inr hi) (.inl (List.isEmpty_iff.1 hf)) (fun hnil => hi.ne_nil hnil.1) (exponent_or_nothing h.2)
  · rw [Bool.and_eq_true, Bool.and_eq_true, Bool.or_eq_true, List.isEmpty_iff] at h
    obtain ⟨⟨hi, hf⟩, hx⟩ := h
    have hfraction := digits_of_isDigitRun hf
    exact .point hs (hi.imp_right digits_of_isDigitRun) (.inr hfraction) (fun hnil => hfraction.ne_nil hnil.2)
      (exponent_or_nothing hx)

theorem numeral_of_isFloat {v : Text} (h : isFloat v = true) : Numeral v := by
  obtain ⟨s, hs, hv⟩ := exists_sign v
  unfold isFloat isUnsignedFloat at h
  generalize unsigned v = u at h hv
  have hwhole : u.takeWhile isRunChar ++ u.dropWhile isRunChar = u := List.takeWhile_append_dropWhile
  rw [hv, ← hwhole]
  dsimp only at h
  split at h
  · rename_i r hr
    have hfraction : r.takeWhile isRunChar ++ r.dropWhile isRunChar = r := List.takeWhile_append_dropWhile
    rw [hr, ← hfraction]
    exact numeral_of_point hs h
  · rw [Bool.and_eq_true] at h
    exact .power hs (digits_of_isDigitRun h.1) (exponent_of_isExponent h.2)

/-! ### What numbers are made of -/

/-- A character that a number can hold. -/
def InNumeral (c : Char) : Prop := isNameChar c = true ∨ Text.isDigit c = true ∨ c = '+' ∨ c = '-' ∨ c = '.'

instance (c : Char) : Decidable (InNumeral c) := inferInstanceAs (Decidable (_ ∨ _))

theorem inNumeral_digit {c : Char} (h : Text.isDigit c = true) : InNumeral c := .inr (.inl h)

theorem Signed.chars {s : Text} (h : Signed s) : ∀ c ∈ s, InNumeral c := by
  rcases h with rfl | rfl | rfl
  · exact List.forall_mem_nil _
  · exact List.forall_mem_singleton.2 (by decide)
  · exact List.forall_mem_singleton.2 (by decide)

theorem Digits.chars {t : Text} (h : Digits t) : ∀ c ∈ t, InNumeral c := by
  obtain ⟨c, r, rfl, hc, hr⟩ := h
  refine List.forall_mem_cons.2 ⟨inNumeral_digit hc, fun d hd => ?_⟩
  have hrun := hr d hd
  rw [isRunChar, Bool.or_eq_true, decide_eq_true_eq] at hrun
  rcases hrun with hdigit | rfl
  · exact inNumeral_digit hdigit
  · decide

theorem Exponent.chars {x : Text} (h : Exponent x) : ∀ c ∈ x, InNumeral c := by
  obtain ⟨e, s, d, rfl, he, hs, -, hd⟩ := h
  refine List.forall_mem_cons.2 ⟨?_, List.forall_mem_append.2 ⟨hs.chars, fun c hc => inNumeral_digit (hd c hc)⟩⟩
  rcases he with rfl | rfl <;> decide

theorem Numeral.chars {v : Text} (h : Numeral v) : ∀ c ∈ v, InNumeral c := by
  have hgiven : ∀ {P : Text → Prop} {t : Text}, (P t → ∀ c ∈ t, InNumeral c) → t = [] ∨ P t → ∀ c ∈ t, InNumeral c := by
    rintro P t hP (rfl | ht)
    · exact List.forall_mem_nil _
    · exact hP ht
  cases h with
  | @whole s c r hs hc hr =>
    have hdigit : isNameChar c = true := by
      rw [isNameChar, Bool.or_eq_true, Bool.and_eq_true, decide_eq_true_eq, decide_eq_true_eq]
      exact .inr hc
    exact List.forall_mem_append.2 ⟨hs.chars, List.forall_mem_cons.2 ⟨.inl hdigit, fun d hd => .inl (hr d hd)⟩⟩
  | point hs hi hf _ hx =>
    refine List.forall_mem_append.2 ⟨hs.chars, List.forall_mem_append.2 ⟨hgiven Digits.chars hi, ?_⟩⟩
    refine List.forall_mem_cons.2 ⟨by decide, List.forall_mem_append.2 ⟨hgiven Digits.chars hf, ?_⟩⟩
    exact hgiven Exponent.chars hx
  | power hs hi hx =>
    exact List.forall_mem_append.2 ⟨hs.chars, List.forall_mem_append.2 ⟨hi.chars, hx.chars⟩⟩

/-! ## Words -/

/-- The words that are values of their own. -/
def constants : List Text := ["true".toList, "false".toList, "null".toList]

theorem letters_of_constant {v : Text} (h : Text.lower v ∈ constants) : ∀ c ∈ v, Text.IsLetter c := by
  have hplain : ∀ w ∈ constants, w.all Text.isPlainLetter = true := by decide
  have hlower := List.all_eq_true.1 (hplain _ h)
  have hmap := Text.lower_ascii (Text.ascii_of_lower hlower)
  intro c hc
  exact Keyword.isLetter_of_toLower (hlower _ (hmap ▸ List.mem_map_of_mem hc))

theorem not_word_of_mem {v : Text} {c : Char} (hc : c ∈ v) (h : ¬InNumeral c) :
    ¬Numeral v ∧ Text.lower v ∉ constants := by
  refine ⟨fun hn => h (hn.chars c hc), fun hl => h (.inl ?_)⟩
  rw [Grammar.isNameChar_iff, Grammar.isNameStart_iff]
  exact .inl ((letters_of_constant hl c hc).imp_right .inl)

end Accessors.Literal
