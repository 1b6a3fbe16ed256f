/-
  Accessors.Proofs.Source.Keyword — keywords in any letter case.

  Keywords are told by the full lower case of a word, in which a letter from outside of
  ASCII could become one of ASCII. Only one does, the sign for kelvin, and it becomes a
  `k`. No modifier has that letter, so that a modifier is an ASCII word whatever the case
  of its letters:
  - `isModifier_iff`: the letters need only be lowered as those of ASCII are.
-/
import Accessors.Proofs.Text.Gap
import Accessors.Source.Keyword
import Accessors.Text.Codes

namespace Accessors

/-- A word that is the same as one of `words` up to the case of ASCII letters. -/
def Keyword.AnyCase (words : List Text) (word : Text) : Prop := word.map Char.toLower ∈ words

namespace Text

/-- The letters that only ASCII characters are lowered to. -/
def isPlainLetter (c : Char) : Bool := decide ('a' ≤ c) && decide (c ≤ 'z') && c != 'k'

/-- A letter of ASCII. -/
def IsLetter (c : Char) : Prop := (65 ≤ c.toNat ∧ c.toNat ≤ 90) ∨ (97 ≤ c.toNat ∧ c.toNat ≤ 122)

instance (c : Char) : Decidable (IsLetter c) := inferInstanceAs (Decidable (_ ∨ _))

theorem IsLetter.not_blank {c : Char} (h : IsLetter c) : isBlank c = false := by
  unfold IsLetter at h
  simp only [isBlank, Bool.or_eq_false_iff, Bool.and_eq_false_iff, decide_eq_false_iff_not, beq_eq_false_iff_ne]
  omega

theorem isPlainLetter_iff {c : Char} :
    isPlainLetter c = true ↔ 97 ≤ c.toNat ∧ c.toNat ≤ 122 ∧ c.toNat ≠ 107 := by
  have hk : c ≠ 'k' ↔ c.toNat ≠ 107 := by
    constructor
    · intro h e
      exact h (Char.toNat_inj.1 e)
    · intro h e
      exact h (congrArg Char.toNat e)
  simp only [isPlainLetter, Bool.and_eq_true, decide_eq_true_eq, bne_iff_ne, hk, Char.le_def, UInt32.le_iff_toNat_le]
  exact ⟨fun ⟨⟨h₁, h₂⟩, h₃⟩ => ⟨h₁, h₂, h₃⟩, fun ⟨h₁, h₂, h₃⟩ => ⟨⟨h₁, h₂⟩, h₃⟩⟩

/-- A row for characters outside of ASCII leads out of ASCII, but for one. -/
theorem lowerRows_outside : lowerRows.all (fun r => decide (r.last < 128) || decide (128 ≤ (r.first : Int) + r.shift) ||
    (r.first == 0x212a && r.last == 0x212a && r.shift == -8383)) = true := by decide

theorem mapByRows_lower {code : Nat} (h : 128 ≤ code) :
    128 ≤ mapByRows lowerRows code ∨ mapByRows lowerRows code = 107 := by
  unfold mapByRows
  split
  · rename_i row hrow
    have hcov := List.find?_some hrow
    simp only [CaseRow.covers, Bool.and_eq_true, decide_eq_true_eq] at hcov
    have hout := List.all_eq_true.1 lowerRows_outside row (List.mem_of_find?_eq_some hrow)
    simp only [Bool.or_eq_true, Bool.and_eq_true, decide_eq_true_eq, beq_iff_eq] at hout
    obtain (hlast | hfar) | ⟨⟨hf, hl⟩, hs⟩ := hout
    · omega
    · omega
    · right
      omega
  · exact .inl h

theorem ascii_of_lowerOf {c : Char} (h : ∀ d ∈ lowerOf c, isPlainLetter d = true) : c.toNat < 128 := by
  by_cases hc : c.toNat < 128
  · exact hc
  exfalso
  unfold lowerOf at h
  rw [if_neg hc] at h
  split at h
  · exact absurd (h (Char.ofNat 0x307) (by simp)) (by decide)
  · have hl := h _ (List.mem_singleton.2 rfl)
    rw [isPlainLetter_iff] at hl
    by_cases hv : (mapByRows lowerRows c.toNat).isValidChar
    · rw [toNat_ofNat, if_pos hv] at hl
      have hm := mapByRows_lower (by omega : 128 ≤ c.toNat)
      omega
    · rw [toNat_ofNat, if_neg hv] at hl
      omega

theorem ascii_of_lowerAfter {t before : Text} (h : ∀ c ∈ lowerAfter before t, isPlainLetter c = true) :
    ∀ c ∈ t, c.toNat < 128 := by
  induction t generalizing before with
  | nil => simp
  | cons c r ih =>
    simp only [lowerAfter, List.mem_append] at h
    intro d hd
    rcases List.mem_cons.1 hd with rfl | hd
    · split at h
      · have hs := h _ (.inl (List.mem_singleton.2 rfl))
        split at hs <;> exact absurd hs (by decide)
      · exact ascii_of_lowerOf fun e he => h e (.inl he)
    · exact ih (fun e he => h e (.inr he)) d hd

/-- A text whose lower case is of plain letters is of ASCII. -/
theorem ascii_of_lower {t : Text} (h : ∀ c ∈ lower t, isPlainLetter c = true) : ∀ c ∈ t, c.toNat < 128 :=
  ascii_of_lowerAfter h

end Text

namespace Keyword

theorem contains_lower_iff {words : List Text} {word : Text} (h : ∀ c ∈ word, c.toNat < 128) :
    words.contains (Text.lower word) = true ↔ AnyCase words word := by
  rw [Text.lower_ascii h, List.contains_iff_mem, AnyCase]

theorem toLower_ascii {c : Char} (h : c.toLower.toNat < 128) : c.toNat < 128 := by
  by_cases hc : c.val ≥ 'A'.val ∧ c.val ≤ 'Z'.val
  · have hle := UInt32.le_iff_toNat_le.1 hc.2
    exact Nat.lt_of_le_of_lt hle (by decide)
  · rwa [show c.toLower = c from dif_neg hc] at h

theorem AnyCase.ascii {words : List Text} (hw : ∀ w ∈ words, ∀ c ∈ w, c.toNat < 128) {word : Text}
    (h : AnyCase words word) : ∀ c ∈ word, c.toNat < 128 :=
  fun _ hc => toLower_ascii (hw _ h _ (List.mem_map_of_mem hc))

theorem modifiers_plain : ∀ w ∈ modifiers, ∀ c ∈ w, Text.isPlainLetter c = true := by
  intro w hw
  have hall : ∀ w ∈ modifiers, w.all Text.isPlainLetter = true := by decide
  exact List.all_eq_true.1 (hall w hw)

theorem isModifier_iff (word : Text) : isModifier word = true ↔ AnyCase modifiers word := by
  have hplain : ∀ w ∈ modifiers, ∀ c ∈ w, c.toNat < 128 := fun w hw c hc => by
    have hp := Text.isPlainLetter_iff.1 (modifiers_plain w hw c hc)
    omega
  constructor
  · intro h
    have hm : Text.lower word ∈ modifiers := List.contains_iff_mem.1 h
    exact (contains_lower_iff (Text.ascii_of_lower (modifiers_plain _ hm))).1 h
  · intro h
    exact (contains_lower_iff (h.ascii hplain)).2 h

theorem isLetter_of_toLower {c : Char} (h : Text.isPlainLetter c.toLower = true) : Text.IsLetter c := by
  rw [Text.isPlainLetter_iff] at h
  by_cases hc : c.val ≥ 'A'.val ∧ c.val ≤ 'Z'.val
  · exact .inl ⟨UInt32.le_iff_toNat_le.1 hc.1, UInt32.le_iff_toNat_le.1 hc.2⟩
  · rw [show c.toLower = c from dif_neg hc] at h
    exact .inr ⟨h.1, h.2.1⟩

/-- A modifier is made of letters. -/
theorem AnyCase.modifier_letter {word : Text} (h : AnyCase modifiers word) :
    ∀ c ∈ word, Text.isPlainLetter c.toLower = true :=
  fun _ hc => modifiers_plain _ h _ (List.mem_map_of_mem hc)

theorem AnyCase.modifier_solid {word : Text} (h : AnyCase modifiers word) : Text.Solid word :=
  fun c hc => (isLetter_of_toLower (h.modifier_letter c hc)).not_blank

theorem AnyCase.modifier_ne_nil {word : Text} (h : AnyCase modifiers word) : word ≠ [] := by
  intro e
  subst e
  exact absurd (show [] ∈ modifiers from h) (by decide)

end Keyword

end Accessors
