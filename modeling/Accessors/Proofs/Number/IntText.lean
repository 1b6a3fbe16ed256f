/-
  Accessors.Proofs.Number.IntText — numbers in digits are read as those numbers.

  To the reader a digit is itself and nothing else: no blank, no sign, no underscore
  (`of_isDigit`). So the digits of a number are all that there is to read, and they come
  to the number unless they are too many (`readText_ofNat`).
-/
import Accessors.Number.IntText
import Accessors.Proofs.Text.Trim

namespace Accessors.IntText

theorem of_isDigit {c : Char} (h : c.isDigit = true) :
    isSpace c = false ∧ c ≠ '_' ∧ c ≠ '-' ∧ c ≠ '+' ∧ Text.digitValue? c = some (c.toNat - '0'.toNat) := by
  have hall : ∀ n < 128, (Char.ofNat n).isDigit = true → isSpace (Char.ofNat n) = false ∧ Char.ofNat n ≠ '_' ∧
      Char.ofNat n ≠ '-' ∧ Char.ofNat n ≠ '+' ∧
      Text.digitValue? (Char.ofNat n) = some ((Char.ofNat n).toNat - '0'.toNat) := by decide
  have hn : c.toNat < 128 := Nat.lt_of_le_of_lt (Char.isDigit_iff_toNat.1 h).2 (by decide)
  have hc := hall _ hn
  rw [Char.ofNat_toNat] at hc
  exact hc h

section Digits

variable {t : Text} (h : ∀ c ∈ t, c.isDigit = true)
include h

theorem digitsOf?_digits {fresh : Bool} (hfresh : fresh = true → t ≠ []) :
    digitsOf? fresh t = some (t.map fun c => c.toNat - '0'.toNat) := by
  induction t generalizing fresh with
  | nil =>
    cases fresh with
    | false => rfl
    | true => exact absurd rfl (hfresh rfl)
  | cons c r ih =>
    obtain ⟨hc, hr⟩ := List.forall_mem_cons.1 h
    obtain ⟨-, hunderscore, -, -, hvalue⟩ := of_isDigit hc
    have hrest : digitsOf? false r = _ := ih hr fun e => absurd e Bool.false_ne_true
    rw [digitsOf?, if_neg hunderscore, hvalue]
    dsimp only
    rw [hrest]
    rfl

/-- A text of digits is read as a whole. -/
theorem readText_digits (hne : t ≠ []) : readText t =
    if maxDigits < t.length then .error (.tooManyDigits t.length) else .ok (Nat.ofDigitChars 10 t 0) := by
  have hspace : ∀ c ∈ t, isSpace c = false := fun c hc => (of_isDigit (h c hc)).1
  have hrun : ∀ c ∈ t, (c = '_' || Text.isDigit c) = true := by
    intro c hc
    have hvalue := (of_isDigit (h c hc)).2.2.2.2
    simp [Text.isDigit, hvalue]
  have hstart : t.dropWhile isSpace = t := by
    cases t with
    | nil => rfl
    | cons c r => simp [hspace c List.mem_cons_self]
  have hend : Text.dropEndWhile isSpace t = t := by
    have hkept := Text.dropEndWhile_append (fun c hc => hspace c (List.mem_of_getLast? hc)) []
    have hnone : Text.dropEndWhile isSpace [] = [] := rfl
    rwa [hnone, List.append_nil] at hkept
  have hsign : signOf t = (false, t) := by
    cases t with
    | nil => rfl
    | cons c r =>
      obtain ⟨-, -, hminus, hplus, -⟩ := of_isDigit (h c List.mem_cons_self)
      exact signOf.eq_3 _ (fun _ he => hminus (List.cons.inj he).1) fun _ he => hplus (List.cons.inj he).1
  have hany : t.any (fun c => !(c = '_' || Text.isDigit c)) = false := by
    rw [List.any_eq_false]
    intro c hc
    simp only [hrun c hc]
    decide
  have hvalue : valueOf (t.map fun c => c.toNat - '0'.toNat) = Nat.ofDigitChars 10 t 0 := by
    rw [valueOf, List.foldl_map, Nat.ofDigitChars_eq_foldl]
  rw [readText, read, Text.ofCodes_codes, hstart, hend, hsign]
  dsimp only
  rw [List.takeWhile_eq_self_iff.2 hrun, digitsOf?_digits h fun _ => hne]
  dsimp only
  rw [List.length_map, hany, hvalue]
  rfl

end Digits

/-- The digits of a number are read as it. -/
theorem readText_ofNat (n : Nat) : readText (Text.ofNat n) =
    if maxDigits < (Text.ofNat n).length then .error (.tooManyDigits (Text.ofNat n).length) else .ok n := by
  have hdigits : ∀ c ∈ Text.ofNat n, c.isDigit = true :=
    fun c hc => Nat.isDigit_of_mem_toDigits (by decide) (by decide) hc
  have hvalue : Nat.ofDigitChars 10 (Text.ofNat n) 0 = n := Nat.ofDigitChars_ten_toDigits
  rw [readText_digits hdigits Nat.toDigits_ne_nil, hvalue]

end Accessors.IntText
