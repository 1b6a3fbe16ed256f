/-
  Accessors.Text.Utf8.Lemmas — UTF-8 reads back what it writes.

  - `readChar_encodeChar`: the first character of what was written is read whole, and no
    byte of what follows it is looked at.
  - `readChar_eq_ok`: what is read as a character is what is written for it.
  - `decode_eq_ok_iff`: so bytes are read as a text if and only if they are what is written
    for it.
-/
import Accessors.Text.Codes
import Accessors.Text.Utf8

namespace Accessors.Utf8

/-! ## Bytes -/

theorem toNat_byte {n : Nat} (h : n < 256) : (UInt8.ofNat n).toNat = n := by
  rw [UInt8.toNat_ofNat']
  omega

theorem byte_lt {n m : Nat} (h : n < 256) (hm : m < 256) : UInt8.ofNat n < UInt8.ofNat m ↔ n < m := by
  rw [UInt8.lt_iff_toNat_lt, toNat_byte h, toNat_byte hm]

theorem byte_le {n m : Nat} (h : n < 256) (hm : m < 256) : UInt8.ofNat n ≤ UInt8.ofNat m ↔ n ≤ m := by
  rw [UInt8.le_iff_toNat_le, toNat_byte h, toNat_byte hm]

theorem byte_ne {n m : Nat} (h : n < 256) (hm : m < 256) (hne : n ≠ m) : UInt8.ofNat n ≠ UInt8.ofNat m := by
  intro he
  apply hne
  rw [← toNat_byte h, he, toNat_byte hm]

theorem isTail_byte {n : Nat} (h : n < 0x40) : isTail (.ofNat (0x80 + n)) = true := by
  simp only [isTail, Bool.and_eq_true, decide_eq_true_eq]
  exact ⟨(byte_le (n := 0x80) (by omega) (by omega)).2 (by omega),
    (byte_lt (m := 0xc0) (by omega) (by omega)).2 (by omega)⟩

theorem byte_not_lt {n m : Nat} (h : n < 256) (hm : m < 256) (hle : m ≤ n) : ¬UInt8.ofNat n < UInt8.ofNat m := by
  rw [byte_lt h hm]
  omega

/-! ## One character -/

theorem encodeChar_one {c : Char} (h : c.toNat < 0x80) : encodeChar c = [.ofNat c.toNat] := by
  simp only [encodeChar, h, if_true]

theorem encodeChar_two {c : Char} (h₁ : ¬c.toNat < 0x80) (h₂ : c.toNat < 0x800) :
    encodeChar c = [.ofNat (0xc0 + c.toNat / 0x40), .ofNat (0x80 + c.toNat % 0x40)] := by
  simp only [encodeChar, h₁, h₂, if_true, if_false]

theorem encodeChar_three {c : Char} (h₁ : ¬c.toNat < 0x80) (h₂ : ¬c.toNat < 0x800) (h₃ : c.toNat < 0x10000) :
    encodeChar c = [.ofNat (0xe0 + c.toNat / 0x1000), .ofNat (0x80 + c.toNat / 0x40 % 0x40),
      .ofNat (0x80 + c.toNat % 0x40)] := by
  simp only [encodeChar, h₁, h₂, h₃, if_true, if_false]

theorem encodeChar_four {c : Char} (h₁ : ¬c.toNat < 0x80) (h₂ : ¬c.toNat < 0x800) (h₃ : ¬c.toNat < 0x10000) :
    encodeChar c = [.ofNat (0xf0 + c.toNat / 0x40000), .ofNat (0x80 + c.toNat / 0x1000 % 0x40),
      .ofNat (0x80 + c.toNat / 0x40 % 0x40), .ofNat (0x80 + c.toNat % 0x40)] := by
  simp only [encodeChar, h₁, h₂, h₃, if_false]

/-- The reader finds the character that was written, whatever follows it. -/
theorem readChar_encodeChar (c : Char) (r : List UInt8) :
    ∃ a bs, encodeChar c = a :: bs ∧ readChar a (bs ++ r) = .ok (c, bs.length + 1) := by
  have hv : c.toNat < 0xd800 ∨ 0xdfff < c.toNat ∧ c.toNat < 0x110000 := c.valid
  have hc : ∀ n, n = c.toNat → Char.ofNat n = c := fun n h => h ▸ Char.ofNat_toNat c
  have ht : ∀ n, isTail (.ofNat (0x80 + n % 0x40)) = true := fun n => isTail_byte (Nat.mod_lt _ (by decide))
  by_cases h₁ : c.toNat < 0x80
  · refine ⟨_, [], encodeChar_one h₁, ?_⟩
    have l : UInt8.ofNat c.toNat < 0x80 := (byte_lt (m := 0x80) (by omega) (by omega)).2 h₁
    simp only [readChar, l, if_true, toNat_byte (show c.toNat < 256 by omega), hc _ rfl, List.length_nil]
  by_cases h₂ : c.toNat < 0x800
  · refine ⟨_, _, encodeChar_two h₁ h₂, ?_⟩
    have l₁ : ¬UInt8.ofNat (0xc0 + c.toNat / 0x40) < 0x80 := byte_not_lt (m := 0x80) (by omega) (by omega) (by omega)
    have l₂ : ¬UInt8.ofNat (0xc0 + c.toNat / 0x40) < 0xc2 := byte_not_lt (m := 0xc2) (by omega) (by omega) (by omega)
    have l₃ : UInt8.ofNat (0xc0 + c.toNat / 0x40) < 0xe0 := (byte_lt (m := 0xe0) (by omega) (by omega)).2 (by omega)
    simp only [readChar, if_neg l₁, if_neg l₂, if_pos l₃, List.cons_append, List.nil_append, ht, if_true, charOf2,
      List.length_cons, List.length_nil]
    rw [toNat_byte (by omega), toNat_byte (by omega), hc]
    omega
  by_cases h₃ : c.toNat < 0x10000
  · refine ⟨_, _, encodeChar_three h₁ h₂ h₃, ?_⟩
    have l₁ : ¬UInt8.ofNat (0xe0 + c.toNat / 0x1000) < 0x80 := byte_not_lt (m := 0x80) (by omega) (by omega) (by omega)
    have l₂ : ¬UInt8.ofNat (0xe0 + c.toNat / 0x1000) < 0xc2 := byte_not_lt (m := 0xc2) (by omega) (by omega) (by omega)
    have l₃ : ¬UInt8.ofNat (0xe0 + c.toNat / 0x1000) < 0xe0 := byte_not_lt (m := 0xe0) (by omega) (by omega) (by omega)
    have l₄ : UInt8.ofNat (0xe0 + c.toNat / 0x1000) < 0xf0 := (byte_lt (m := 0xf0) (by omega) (by omega)).2 (by omega)
    have hs : secondOfThree (.ofNat (0xe0 + c.toNat / 0x1000)) (.ofNat (0x80 + c.toNat / 0x40 % 0x40)) = true := by
      simp only [secondOfThree, ht, Bool.true_and, Bool.and_eq_true, Bool.or_eq_true, bne_iff_ne, decide_eq_true_eq]
      constructor
      · by_cases e : c.toNat / 0x1000 = 0
        · exact .inr ((byte_le (n := 0xa0) (by omega) (by omega)).2 (by omega))
        · exact .inl (byte_ne (m := 0xe0) (by omega) (by omega) (by omega))
      · by_cases e : c.toNat / 0x1000 = 0xd
        · exact .inr ((byte_lt (m := 0xa0) (by omega) (by omega)).2 (by omega))
        · exact .inl (byte_ne (m := 0xed) (by omega) (by omega) (by omega))
    simp only [readChar, if_neg l₁, if_neg l₂, if_neg l₃, if_pos l₄, List.cons_append, List.nil_append, hs, ht,
      Bool.not_true, Bool.false_eq_true, if_true, if_false, charOf3, List.length_cons, List.length_nil]
    rw [toNat_byte (by omega), toNat_byte (by omega), toNat_byte (by omega), hc]
    omega
  · refine ⟨_, _, encodeChar_four h₁ h₂ h₃, ?_⟩
    have l₁ : ¬UInt8.ofNat (0xf0 + c.toNat / 0x40000) < 0x80 := byte_not_lt (m := 0x80) (by omega) (by omega) (by omega)
    have l₂ : ¬UInt8.ofNat (0xf0 + c.toNat / 0x40000) < 0xc2 := byte_not_lt (m := 0xc2) (by omega) (by omega) (by omega)
    have l₃ : ¬UInt8.ofNat (0xf0 + c.toNat / 0x40000) < 0xe0 := byte_not_lt (m := 0xe0) (by omega) (by omega) (by omega)
    have l₄ : ¬UInt8.ofNat (0xf0 + c.toNat / 0x40000) < 0xf0 := byte_not_lt (m := 0xf0) (by omega) (by omega) (by omega)
    have l₅ : UInt8.ofNat (0xf0 + c.toNat / 0x40000) < 0xf5 := (byte_lt (m := 0xf5) (by omega) (by omega)).2 (by omega)
    have hs : secondOfFour (.ofNat (0xf0 + c.toNat / 0x40000)) (.ofNat (0x80 + c.toNat / 0x1000 % 0x40)) = true := by
      simp only [secondOfFour, ht, Bool.true_and, Bool.and_eq_true, Bool.or_eq_true, bne_iff_ne, decide_eq_true_eq]
      constructor
      · by_cases e : c.toNat / 0x40000 = 0
        · exact .inr ((byte_le (n := 0x90) (by omega) (by omega)).2 (by omega))
        · exact .inl (byte_ne (m := 0xf0) (by omega) (by omega) (by omega))
      · by_cases e : c.toNat / 0x40000 = 4
        · exact .inr ((byte_lt (m := 0x90) (by omega) (by omega)).2 (by omega))
        · exact .inl (byte_ne (m := 0xf4) (by omega) (by omega) (by omega))
    simp only [readChar, if_neg l₁, if_neg l₂, if_neg l₃, if_neg l₄, if_pos l₅, List.cons_append, List.nil_append,
      hs, ht, Bool.not_true, Bool.false_eq_true, if_true, if_false, charOf4, List.length_cons, List.length_nil]
    rw [toNat_byte (by omega), toNat_byte (by omega), toNat_byte (by omega), toNat_byte (by omega), hc]
    omega

/-! ## Texts -/

theorem decodeFrom_append (done : Text) (position : Nat) (bytes r : List UInt8) :
    decodeFrom done position bytes.length (bytes ++ r) = decodeFrom done (position + bytes.length) 0 r := by
  induction bytes generalizing position with
  | nil => rfl
  | cons b bs ih =>
    simp only [List.length_cons, List.cons_append, decodeFrom, ih]
    congr 1
    omega

theorem decodeFrom_encode (t done : Text) (position : Nat) :
    decodeFrom done position 0 (encode t) = .ok (done.reverse ++ t) := by
  induction t generalizing done position with
  | nil => simp [encode, decodeFrom]
  | cons c r ih =>
    obtain ⟨a, bs, he, hr⟩ := readChar_encodeChar c (encode r)
    have hsplit : encode (c :: r) = a :: (bs ++ encode r) := by simp [encode, he]
    rw [hsplit]
    simp only [decodeFrom, hr, Nat.add_sub_cancel]
    rw [decodeFrom_append, ih]
    simp

theorem decode_encode (t : Text) : decode (encode t) = .ok t := by
  simp [decode, decodeFrom_encode]

/-! ## Nothing else is read -/

theorem isTail_iff {b : UInt8} : isTail b = true ↔ 0x80 ≤ b.toNat ∧ b.toNat < 0xc0 := by
  simp only [isTail, Bool.and_eq_true, decide_eq_true_eq, UInt8.le_iff_toNat_le, UInt8.lt_iff_toNat_lt]
  exact Iff.rfl

theorem toNat_char {n : Nat} (h : n < 0xd800 ∨ 0xdfff < n ∧ n < 0x110000) : (Char.ofNat n).toNat = n := by
  rw [Text.toNat_ofNat, if_pos h]

/-- Bytes by their numbers. -/
theorem byte_eq {n : Nat} {b : UInt8} (h : n = b.toNat) : UInt8.ofNat n = b := by
  rw [h, UInt8.ofNat_toNat]

theorem encodeChar_charOf2 {a b : UInt8} (ha : 0xc2 ≤ a.toNat) (ha' : a.toNat < 0xe0) (hb : isTail b = true) :
    encodeChar (charOf2 a b) = [a, b] := by
  rw [isTail_iff] at hb
  have hn : (charOf2 a b).toNat = (a.toNat - 0xc0) * 0x40 + (b.toNat - 0x80) := toNat_char (by omega)
  rw [encodeChar_two (by omega) (by omega), hn, byte_eq (b := a) (by omega), byte_eq (b := b) (by omega)]

theorem encodeChar_charOf3 {a b c : UInt8} (ha : 0xe0 ≤ a.toNat) (ha' : a.toNat < 0xf0)
    (hb : secondOfThree a b = true) (hc : isTail c = true) : encodeChar (charOf3 a b c) = [a, b, c] := by
  simp only [secondOfThree, Bool.and_eq_true, Bool.or_eq_true, bne_iff_ne, decide_eq_true_eq, isTail_iff, ne_eq,
    ← UInt8.toNat_inj, UInt8.le_iff_toNat_le, UInt8.lt_iff_toNat_lt] at hb
  obtain ⟨⟨hb, hlow⟩, hhigh⟩ := hb
  change ¬a.toNat = 0xe0 ∨ 0xa0 ≤ b.toNat at hlow
  change ¬a.toNat = 0xed ∨ b.toNat < 0xa0 at hhigh
  rw [isTail_iff] at hc
  have hn : (charOf3 a b c).toNat = (a.toNat - 0xe0) * 0x1000 + (b.toNat - 0x80) * 0x40 + (c.toNat - 0x80) :=
    toNat_char (by omega)
  rw [encodeChar_three (by omega) (by omega) (by omega), hn, byte_eq (b := a) (by omega), byte_eq (b := b) (by omega),
    byte_eq (b := c) (by omega)]

theorem encodeChar_charOf4 {a b c d : UInt8} (ha : 0xf0 ≤ a.toNat) (ha' : a.toNat < 0xf5)
    (hb : secondOfFour a b = true) (hc : isTail c = true) (hd : isTail d = true) :
    encodeChar (charOf4 a b c d) = [a, b, c, d] := by
  simp only [secondOfFour, Bool.and_eq_true, Bool.or_eq_true, bne_iff_ne, decide_eq_true_eq, isTail_iff, ne_eq,
    ← UInt8.toNat_inj, UInt8.le_iff_toNat_le, UInt8.lt_iff_toNat_lt] at hb
  obtain ⟨⟨hb, hlow⟩, hhigh⟩ := hb
  change ¬a.toNat = 0xf0 ∨ 0x90 ≤ b.toNat at hlow
  change ¬a.toNat = 0xf4 ∨ b.toNat < 0x90 at hhigh
  rw [isTail_iff] at hc hd
  have hn : (charOf4 a b c d).toNat = (a.toNat - 0xf0) * 0x40000 + (b.toNat - 0x80) * 0x1000 +
      (c.toNat - 0x80) * 0x40 + (d.toNat - 0x80) := toNat_char (by omega)
  rw [encodeChar_four (by omega) (by omega) (by omega), hn, byte_eq (b := a) (by omega), byte_eq (b := b) (by omega),
    byte_eq (b := c) (by omega), byte_eq (b := d) (by omega)]

/-- What is read as a character is what is written for it. -/
theorem readChar_eq_ok {a : UInt8} {r : List UInt8} {c : Char} {size : Nat} (h : readChar a r = .ok (c, size)) :
    ∃ bs rest, r = bs ++ rest ∧ size = bs.length + 1 ∧ encodeChar c = a :: bs := by
  unfold readChar at h
  by_cases h₁ : a < 0x80
  · rw [if_pos h₁] at h
    have l₁ : a.toNat < 0x80 := UInt8.lt_iff_toNat_lt.1 h₁
    have hn : (Char.ofNat a.toNat).toNat = a.toNat := toNat_char (by omega)
    cases h
    exact ⟨[], r, rfl, rfl, by rw [encodeChar_one (by omega), hn, byte_eq rfl]⟩
  rw [if_neg h₁] at h
  by_cases h₂ : a < 0xc2
  · rw [if_pos h₂] at h
    cases h
  rw [if_neg h₂] at h
  have l₂ : ¬a.toNat < 0xc2 := fun l => h₂ (UInt8.lt_iff_toNat_lt.2 l)
  by_cases h₃ : a < 0xe0
  · rw [if_pos h₃] at h
    have l₃ : a.toNat < 0xe0 := UInt8.lt_iff_toNat_lt.1 h₃
    cases r with
    | nil => cases h
    | cons b r =>
      by_cases hb : isTail b = true
      · simp only [hb, if_true] at h
        obtain ⟨rfl, rfl⟩ := Prod.mk.inj (Except.ok.inj h)
        exact ⟨[b], r, rfl, rfl, encodeChar_charOf2 (by omega) l₃ hb⟩
      · simp only [hb] at h
        cases h
  rw [if_neg h₃] at h
  have l₃ : ¬a.toNat < 0xe0 := fun l => h₃ (UInt8.lt_iff_toNat_lt.2 l)
  by_cases h₄ : a < 0xf0
  · rw [if_pos h₄] at h
    have l₄ : a.toNat < 0xf0 := UInt8.lt_iff_toNat_lt.1 h₄
    cases r with
    | nil => cases h
    | cons b r =>
      cases hb : secondOfThree a b with
      | false =>
        simp only [hb] at h
        cases h
      | true =>
        simp only [hb] at h
        cases r with
        | nil => cases h
        | cons c r =>
          by_cases hc : isTail c = true
          · simp only [hc, if_true] at h
            obtain ⟨rfl, rfl⟩ := Prod.mk.inj (Except.ok.inj h)
            exact ⟨[b, c], r, rfl, rfl, encodeChar_charOf3 (by omega) l₄ hb hc⟩
          · simp only [hc] at h
            cases h
  rw [if_neg h₄] at h
  have l₄ : ¬a.toNat < 0xf0 := fun l => h₄ (UInt8.lt_iff_toNat_lt.2 l)
  by_cases h₅ : a < 0xf5
  · rw [if_pos h₅] at h
    have l₅ : a.toNat < 0xf5 := UInt8.lt_iff_toNat_lt.1 h₅
    cases r with
    | nil => cases h
    | cons b r =>
      cases hb : secondOfFour a b with
      | false =>
        simp only [hb] at h
        cases h
      | true =>
        simp only [hb] at h
        cases r with
        | nil => cases h
        | cons c r =>
          cases hc : isTail c with
          | false =>
            simp only [hc] at h
            cases h
          | true =>
            simp only [hc] at h
            cases r with
            | nil => cases h
            | cons d r =>
              by_cases hd : isTail d = true
              · simp only [hd, if_true] at h
                obtain ⟨rfl, rfl⟩ := Prod.mk.inj (Except.ok.inj h)
                exact ⟨[b, c, d], r, rfl, rfl, encodeChar_charOf4 (by omega) l₅ hb hc hd⟩
              · simp only [hd] at h
                cases h
  · rw [if_neg h₅] at h
    cases h

theorem encode_of_decodeFrom {done : Text} {position : Nat} {bytes : List UInt8} {t : Text}
    (h : decodeFrom done position 0 bytes = .ok t) : ∃ u, t = done.reverse ++ u ∧ bytes = encode u := by
  -- A character takes at least one byte, so that what is left gets shorter.
  induction hlen : bytes.length using Nat.strongRecOn generalizing done position bytes with
  | _ n ih =>
    cases bytes with
    | nil =>
      cases h
      exact ⟨[], (List.append_nil _).symm, rfl⟩
    | cons a r =>
      unfold decodeFrom at h
      cases hread : readChar a r with
      | error e =>
        rw [hread] at h
        cases h
      | ok result =>
        obtain ⟨c, size⟩ := result
        obtain ⟨bs, rest, rfl, rfl, hbytes⟩ := readChar_eq_ok hread
        rw [hread] at h
        simp only [Nat.add_sub_cancel] at h
        rw [decodeFrom_append] at h
        have hshort : rest.length < n := by
          rw [← hlen, List.length_cons, List.length_append]
          omega
        obtain ⟨u, rfl, rfl⟩ := ih rest.length hshort h rfl
        exact ⟨c :: u, by simp, by simp [encode, hbytes]⟩

/-- Bytes are read as a text if and only if they are what is written for it. -/
theorem decode_eq_ok_iff {bytes : List UInt8} {t : Text} : decode bytes = .ok t ↔ bytes = encode t := by
  constructor
  · intro h
    obtain ⟨u, rfl, hu⟩ := encode_of_decodeFrom h
    exact hu
  · intro h
    rw [h, decode_encode]

theorem encode_append (s t : Text) : encode (s ++ t) = encode s ++ encode t := List.flatMap_append

end Accessors.Utf8
