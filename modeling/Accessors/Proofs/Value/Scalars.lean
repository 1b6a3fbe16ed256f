/-
  Accessors.Proofs.Value.Scalars — strings, numbers and names, read as the grammar has them.

  Each reading function takes from the start of a text what the grammar says it can be, and
  stops where that ends: what it returns is written by the part that it took, and a part
  that is written is taken, whatever comes behind it that does not carry it on. A string
  ends at its quote; that a high surrogate joins a low one shows in the six characters
  behind it, which are an escape if and only if the next piece is one
  (`unicodeEscape_eq`). A number goes on as long as digits, a fraction or an exponent
  follow (`Ends`).
  - `stringFrom_eq_ok`, `number?_eq_some`, `named?_eq_some`: what is read is written;
  - `stringFrom_quoted`, `number?_number`, `named?_named`: what is written is read.
-/
import Accessors.Proofs.Text.Gap
import Accessors.Proofs.Text.Replace
import Accessors.Proofs.Value.Grammar
import Mathlib.Data.List.TakeDrop

namespace Accessors.Value

/-! ## Blanks -/

section Blanks

theorem skipGap_append {g : Text} (hg : Gap g) (t : Text) : skipGap (g ++ t) = skipGap t :=
  List.dropWhile_append_of_pos hg

theorem skipGap_of_head {t : Text} (h : ∀ c ∈ t.head?, isGap c = false) : skipGap t = t := by
  cases t with
  | nil => rfl
  | cons c r => rw [skipGap, List.dropWhile_cons_of_neg (by rw [h c rfl]; exact Bool.false_ne_true)]

theorem exists_gap (t : Text) : ∃ g, Gap g ∧ t = g ++ skipGap t :=
  ⟨t.takeWhile isGap, fun _ hc => List.mem_takeWhile_imp hc, List.takeWhile_append_dropWhile.symm⟩

end Blanks

/-! ## Strings -/

section Strings

instance (c : Char) (n : Nat) : Decidable (HexDigit c n) := inferInstanceAs (Decidable (_ ∧ _))

theorem hexValue?_eq_some {c : Char} {n : Nat} : hexValue? c = some n ↔ HexDigit c n := by
  constructor
  · intro h
    have hchar : ∀ low high : Char, low ≤ c ∧ c ≤ high → low.toNat ≤ c.toNat ∧ c.toNat < high.toNat + 1 :=
      fun low high hc => ⟨hc.1, Nat.lt_succ_of_le hc.2⟩
    have hdigits : ∀ m < 58, 48 ≤ m → HexDigit (Char.ofNat m) (m - 48) := by decide
    have hlower : ∀ m < 103, 97 ≤ m → HexDigit (Char.ofNat m) (m - 97 + 10) := by decide
    have hupper : ∀ m < 71, 65 ≤ m → HexDigit (Char.ofNat m) (m - 65 + 10) := by decide
    unfold hexValue? at h
    rw [← Char.ofNat_toNat c]
    split at h
    · rename_i hc
      obtain rfl := Option.some.inj h
      exact hdigits _ (hchar _ _ hc).2 (hchar _ _ hc).1
    · split at h
      · rename_i hc
        obtain rfl := Option.some.inj h
        exact hlower _ (hchar _ _ hc).2 (hchar _ _ hc).1
      · split at h
        · rename_i hc
          obtain rfl := Option.some.inj h
          exact hupper _ (hchar _ _ hc).2 (hchar _ _ hc).1
        · cases h
  · have hdigit : ∀ m < 16, hexValue? (Nat.digitChar m) = some m ∧ hexValue? (Nat.digitChar m).toUpper = some m := by
      decide
    rintro ⟨hn, rfl | rfl⟩
    · exact (hdigit n hn).1
    · exact (hdigit n hn).2

theorem letterEscape?_eq_some {c : Char} {n : Nat} : letterEscape? c = some n ↔ (c, n) ∈ letterEscapes := by
  constructor
  · intro h
    unfold letterEscape? at h
    repeat' split at h
    all_goals cases h
    · rename_i hc
      rcases hc with rfl | rfl | rfl <;> decide
    all_goals
      rename_i hc
      subst hc
      decide
  · simp only [letterEscapes, List.mem_cons, Prod.mk.injEq, List.not_mem_nil, or_false]
    rintro (⟨rfl, rfl⟩ | ⟨rfl, rfl⟩ | ⟨rfl, rfl⟩ | ⟨rfl, rfl⟩ | ⟨rfl, rfl⟩ | ⟨rfl, rfl⟩ | ⟨rfl, rfl⟩ | ⟨rfl, rfl⟩) <;> rfl

theorem fourHex?_eq_some {a b c d : Char} {r : Text} {n : Nat} : fourHex? (a :: b :: c :: d :: r) = some n ↔
    ∃ i j k l, HexDigit a i ∧ HexDigit b j ∧ HexDigit c k ∧ HexDigit d l ∧ n = ((i * 16 + j) * 16 + k) * 16 + l := by
  simp only [← hexValue?_eq_some]
  unfold fourHex?
  simp only [Option.bind_eq_bind, Option.bind_eq_some_iff, Option.pure_def, Option.some.injEq]
  constructor
  · rintro ⟨i, hi, j, hj, k, hk, l, hl, rfl⟩
    exact ⟨i, j, k, l, hi, hj, hk, hl, rfl⟩
  · rintro ⟨i, j, k, l, hi, hj, hk, hl, rfl⟩
    exact ⟨i, hi, j, hj, k, hk, l, hl, rfl⟩

theorem fourHex?_of_digits {a b c d : Char} {i j k l : Nat} (ha : HexDigit a i) (hb : HexDigit b j) (hc : HexDigit c k)
    (hd : HexDigit d l) : fourHex? [a, b, c, d] = some (((i * 16 + j) * 16 + k) * 16 + l) :=
  fourHex?_eq_some.2 ⟨i, j, k, l, ha, hb, hc, hd, rfl⟩

/-! ### Surrogates -/

theorem not_high_toNat (c : Char) : Codes.isHighSurrogate c.toNat = false := by
  have hvalid : c.toNat < 0xd800 ∨ 0xdfff < c.toNat ∧ c.toNat < 0x110000 := c.valid
  simp only [Codes.isHighSurrogate, Bool.and_eq_false_iff, decide_eq_false_iff_not]
  omega

theorem not_low_toNat (c : Char) : Codes.isLowSurrogate c.toNat = false := by
  have hvalid : c.toNat < 0xd800 ∨ 0xdfff < c.toNat ∧ c.toNat < 0x110000 := c.valid
  simp only [Codes.isLowSurrogate, Bool.and_eq_false_iff, decide_eq_false_iff_not]
  omega

theorem not_surrogate_letter {c : Char} {n : Nat} (h : (c, n) ∈ letterEscapes) :
    c ≠ 'u' ∧ Codes.isHighSurrogate n = false ∧ Codes.isLowSurrogate n = false := by
  have hall : ∀ e ∈ letterEscapes, e.1 ≠ 'u' ∧ Codes.isHighSurrogate e.2 = false ∧ Codes.isLowSurrogate e.2 = false := by
    decide
  exact hall _ h

/-- What an escape of the number `n` comes to, with the codes behind it, and its length. -/
def escaped (n : Nat) : Codes → Nat × Nat
  | low :: _ =>
    if Codes.isHighSurrogate n && Codes.isLowSurrogate low then (Codes.joinSurrogates n low, 11) else (n, 5)
  | [] => (n, 5)

theorem escaped_of_not_high {n : Nat} (h : Codes.isHighSurrogate n = false) (ns : Codes) : escaped n ns = (n, 5) := by
  cases ns with
  | nil => rfl
  | cons low ns => rw [escaped, h, Bool.false_and, if_neg Bool.false_ne_true]

theorem escaped_of_not_low {n low : Nat} (h : Codes.isLowSurrogate low = false) (ns : Codes) :
    escaped n (low :: ns) = (n, 5) := by
  rw [escaped, h, Bool.and_false, if_neg Bool.false_ne_true]

/-- Nothing is joined where the escape is one alone. -/
theorem joined_of_escaped {n : Nat} {ns : Codes} (h : escaped n ns = (n, 5)) : joined (n :: ns) = n :: joined ns := by
  cases ns with
  | nil => rfl
  | cons low ns =>
    by_cases hjoin : (Codes.isHighSurrogate n && Codes.isLowSurrogate low) = true
    · rw [escaped, if_pos hjoin] at h
      cases (Prod.mk.inj h).2
    · rw [joined, if_neg hjoin]

/-- Behind an escape there is no other one of its kind, if the next piece is none. -/
theorem secondEscape?_eq_none {t : Text} (h : ∀ u, t ≠ '\x5c' :: 'u' :: u) : secondEscape? t = none := by
  unfold secondEscape?
  split
  · exact absurd rfl (h _)
  · rfl

/-- An escape with pieces behind it, up to the quote. -/
theorem unicodeEscape_eq {a b c d : Char} {n : Nat} (hn : fourHex? [a, b, c, d] = some n) {t : Text} {ns : Codes}
    (ht : Pieces t ns) (r : Text) : unicodeEscape (a :: b :: c :: d :: (t ++ '\x22' :: r)) = .ok (escaped n ns) := by
  have hfirst : ∀ u, fourHex? (a :: b :: c :: d :: u) = some n := fun _ => hn
  have hlong : ¬(a :: b :: c :: d :: (t ++ '\x22' :: r)).length ≤ 4 := by
    simp only [List.length_cons, List.length_append]
    omega
  unfold unicodeEscape
  rw [if_neg hlong, hfirst]
  dsimp only
  by_cases hhigh : Codes.isHighSurrogate n = true
  · rw [if_pos hhigh]
    have hdrop : (a :: b :: c :: d :: (t ++ '\x22' :: r)).drop 4 = t ++ '\x22' :: r := rfl
    rw [hdrop]
    cases ht with
    | nil =>
      rw [secondEscape?_eq_none fun u hu => by cases hu]
      rfl
    | @cons p u code ns hp ht =>
      cases hp with
      | @plain c' _ _ hslash =>
        have hnone : secondEscape? ([c'] ++ u ++ '\x22' :: r) = none :=
          secondEscape?_eq_none fun v hv => hslash (List.cons.inj hv).1
        rw [hnone, escaped_of_not_low (not_low_toNat _)]
      | @letter c' _ hletter =>
        obtain ⟨hu, -, hlow⟩ := not_surrogate_letter hletter
        have hnone : secondEscape? (['\x5c', c'] ++ u ++ '\x22' :: r) = none :=
          secondEscape?_eq_none fun v hv => hu (List.cons.inj (List.cons.inj hv).2).1
        rw [hnone, escaped_of_not_low hlow]
      | @digits a' b' c' d' i j k l ha hb hc hd =>
        have hlength : 4 < (a' :: b' :: c' :: d' :: (u ++ '\x22' :: r)).length := by
          simp only [List.length_cons, List.length_append]
          omega
        have hsecond : secondEscape? (['\x5c', 'u', a', b', c', d'] ++ u ++ '\x22' :: r) =
            some (a' :: b' :: c' :: d' :: (u ++ '\x22' :: r)) := if_pos hlength
        have hcode : fourHex? (a' :: b' :: c' :: d' :: (u ++ '\x22' :: r)) = some (((i * 16 + j) * 16 + k) * 16 + l) :=
          fourHex?_of_digits ha hb hc hd
        rw [hsecond]
        dsimp only
        rw [hcode, escaped, hhigh, Bool.true_and]
        dsimp only
        split <;> rfl
  · rw [if_neg hhigh, escaped_of_not_high (Bool.eq_false_iff.2 hhigh)]

/-! ### Whole strings -/

theorem stringFrom_left (start : Text) (done : Codes) (p r : Text) :
    stringFrom start done p.length (p ++ r) = stringFrom start done 0 r := by
  induction p with
  | nil => rfl
  | cons c p ih => exact ih

theorem stringFrom_plain {c : Char} (hc : 0x20 ≤ c.toNat) (hquote : c ≠ '\x22') (hslash : c ≠ '\x5c') (start : Text)
    (done : Codes) (r : Text) : stringFrom start done 0 (c :: r) = stringFrom start (c.toNat :: done) 0 r := by
  rw [stringFrom, if_neg hquote, if_neg hslash, if_neg (by omega)]

theorem stringFrom_escape {start p t : Text} {done : Codes} {code : Nat}
    (h : escape start (p ++ t) = .ok (code, p.length)) :
    stringFrom start done 0 ('\x5c' :: (p ++ t)) = stringFrom start (code :: done) 0 t := by
  rw [stringFrom, if_neg (by decide), if_pos rfl, h]
  exact stringFrom_left start (code :: done) p t

theorem exists_step_digits {a b c d : Char} {n : Nat} {t : Text} {ns : Codes} (hn : fourHex? [a, b, c, d] = some n)
    (ht : Pieces t ns) (start r : Text) :
    ∃ code u ms, Pieces u ms ∧ ms.length ≤ ns.length ∧ joined (n :: ns) = code :: joined ms ∧
      ∀ done, stringFrom start done 0 ('\x5c' :: 'u' :: a :: b :: c :: d :: (t ++ '\x22' :: r)) =
        stringFrom start (code :: done) 0 (u ++ '\x22' :: r) := by
  have hescape : escape start ('u' :: a :: b :: c :: d :: (t ++ '\x22' :: r)) = .ok (escaped n ns) :=
    unicodeEscape_eq hn ht r
  by_cases halone : escaped n ns = (n, 5)
  · rw [halone] at hescape
    exact ⟨n, t, ns, ht, Nat.le_refl _, joined_of_escaped halone,
      fun done => stringFrom_escape (p := ['u', a, b, c, d]) hescape⟩
  cases ht with
  | nil => exact absurd rfl halone
  | @cons p u low ms hp hu =>
    cases hp with
    | plain _ _ _ => exact absurd (escaped_of_not_low (not_low_toNat _) ms) halone
    | letter hletter => exact absurd (escaped_of_not_low (not_surrogate_letter hletter).2.2 ms) halone
    | @digits a' b' c' d' i j k l _ _ _ _ =>
      generalize ((i * 16 + j) * 16 + k) * 16 + l = low at halone hescape ⊢
      have hjoin : (Codes.isHighSurrogate n && Codes.isLowSurrogate low) = true := by
        by_contra hnot
        exact halone (if_neg hnot)
      rw [escaped, if_pos hjoin] at hescape
      refine ⟨Codes.joinSurrogates n low, u, ms, hu, Nat.le_succ _, by rw [joined, if_pos hjoin], fun done => ?_⟩
      exact stringFrom_escape (p := ['u', a, b, c, d, '\x5c', 'u', a', b', c', d']) hescape

/-- One step of the reader goes past the first piece, or past two that are joined. -/
theorem exists_step {t : Text} {n : Nat} {ns : Codes} (h : Pieces t (n :: ns)) (start r : Text) :
    ∃ code u ms, Pieces u ms ∧ ms.length ≤ ns.length ∧ joined (n :: ns) = code :: joined ms ∧
      ∀ done, stringFrom start done 0 (t ++ '\x22' :: r) = stringFrom start (code :: done) 0 (u ++ '\x22' :: r) := by
  cases h with
  | @cons p u _ _ hp hu =>
    cases hp with
    | plain hc hquote hslash =>
      exact ⟨_, u, ns, hu, Nat.le_refl _, joined_of_escaped (escaped_of_not_high (not_high_toNat _) ns),
        fun done => stringFrom_plain hc hquote hslash start done (u ++ '\x22' :: r)⟩
    | @letter c _ hletter =>
      obtain ⟨hc, hhigh, -⟩ := not_surrogate_letter hletter
      have hescape : escape start ([c] ++ (u ++ '\x22' :: r)) = .ok (n, 1) := by
        show (if c = 'u' then _ else _) = _
        rw [if_neg hc, letterEscape?_eq_some.2 hletter]
      exact ⟨n, u, ns, hu, Nat.le_refl _, joined_of_escaped (escaped_of_not_high hhigh ns),
        fun done => stringFrom_escape hescape⟩
    | digits ha hb hc hd => exact exists_step_digits (fourHex?_of_digits ha hb hc hd) hu start r

/-- A string that is written is read up to its quote. -/
theorem stringFrom_quoted (start : Text) (done : Codes) {t : Text} {ns : Codes} (h : Pieces t ns) (r : Text) :
    stringFrom start done 0 (t ++ '\x22' :: r) = .ok (done.reverse ++ joined ns, r) := by
  -- By the number of pieces, as two that are joined are passed over at once.
  induction hlength : ns.length using Nat.strong_induction_on generalizing t ns done with
  | _ _ ih =>
    subst hlength
    cases ns with
    | nil =>
      cases h
      have hnil : joined [] = [] := rfl
      rw [hnil, List.append_nil]
      rfl
    | cons n ns =>
      obtain ⟨code, u, ms, hu, hms, hjoined, hstep⟩ := exists_step h start r
      rw [hstep, ih ms.length (Nat.lt_succ_of_le hms) (code :: done) hu rfl, hjoined, List.reverse_cons,
        List.append_assoc]
      rfl

/-- An escape that is read is one of four digits, alone or with a low half behind it. -/
theorem unicodeEscape_eq_ok {r : Text} {code size : Nat} (h : unicodeEscape r = .ok (code, size)) :
    ∃ a b c d n t, r = a :: b :: c :: d :: t ∧ fourHex? [a, b, c, d] = some n ∧ ((code, size) = (n, 5) ∨
      ∃ a' b' c' d' low u, t = '\x5c' :: 'u' :: a' :: b' :: c' :: d' :: u ∧ fourHex? [a', b', c', d'] = some low ∧
        (Codes.isHighSurrogate n && Codes.isLowSurrogate low) = true ∧
        (code, size) = (Codes.joinSurrogates n low, 11)) := by
  have hsome : ∀ {t : Text} {n : Nat}, fourHex? t = some n →
      ∃ a b c d u, t = a :: b :: c :: d :: u ∧ fourHex? [a, b, c, d] = some n := by
    intro t n hn
    match t with
    | a :: b :: c :: d :: u => exact ⟨a, b, c, d, u, rfl, hn⟩
    | [] | [_] | [_, _] | [_, _, _] => cases hn
  unfold unicodeEscape at h
  split at h
  · cases h
  · split at h
    · cases h
    · rename_i n hn
      obtain ⟨a, b, c, d, t, rfl, hfour⟩ := hsome hn
      refine ⟨a, b, c, d, n, t, rfl, hfour, ?_⟩
      split at h
      · rename_i hhigh
        split at h
        · exact .inl (Except.ok.inj h).symm
        · rename_i u hsecond
          have ht : t = '\x5c' :: 'u' :: u := by
            change secondEscape? t = some u at hsecond
            unfold secondEscape? at hsecond
            split at hsecond
            · split at hsecond
              · rw [Option.some.inj hsecond]
              · cases hsecond
            · cases hsecond
          split at h
          · cases h
          · rename_i low hlow
            obtain ⟨a', b', c', d', u', rfl, hfour'⟩ := hsome hlow
            split at h
            · rename_i hislow
              refine .inr ⟨a', b', c', d', low, u', ht, hfour', ?_, (Except.ok.inj h).symm⟩
              rw [hhigh, hislow]
              rfl
            · exact .inl (Except.ok.inj h).symm
      · exact .inl (Except.ok.inj h).symm

theorem piece_of_fourHex? {a b c d : Char} {n : Nat} (h : fourHex? [a, b, c, d] = some n) :
    Piece ['\x5c', 'u', a, b, c, d] n := by
  obtain ⟨i, j, k, l, ha, hb, hc, hd, rfl⟩ := fourHex?_eq_some.1 h
  exact .digits ha hb hc hd

theorem escape_eq_ok {start u : Text} {code size : Nat} (h : escape start u = .ok (code, size)) :
    (∃ c v, u = c :: v ∧ (c, code) ∈ letterEscapes ∧ size = 1) ∨
      ∃ v, u = 'u' :: v ∧ unicodeEscape v = .ok (code, size) := by
  cases u with
  | nil => cases h
  | cons c v =>
    rw [escape] at h
    split at h
    · rename_i hc
      exact .inr ⟨v, by rw [hc], h⟩
    · split at h
      · rename_i hletter
        obtain ⟨rfl, rfl⟩ := Prod.mk.inj (Except.ok.inj h)
        exact .inl ⟨c, v, rfl, letterEscape?_eq_some.1 hletter, rfl⟩
      · cases h

/-- What an escape has been read from is one piece, or two that are joined, whatever string
    goes on behind it. -/
theorem exists_pieces {start u : Text} {code size : Nat} (h : escape start u = .ok (code, size)) :
    ∃ p v, u = p ++ v ∧ p.length = size ∧ ∀ q ns r, Pieces q ns → v = q ++ '\x22' :: r →
      ∃ ms, Pieces ('\x5c' :: (p ++ q)) ms ∧ joined ms = code :: joined ns := by
  rcases escape_eq_ok h with ⟨x, v, rfl, hletter, rfl⟩ | ⟨t, rfl, hunicode⟩
  · refine ⟨[x], v, rfl, rfl, fun q ns r hq _ => ⟨code :: ns, .cons (.letter hletter) hq, ?_⟩⟩
    exact joined_of_escaped (escaped_of_not_high (not_surrogate_letter hletter).2.1 ns)
  obtain ⟨a, b, c, d, high, v, rfl, hfour, halone | hpair⟩ := unicodeEscape_eq_ok hunicode
  · obtain ⟨rfl, rfl⟩ := Prod.mk.inj halone
    refine ⟨['u', a, b, c, d], v, rfl, rfl, fun q ns r hq hv => ⟨code :: ns, .cons (piece_of_fourHex? hfour) hq, ?_⟩⟩
    -- What is behind the escape is known by now, so it shows that nothing is joined.
    rw [hv, unicodeEscape_eq hfour hq r] at hunicode
    exact joined_of_escaped (Except.ok.inj hunicode)
  · obtain ⟨a', b', c', d', low, x, rfl, hfour', hjoin, hcode⟩ := hpair
    rw [Prod.mk.injEq] at hcode
    refine ⟨['u', a, b, c, d, '\x5c', 'u', a', b', c', d'], x, rfl, hcode.2.symm, fun q ns r hq _ =>
      ⟨high :: low :: ns, .cons (piece_of_fourHex? hfour) (.cons (piece_of_fourHex? hfour') hq), ?_⟩⟩
    rw [joined, if_pos hjoin, hcode.1]

/-- A string that is read is written up to its quote. -/
theorem stringFrom_eq_ok {start t r : Text} {done s : Codes} (h : stringFrom start done 0 t = .ok (s, r)) :
    ∃ p ns, Pieces p ns ∧ t = p ++ '\x22' :: r ∧ s = done.reverse ++ joined ns := by
  induction hlength : t.length using Nat.strong_induction_on generalizing t done with
  | _ n ih =>
    subst hlength
    have hnext : ∀ {u : Text} {code : Nat}, u.length < t.length → stringFrom start (code :: done) 0 u = .ok (s, r) →
        ∃ q ns, Pieces q ns ∧ u = q ++ '\x22' :: r ∧ s = done.reverse ++ code :: joined ns := by
      intro u code hshorter hu
      obtain ⟨q, ns, hq, hcut, hs⟩ := ih u.length hshorter hu rfl
      refine ⟨q, ns, hq, hcut, ?_⟩
      rw [hs, List.reverse_cons, List.append_assoc]
      rfl
    cases t with
    | nil => cases h
    | cons c u =>
      rw [stringFrom] at h
      split at h
      · rename_i hquote
        obtain ⟨rfl, rfl⟩ := Prod.mk.inj (Except.ok.inj h)
        have hnil : joined [] = [] := rfl
        exact ⟨[], [], .nil, by rw [hquote]; rfl, by rw [hnil, List.append_nil]⟩
      rename_i hquote
      split at h
      · rename_i hslash
        split at h
        · rename_i code size hescape
          obtain ⟨p, v, rfl, rfl, hpieces⟩ := exists_pieces hescape
          rw [stringFrom_left] at h
          obtain ⟨q, ns, hq, hv, hs⟩ := hnext (by simp only [List.length_cons, List.length_append]; omega) h
          obtain ⟨ms, hms, hjoined⟩ := hpieces q ns r hq hv
          refine ⟨'\x5c' :: (p ++ q), ms, hms, ?_, by rw [hs, hjoined]⟩
          rw [hslash, hv, List.cons_append, List.append_assoc]
        · cases h
      rename_i hslash
      split at h
      · cases h
      · rename_i hcontrol
        obtain ⟨q, ns, hq, rfl, hs⟩ := hnext (Nat.lt_succ_self _) h
        refine ⟨c :: q, c.toNat :: ns, .cons (.plain (by omega) hquote hslash) hq, rfl, ?_⟩
        rw [hs, joined_of_escaped (escaped_of_not_high (not_high_toNat c) ns)]

theorem unicodeEscape_eq_error {r : Text} {stop : Stop} (h : unicodeEscape r = .error stop) :
    ∃ cause left, stop = .at cause left := by
  unfold unicodeEscape at h
  repeat' split at h
  all_goals first
    | exact ⟨_, _, (Except.error.inj h).symm⟩
    | cases h

/-- A string stops at a character that cannot stand there, or at the end. -/
theorem stringFrom_eq_error {start t : Text} {done : Codes} {left : Nat} {stop : Stop}
    (h : stringFrom start done left t = .error stop) : ∃ cause u, stop = .at cause u := by
  induction t generalizing done left with
  | nil =>
    cases left <;> exact ⟨_, _, (Except.error.inj h).symm⟩
  | cons c t ih =>
    cases left with
    | succ left => exact ih h
    | zero =>
      rw [stringFrom] at h
      split at h
      · cases h
      · split at h
        · split at h
          · exact ih h
          · rename_i hescape
            obtain rfl := Except.error.inj h
            cases t with
            | nil => exact ⟨_, _, (Except.error.inj hescape).symm⟩
            | cons x v =>
              rw [escape] at hescape
              split at hescape
              · exact unicodeEscape_eq_error hescape
              · split at hescape
                · cases hescape
                · exact ⟨_, _, (Except.error.inj hescape).symm⟩
        · split at h
          · exact ⟨_, _, (Except.error.inj h).symm⟩
          · exact ih h

end Strings

/-! ## Numbers -/

section Numbers

theorem digits_span {ds r : Text} (hds : Digits ds) (hr : ∀ c ∈ r.head?, isAsciiDigit c = false) :
    (ds ++ r).takeWhile isAsciiDigit = ds ∧ (ds ++ r).dropWhile isAsciiDigit = r := Text.span_append hds.2 hr

theorem digits_takeWhile {t : Text} (h : t.takeWhile isAsciiDigit ≠ []) : Digits (t.takeWhile isAsciiDigit) :=
  ⟨h, fun _ hc => List.mem_takeWhile_imp hc⟩

theorem head_dropWhile (t : Text) : ∀ c ∈ (t.dropWhile isAsciiDigit).head?, isAsciiDigit c = false := by
  intro c hc
  have hhead := List.head?_dropWhile_not isAsciiDigit t
  rw [Option.mem_def] at hc
  rw [hc] at hhead
  exact hhead

theorem wholeDigits?_whole {w r : Text} (hw : Whole w) (hr : ∀ c ∈ r.head?, isAsciiDigit c = false) :
    wholeDigits? (w ++ r) = some (w, r) := by
  cases hw with
  | zero => rfl
  | @other c t hzero hds =>
    have hspan := digits_span hds hr
    have hc : isAsciiDigit c = true := hds.2 c List.mem_cons_self
    rw [List.cons_append] at hspan ⊢
    unfold wholeDigits?
    split
    · rename_i he
      exact absurd (List.cons.inj he).1 hzero
    · rename_i he
      obtain ⟨rfl, rfl⟩ := List.cons.inj he
      rw [if_pos hc, List.span_eq_takeWhile_dropWhile, hspan.1, hspan.2]
    · rename_i he
      cases he

theorem wholeDigits?_eq_some {t w r : Text} (h : wholeDigits? t = some (w, r)) :
    t = w ++ r ∧ Whole w ∧ (1 < w.length → ∀ c ∈ r.head?, isAsciiDigit c = false) := by
  unfold wholeDigits? at h
  split at h
  · obtain ⟨rfl, rfl⟩ := Prod.mk.inj (Option.some.inj h)
    exact ⟨rfl, .zero, fun hlong => absurd hlong (by decide)⟩
  · rename_i c u hzero
    split at h
    · rename_i hc
      rw [List.span_eq_takeWhile_dropWhile] at h
      obtain ⟨rfl, rfl⟩ := Prod.mk.inj (Option.some.inj h)
      have htake : (c :: u).takeWhile isAsciiDigit = c :: u.takeWhile isAsciiDigit := List.takeWhile_cons_of_pos hc
      refine ⟨List.takeWhile_append_dropWhile.symm, ?_, fun _ => head_dropWhile _⟩
      have hdigits := digits_takeWhile (t := c :: u) (by rw [htake]; exact List.cons_ne_nil _ _)
      rw [htake] at hdigits ⊢
      exact .other (fun he => hzero (by rw [he])) hdigits
    · cases h
  · cases h

theorem fraction_fraction {f ds r : Text} (hf : Fraction f ds) (hdigit : ∀ c ∈ r.head?, isAsciiDigit c = false)
    (hnone : f = [] → ∀ g ds, Fraction g ds → g ≠ [] → ¬g <+: r) : fraction (f ++ r) = (ds, r) := by
  cases hf with
  | none =>
    rw [List.nil_append]
    unfold fraction
    split
    · rename_i u
      split
      · rfl
      · rename_i hdigits
        have hd := digits_takeWhile (t := u) (by simpa using hdigits)
        refine absurd ?_ (hnone rfl _ _ (.some hd) (List.cons_ne_nil _ _))
        exact List.cons_prefix_cons.2 ⟨rfl, List.takeWhile_prefix _⟩
    · rfl
  | some hds =>
    obtain ⟨htake, hdrop⟩ := digits_span hds hdigit
    rw [List.cons_append, fraction, htake, if_neg (by simpa using hds.1), List.span_eq_takeWhile_dropWhile, htake,
      hdrop]

theorem exists_fraction (t : Text) : ∃ f, Fraction f (fraction t).1 ∧ t = f ++ (fraction t).2 ∧
    (f = [] → (fraction t).1 = [] ∧ ∀ g ds, Fraction g ds → g ≠ [] → ¬g <+: t) := by
  unfold fraction
  split
  · rename_i u
    split
    · rename_i hempty
      refine ⟨[], .none, rfl, fun _ => ⟨rfl, fun g ds hg hne hpre => ?_⟩⟩
      cases hg with
      | none => exact hne rfl
      | some hds =>
        obtain ⟨c, ds, rfl⟩ := List.exists_cons_of_ne_nil hds.1
        obtain ⟨v, rfl⟩ := (List.cons_prefix_cons.1 hpre).2
        rw [List.cons_append, List.takeWhile_cons_of_pos (hds.2 c List.mem_cons_self)] at hempty
        cases hempty
    · rename_i hdigits
      rw [List.span_eq_takeWhile_dropWhile]
      refine ⟨_, .some (digits_takeWhile (by simpa using hdigits)), ?_, fun h => by cases h⟩
      exact congrArg ('.' :: ·) List.takeWhile_append_dropWhile.symm
  · rename_i hdot
    refine ⟨[], .none, rfl, fun _ => ⟨rfl, fun g ds hg hne hpre => ?_⟩⟩
    cases hg with
    | none => exact hne rfl
    | some hds =>
      obtain ⟨u, rfl⟩ := hpre
      exact hdot _ rfl

theorem signOf_sign {sign ds : Text} {negative : Bool} (hsign : (sign, negative) ∈ exponentSigns) (hds : Digits ds)
    (r : Text) : IntText.signOf (sign ++ (ds ++ r)) = (negative, ds ++ r) := by
  obtain ⟨c, ds, rfl⟩ := List.exists_cons_of_ne_nil hds.1
  have hc : isAsciiDigit c = true := hds.2 c List.mem_cons_self
  simp only [exponentSigns, List.mem_cons, Prod.mk.injEq, List.not_mem_nil, or_false] at hsign
  rcases hsign with ⟨rfl, rfl⟩ | ⟨rfl, rfl⟩ | ⟨rfl, rfl⟩
  · unfold IntText.signOf
    split
    · rename_i he
      rw [(List.cons.inj he).1] at hc
      cases hc
    · rename_i he
      rw [(List.cons.inj he).1] at hc
      cases hc
    · rfl
  · rfl
  · rfl

theorem exists_sign (t : Text) : ∃ sign, (sign, (IntText.signOf t).1) ∈ exponentSigns ∧ t = sign ++ (IntText.signOf t).2 := by
  unfold IntText.signOf
  split
  · exact ⟨['-'], List.mem_of_getElem? (i := 2) rfl, rfl⟩
  · exact ⟨['+'], List.mem_of_getElem? (i := 1) rfl, rfl⟩
  · exact ⟨[], List.mem_cons_self, rfl⟩

theorem exponent?_some {c : Char} {sign ds r : Text} {negative : Bool} (hc : c = 'e' ∨ c = 'E')
    (hsign : (sign, negative) ∈ exponentSigns) (hds : Digits ds) (hdigit : ∀ c ∈ r.head?, isAsciiDigit c = false) :
    exponent? (c :: (sign ++ (ds ++ r))) =
      (some (if negative then -(asciiValue ds : Int) else asciiValue ds), r) := by
  obtain ⟨htake, hdrop⟩ := digits_span hds hdigit
  unfold exponent?
  dsimp only
  rw [if_pos hc, signOf_sign hsign hds, htake, if_neg (by simpa using hds.1), hdrop]

/-- Whether an exponent is read does not depend on what follows its first digits. -/
theorem exponent?_of_prefix {e t : Text} {n : Int} (he : Exponent e n) (hne : e ≠ []) (hpre : e <+: t) :
    (exponent? t).1 ≠ none := by
  cases he with
  | none => exact absurd rfl hne
  | @some c sign ds negative hc hsign hds =>
    obtain ⟨u, rfl⟩ := hpre
    obtain ⟨d, ds, rfl⟩ := List.exists_cons_of_ne_nil hds.1
    have hd : isAsciiDigit d = true := hds.2 d List.mem_cons_self
    rw [List.cons_append, List.append_assoc]
    unfold exponent?
    dsimp only
    rw [if_pos hc, signOf_sign hsign hds, List.cons_append, List.takeWhile_cons_of_pos hd]
    simp

theorem exists_exponent (t : Text) : ∃ e n, Exponent e n ∧ t = e ++ (exponent? t).2 ∧
    (exponent? t).1 = if e = [] then none else some n := by
  unfold exponent?
  split
  · rename_i c r
    split
    · rename_i hc
      obtain ⟨sign, hsign, hr⟩ := exists_sign r
      dsimp only
      split
      · exact ⟨[], 0, .none, rfl, rfl⟩
      · rename_i hdigits
        have hds := digits_takeWhile (t := (IntText.signOf r).2) (by simpa using hdigits)
        refine ⟨_, _, .some hc hsign hds, ?_, rfl⟩
        show c :: r = c :: ((sign ++ _) ++ _)
        rw [List.append_assoc, List.takeWhile_append_dropWhile, ← hr]
    · exact ⟨[], 0, .none, rfl, rfl⟩
  · exact ⟨[], 0, .none, rfl, rfl⟩

theorem exponent?_exponent {e r : Text} {n : Int} (he : Exponent e n) (hdigit : ∀ c ∈ r.head?, isAsciiDigit c = false)
    (hnone : e = [] → ∀ e' m, Exponent e' m → e' ≠ [] → ¬e' <+: r) :
    exponent? (e ++ r) = (if e = [] then none else some n, r) := by
  cases he with
  | none =>
    obtain ⟨e, m, he, hr, hfound⟩ := exists_exponent r
    by_cases hempty : e = []
    · rw [if_pos hempty] at hfound
      rw [hempty, List.nil_append] at hr
      exact Prod.ext hfound hr.symm
    · exact absurd ⟨_, hr.symm⟩ (hnone rfl e m he hempty)
  | some hc hsign hds =>
    rw [List.cons_append, List.append_assoc, exponent?_some hc hsign hds hdigit]
    rfl

/-- What starts with a fraction or an exponent does not start with a digit. -/
theorem head_append {f ds e r : Text} {n : Int} (hf : Fraction f ds) (he : Exponent e n)
    (hr : ∀ c ∈ r.head?, isAsciiDigit c = false) : ∀ c ∈ (f ++ (e ++ r)).head?, isAsciiDigit c = false := by
  intro c hc
  cases hf with
  | some _ =>
    obtain rfl := Option.some.inj hc
    rfl
  | none =>
    cases he with
    | some hmark _ _ =>
      obtain rfl := Option.some.inj hc
      rcases hmark with rfl | rfl <;> rfl
    | none => exact hr c hc

theorem unsigned?_int {w r : Text} (negative : Bool) (hw : Whole w) (hr : Ends r) : unsigned? negative (w ++ r) =
    if IntText.maxDigits < w.length then some (.error (.tooManyDigits w.length), r)
    else some (.ok (.int (if negative then -asciiValue w else asciiValue w)), r) := by
  have hfraction : fraction r = ([], r) := fraction_fraction .none hr.digit fun _ => hr.fraction
  have hexponent : exponent? r = (none, r) := exponent?_exponent .none hr.digit fun _ => hr.exponent
  unfold unsigned?
  rw [wholeDigits?_whole hw hr.digit]
  dsimp only
  rw [hfraction]
  dsimp only
  rw [hexponent]
  rfl

theorem unsigned?_float {w f ds e r : Text} {n : Int} (negative : Bool) (hw : Whole w) (hf : Fraction f ds)
    (he : Exponent e n) (hne : f ++ e ≠ []) (hr : Ends r) : unsigned? negative (w ++ (f ++ (e ++ r))) =
      some (.ok (.float (Binary64.ofDecimal negative (asciiValue (w ++ ds)) (n - ds.length))), r) := by
  have hfraction : fraction (f ++ (e ++ r)) = (ds, e ++ r) := by
    refine fraction_fraction hf (head_append .none he hr.digit) fun hempty g gs hg hgs hpre => ?_
    cases he with
    | none => exact hr.fraction g gs hg hgs hpre
    | some hmark _ _ =>
      cases hg with
      | none => exact hgs rfl
      | some _ =>
        have hdot := (List.cons_prefix_cons.1 hpre).1
        rcases hmark with rfl | rfl <;> exact absurd hdot (by decide)
  have hexponent := exponent?_exponent he hr.digit fun _ => hr.exponent
  have hlong : (ds.isEmpty && (if e = [] then none else some n : Option Int).isNone) = false := by
    cases hf with
    | some hds => rw [List.isEmpty_eq_false_iff.2 hds.1, Bool.false_and]
    | none =>
      rw [List.nil_append] at hne
      rw [if_neg hne]
      rfl
  have hvalue : (if e = [] then none else some n : Option Int).getD 0 = n := by
    cases he with
    | none => rfl
    | some _ _ _ => rfl
  unfold unsigned?
  rw [wholeDigits?_whole hw (head_append hf he hr.digit)]
  dsimp only
  rw [hfraction]
  dsimp only
  rw [hexponent]
  dsimp only
  rw [hlong, if_neg Bool.false_ne_true, hvalue]

/-- Where neither a fraction nor an exponent is found, there is none. -/
theorem ends_of_whole {u : Text} (hfraction : (fraction u).1 = []) (hexponent : (exponent? (fraction u).2).1 = none) :
    (exponent? (fraction u).2).2 = u ∧ ((∀ c ∈ u.head?, isAsciiDigit c = false) → Ends u) := by
  obtain ⟨f, hf, hu, hnofraction⟩ := exists_fraction u
  rw [hfraction] at hf
  obtain rfl : f = [] := by
    cases hf with
    | none => rfl
    | some hds => exact absurd rfl hds.1
  rw [← List.nil_append (fraction u).2, ← hu] at hexponent ⊢
  obtain ⟨e, n, -, hv, hfound⟩ := exists_exponent u
  obtain rfl : e = [] := by
    by_contra hne
    rw [hexponent, if_neg hne] at hfound
    cases hfound
  exact ⟨hv.symm, fun hdigit =>
    ⟨hdigit, (hnofraction rfl).2, fun e m he hne hpre => exponent?_of_prefix he hne hpre hexponent⟩⟩

/-- A whole number with a fraction or an exponent behind it is one of the floating-point
    numbers. -/
theorem exists_float {w u : Text} (negative : Bool) (hw : Whole w)
    (hpart : ((fraction u).1.isEmpty && (exponent? (fraction u).2).1.isNone) = false) :
    ∃ p, w ++ u = p ++ (exponent? (fraction u).2).2 ∧ Number IntText.maxDigits (signText negative ++ p)
      (.float (Binary64.ofDecimal negative (asciiValue (w ++ (fraction u).1))
        ((exponent? (fraction u).2).1.getD 0 - (fraction u).1.length))) := by
  obtain ⟨f, hf, hu, hnofraction⟩ := exists_fraction u
  obtain ⟨e, n, he, hv, hfound⟩ := exists_exponent (fraction u).2
  have hvalue : (exponent? (fraction u).2).1.getD 0 = n := by
    rw [hfound]
    cases he with
    | none => rfl
    | some _ _ _ => rfl
  refine ⟨w ++ (f ++ e), ?_, ?_⟩
  · rw [List.append_assoc, List.append_assoc, ← hv, ← hu]
  · rw [hvalue]
    refine .float negative hw hf he fun hnil => ?_
    obtain ⟨hf', he'⟩ := List.append_eq_nil_iff.1 hnil
    rw [(hnofraction hf').1, hfound, if_pos he'] at hpart
    cases hpart

theorem unsigned?_eq_some {negative : Bool} {t r : Text} {x : Except IntText.Fault Value}
    (h : unsigned? negative t = some (x, r)) :
    (∃ p v, x = .ok v ∧ t = p ++ r ∧ Number IntText.maxDigits (signText negative ++ p) v) ∨
      ∃ p, x = .error (.tooManyDigits p.length) ∧ t = p ++ r ∧
        Overlong IntText.maxDigits (signText negative ++ p) r p.length := by
  unfold unsigned? at h
  split at h
  · cases h
  rename_i w u hwhole
  obtain ⟨rfl, hw, hdigit⟩ := wholeDigits?_eq_some hwhole
  dsimp only at h
  split at h
  · rename_i hplain
    obtain ⟨hfraction, hexponent⟩ := Bool.and_eq_true_iff.1 hplain
    obtain ⟨hr, hends⟩ := ends_of_whole (List.isEmpty_iff.1 hfraction) (Option.isNone_iff_eq_none.1 hexponent)
    rw [hr] at h
    split at h
    · rename_i hlong
      obtain ⟨rfl, rfl⟩ := Prod.mk.inj (Option.some.inj h)
      exact .inr ⟨w, rfl, rfl, .mk negative hw hlong (hends (hdigit (Nat.lt_trans (by decide) hlong)))⟩
    · rename_i hshort
      obtain ⟨rfl, rfl⟩ := Prod.mk.inj (Option.some.inj h)
      exact .inl ⟨w, _, rfl, rfl, .int negative hw (Nat.le_of_not_lt hshort)⟩
  · rename_i hpart
    obtain ⟨rfl, rfl⟩ := Prod.mk.inj (Option.some.inj h)
    obtain ⟨p, hp, hnumber⟩ := exists_float negative hw (Bool.eq_false_iff.2 hpart)
    exact .inl ⟨p, _, rfl, hp, hnumber⟩

theorem head_whole {w : Text} (hw : Whole w) : ∃ c t, w = c :: t ∧ isAsciiDigit c = true := by
  cases hw with
  | zero => exact ⟨'0', [], rfl, rfl⟩
  | @other c t _ hds => exact ⟨c, t, rfl, hds.2 c List.mem_cons_self⟩

theorem number?_signed {w : Text} (hw : Whole w) (negative : Bool) (r : Text) :
    number? (signText negative ++ (w ++ r)) = unsigned? negative (w ++ r) := by
  cases negative with
  | true => rfl
  | false =>
    obtain ⟨c, t, rfl, hc⟩ := head_whole hw
    show number? (c :: (t ++ r)) = unsigned? false (c :: (t ++ r))
    unfold number?
    split
    · rename_i he
      rw [(List.cons.inj he).1] at hc
      cases hc
    · rfl

/-- A number that is written is read where it ends, unless it has too many digits to be
    read at all. -/
theorem number?_number {digits : Nat} {t r : Text} {v : Value} (h : Number digits t v) (hr : Ends r) :
    number? (t ++ r) = some (.ok v, r) ∨
      IntText.maxDigits < digits ∧ ∃ n, number? (t ++ r) = some (.error (.tooManyDigits n), r) := by
  cases h with
  | @int w negative hw hdigits =>
    rw [List.append_assoc, number?_signed hw, unsigned?_int negative hw hr]
    split
    · exact .inr ⟨by omega, _, rfl⟩
    · exact .inl rfl
  | float negative hw hf he hne =>
    rw [List.append_assoc, List.append_assoc, List.append_assoc, number?_signed hw,
      unsigned?_float negative hw hf he hne hr]
    exact .inl rfl

theorem number?_overlong {t r : Text} {n : Nat} (h : Overlong IntText.maxDigits t r n) :
    number? (t ++ r) = some (.error (.tooManyDigits n), r) := by
  obtain ⟨negative, hw, hlong, hr⟩ := h
  rw [List.append_assoc, number?_signed hw, unsigned?_int negative hw hr, if_pos hlong]

theorem number?_eq_some {t r : Text} {x : Except IntText.Fault Value} (h : number? t = some (x, r)) :
    (∃ p v, x = .ok v ∧ t = p ++ r ∧ Number IntText.maxDigits p v) ∨
      ∃ p n, x = .error (.tooManyDigits n) ∧ t = p ++ r ∧ Overlong IntText.maxDigits p r n := by
  unfold number? at h
  split at h
  · rcases unsigned?_eq_some h with ⟨p, v, rfl, rfl, hv⟩ | ⟨p, rfl, rfl, hover⟩
    · exact .inl ⟨_, v, rfl, rfl, hv⟩
    · exact .inr ⟨_, _, rfl, rfl, hover⟩
  · rcases unsigned?_eq_some h with ⟨p, v, rfl, rfl, hv⟩ | ⟨p, rfl, rfl, hover⟩
    · exact .inl ⟨_, v, rfl, rfl, hv⟩
    · exact .inr ⟨_, _, rfl, rfl, hover⟩

end Numbers

/-! ## Names -/

section Names

theorem named?_eq_some {t r : Text} {v : Value} (h : named? t = some (v, r)) : ∃ n, (n, v) ∈ named ∧ t = n ++ r := by
  obtain ⟨⟨n, w⟩, hmem, hfound⟩ := List.exists_of_findSome?_eq_some h
  obtain ⟨u, hafter, he⟩ := Option.map_eq_some_iff.1 hfound
  obtain ⟨rfl, rfl⟩ := Prod.mk.inj he
  refine ⟨n, hmem, ?_⟩
  unfold Text.after? at hafter
  split at hafter
  · rename_i hstarts
    obtain ⟨x, rfl⟩ := Text.startsWith_iff.1 hstarts
    rw [List.drop_left] at hafter
    rw [Option.some.inj hafter]
  · cases hafter

theorem named?_named {n : Text} {v : Value} (h : (n, v) ∈ named) (r : Text) : named? (n ++ r) = some (v, r) := by
  simp only [named, List.mem_cons, Prod.mk.injEq, List.not_mem_nil, or_false] at h
  rcases h with ⟨rfl, rfl⟩ | ⟨rfl, rfl⟩ | ⟨rfl, rfl⟩ | ⟨rfl, rfl⟩ | ⟨rfl, rfl⟩ | ⟨rfl, rfl⟩ <;> rfl

/-- No name starts like a number. -/
theorem named?_signed {w : Text} (hw : Whole w) (negative : Bool) (r : Text) :
    named? (signText negative ++ (w ++ r)) = none := by
  obtain ⟨c, t, rfl, hc⟩ := head_whole hw
  have hnames : ∀ e ∈ named, 2 ≤ e.1.length ∧ ∀ i < 2, e.1[i]?.all (!isAsciiDigit ·) = true := by decide
  have hsign : (signText negative).length < 2 := by cases negative <;> decide
  cases hnamed : named? (signText negative ++ (c :: t ++ r)) with
  | none => rfl
  | some found =>
    obtain ⟨n, hmem, he⟩ := named?_eq_some hnamed
    obtain ⟨hlength, hdigit⟩ := hnames _ hmem
    dsimp only at hlength hdigit
    have hat : n[(signText negative).length]? = some c := by
      have hleft : (n ++ found.2)[(signText negative).length]? = n[(signText negative).length]? :=
        List.getElem?_append_left (by omega)
      rw [← hleft, ← he, List.getElem?_append_right (Nat.le_refl _), Nat.sub_self]
      rfl
    replace hdigit := hdigit _ hsign
    rw [hat, Option.all_some, hc] at hdigit
    cases hdigit

theorem exists_signed {digits : Nat} {t : Text} {v : Value} (h : Number digits t v) :
    ∃ negative w u, Whole w ∧ t = signText negative ++ (w ++ u) := by
  cases h with
  | @int w negative hw _ => exact ⟨negative, w, [], hw, by rw [List.append_nil]⟩
  | float negative hw _ _ _ => exact ⟨negative, _, _, hw, rfl⟩

end Names

end Accessors.Value
