/-
  Accessors.Proofs.Value.Encoded — strings written in ASCII, and read again.

  A string is written piece by piece: a code point is one piece, or two that are the
  halves of a surrogate pair (`pieces_escapedCode`). Read together the pieces are the
  string again (`joined_units`), but for a high surrogate and a low one that stand behind
  each other in the string: they are read as the code point that they stand for, and no
  writing in ASCII keeps them apart. In characters there are none (`unpaired_codes`).
  - `quoted_jsonString`, `graphic_jsonString`: what is written of a string, and in which
    characters;
  - `read_ofStrings`: an object of strings is read as the object of what is read of them;
  - `joined_eq_self_iff`: which strings are read as they are.
-/
import Accessors.Proofs.Text.Lines
import Accessors.Proofs.Value.Reader
import Accessors.Value.Json

namespace Accessors

/-! ## Strings -/

namespace Codes

/-- The numbers of a string are those of code points. -/
def IsString (s : Codes) : Prop := ∀ n ∈ s, n < 0x110000

/-- No high surrogate stands right before a low one. -/
def Unpaired (s : Codes) : Prop :=
  ∀ high low, isHighSurrogate high = true → isLowSurrogate low = true → ¬[high, low] <:+: s

theorem IsString.of_cons {n : Nat} {s : Codes} (h : IsString (n :: s)) : n < 0x110000 ∧ IsString s :=
  List.forall_mem_cons.1 h

theorem IsString.append {s t : Codes} (hs : IsString s) (ht : IsString t) : IsString (s ++ t) :=
  fun n hn => (List.mem_append.1 hn).elim (hs n) (ht n)

theorem isString_codes (t : Text) : IsString t.codes := by
  intro n hn
  obtain ⟨c, -, rfl⟩ := List.mem_map.1 hn
  have hvalid : c.toNat < 0xd800 ∨ 0xdfff < c.toNat ∧ c.toNat < 0x110000 := c.valid
  omega

/-- A character is no half of a pair. -/
theorem unpaired_codes (t : Text) : Unpaired t.codes := by
  intro high low hhigh _ hinfix
  have hmem : high ∈ t.codes := hinfix.subset List.mem_cons_self
  obtain ⟨c, -, rfl⟩ := List.mem_map.1 hmem
  rw [Value.not_high_toNat] at hhigh
  cases hhigh

theorem units_of_lt {n : Nat} (h : n < 0x10000) : units n = [n] := if_pos h

/-- The units of a code point beyond sixteen bits are a high and a low surrogate. -/
theorem units_of_le {n : Nat} (h : 0x10000 ≤ n) (hn : n < 0x110000) : ∃ high low, units n = [high, low] ∧
    isHighSurrogate high = true ∧ isLowSurrogate low = true ∧ joinSurrogates high low = n := by
  refine ⟨_, _, if_neg (by omega), ?_, ?_, ?_⟩
  · simp only [isHighSurrogate, Bool.and_eq_true, decide_eq_true_eq]
    omega
  · simp only [isLowSurrogate, Bool.and_eq_true, decide_eq_true_eq]
    omega
  · unfold joinSurrogates
    omega

theorem not_low_of_high {n : Nat} (h : isHighSurrogate n = true) : isLowSurrogate n = false := by
  simp only [isHighSurrogate, Bool.and_eq_true, decide_eq_true_eq] at h
  simp only [isLowSurrogate, Bool.and_eq_false_iff, decide_eq_false_iff_not]
  omega

end Codes

namespace Value

open Codes (IsString Unpaired units isHighSurrogate isLowSurrogate)

/-! ## Joining -/

theorem joined_pair {high low : Nat} (h : (isHighSurrogate high && isLowSurrogate low) = true) (s : Codes) :
    joined (high :: low :: s) = Codes.joinSurrogates high low :: joined s := by
  rw [joined, if_pos h]

theorem joined_apart {n m : Nat} (h : (isHighSurrogate n && isLowSurrogate m) = false) (s : Codes) :
    joined (n :: m :: s) = n :: joined (m :: s) := by
  rw [joined, h, if_neg Bool.false_ne_true]

theorem joined_wide {n : Nat} (h : 0x10000 ≤ n) (hn : n < 0x110000) (s : Codes) :
    joined (units n ++ s) = n :: joined s := by
  obtain ⟨high, low, hunits, hhigh, hlow, hjoin⟩ := Codes.units_of_le h hn
  have hpair : joined (high :: low :: s) = Codes.joinSurrogates high low :: joined s :=
    joined_pair (by rw [hhigh, hlow]; rfl) s
  rw [hunits, ← hjoin, ← hpair]
  rfl

/-- The units of a string are joined as the string is. -/
theorem joined_units {s : Codes} (h : IsString s) : joined (s.flatMap units) = joined s := by
  fun_induction joined s with
  | case1 high low s hpair ih =>
    have hsmall : high < 0x10000 ∧ low < 0x10000 := by
      simp only [isHighSurrogate, isLowSurrogate, Bool.and_eq_true, decide_eq_true_eq] at hpair
      omega
    rw [List.flatMap_cons, List.flatMap_cons, Codes.units_of_lt hsmall.1, Codes.units_of_lt hsmall.2,
      ← ih h.of_cons.2.of_cons.2]
    exact joined_pair hpair _
  | case2 n m s hpair ih =>
    obtain ⟨hn, hrest⟩ := h.of_cons
    by_cases hwide : 0x10000 ≤ n
    · rw [List.flatMap_cons, joined_wide hwide hn, ih hrest]
    · rw [← ih hrest, List.flatMap_cons, Codes.units_of_lt (Nat.lt_of_not_le hwide), List.flatMap_cons]
      -- The first unit of what follows is a low surrogate only if that is one itself.
      by_cases hwide' : 0x10000 ≤ m
      · obtain ⟨high, low, hunits, hhigh, -, -⟩ := Codes.units_of_le hwide' hrest.of_cons.1
        rw [hunits]
        exact joined_apart (by rw [Codes.not_low_of_high hhigh, Bool.and_false]) _
      · rw [Codes.units_of_lt (Nat.lt_of_not_le hwide')]
        exact joined_apart (Bool.eq_false_iff.2 hpair) _
  | case3 s hshort =>
    cases s with
    | nil => rfl
    | cons n s =>
      cases s with
      | cons m s => exact absurd rfl (hshort n m s)
      | nil =>
        rw [List.flatMap_cons, List.flatMap_nil]
        by_cases hwide : 0x10000 ≤ n
        · exact joined_wide hwide h.of_cons.1 []
        · rw [Codes.units_of_lt (Nat.lt_of_not_le hwide)]
          rfl

theorem length_joined_le (s : Codes) : (joined s).length ≤ s.length := by
  fun_induction joined s with
  | case1 high low s _ ih =>
    simp only [List.length_cons]
    omega
  | case2 n m s _ ih =>
    simp only [List.length_cons] at ih ⊢
    omega
  | case3 s _ => exact Nat.le_refl _

theorem joined_eq_self_iff (s : Codes) : joined s = s ↔ Unpaired s := by
  fun_induction joined s with
  | case1 high low s hpair ih =>
    obtain ⟨hhigh, hlow⟩ := Bool.and_eq_true_iff.1 hpair
    constructor
    · intro he
      have hlength := congrArg List.length he
      have hle := length_joined_le s
      simp only [List.length_cons] at hlength
      omega
    · intro h
      exact absurd (List.prefix_append [high, low] s).isInfix (h high low hhigh hlow)
  | case2 n m s hpair ih =>
    rw [List.cons.injEq, ih, and_iff_right rfl]
    constructor
    · intro h high low hhigh hlow hinfix
      rcases List.infix_cons_iff.1 hinfix with hprefix | hinfix
      · obtain ⟨hn, hprefix⟩ := List.cons_prefix_cons.1 hprefix
        obtain ⟨hm, -⟩ := List.cons_prefix_cons.1 hprefix
        subst hn hm
        exact hpair (Bool.and_eq_true_iff.2 ⟨hhigh, hlow⟩)
      · exact h high low hhigh hlow hinfix
    · exact fun h high low hhigh hlow hinfix => h high low hhigh hlow (List.infix_cons hinfix)
  | case3 s hshort =>
    refine iff_of_true rfl fun high low _ _ hinfix => ?_
    obtain ⟨a, b, rfl⟩ := hinfix
    cases a with
    | nil => exact hshort _ _ _ rfl
    | cons c a =>
      cases a with
      | nil => exact hshort _ _ _ rfl
      | cons d a => exact hshort _ _ _ rfl

theorem joined_codes (t : Text) : joined t.codes = t.codes := (joined_eq_self_iff _).2 (Codes.unpaired_codes t)

/-! ## Pieces -/

theorem Piece.pieces {p : Text} {n : Nat} (h : Piece p n) : Pieces p [n] := by
  rw [← List.append_nil p]
  exact .cons h .nil

theorem Pieces.append {p t : Text} {ns ms : Codes} (hp : Pieces p ns) (ht : Pieces t ms) :
    Pieces (p ++ t) (ns ++ ms) := by
  induction hp with
  | nil => exact ht
  | cons h _ ih =>
    rw [List.append_assoc]
    exact .cons h ih

theorem piece_escapedUnit {n : Nat} (h : n < 0x10000) : Piece (escapedUnit n) n := by
  have hdigit : ∀ m, HexDigit (Text.hexDigit m) (m % 16) := fun m => ⟨Nat.mod_lt m (by decide), .inl rfl⟩
  have hvalue : ((n / 16 / 16 / 16 % 16 * 16 + n / 16 / 16 % 16) * 16 + n / 16 % 16) * 16 + n % 16 = n := by omega
  have hpiece := Piece.digits (hdigit (n / 16 / 16 / 16)) (hdigit (n / 16 / 16)) (hdigit (n / 16)) (hdigit n)
  rw [hvalue] at hpiece
  exact hpiece

theorem pieces_escapedUnits {n : Nat} (hn : n < 0x110000) : Pieces ((units n).flatMap escapedUnit) (units n) := by
  by_cases hwide : 0x10000 ≤ n
  · obtain ⟨high, low, hunits, hhigh, hlow, -⟩ := Codes.units_of_le hwide hn
    simp only [isHighSurrogate, isLowSurrogate, Bool.and_eq_true, decide_eq_true_eq] at hhigh hlow
    rw [hunits]
    exact (piece_escapedUnit (by omega)).pieces.append
      ((piece_escapedUnit (by omega)).pieces.append .nil)
  · rw [Codes.units_of_lt (Nat.lt_of_not_le hwide)]
    exact (piece_escapedUnit (Nat.lt_of_not_le hwide)).pieces.append .nil

theorem toNat_printable {n : Nat} (h : 0x20 ≤ n ∧ n < 0x7f) : (Char.ofNat n).toNat = n := by
  rw [Text.toNat_ofNat, if_pos (.inl (by omega))]

/-- A code point is written as one piece, or as two that stand for its units. -/
theorem pieces_escapedCode {n : Nat} (hn : n < 0x110000) : Pieces (escapedCode n) (units n) := by
  have hletter : ∀ e ∈ letterEscapes, Pieces ['\x5c', e.1] (units e.2) := by
    intro e he
    have hsmall : ∀ e ∈ letterEscapes, e.2 < 0x10000 := by decide
    rw [Codes.units_of_lt (hsmall e he)]
    exact (Piece.letter he).pieces
  unfold escapedCode
  split
  · subst n
    exact hletter ('\x22', 34) (by decide)
  split
  · subst n
    exact hletter ('\x5c', 92) (by decide)
  split
  · subst n
    exact hletter ('n', 10) (by decide)
  split
  · subst n
    exact hletter ('r', 13) (by decide)
  split
  · subst n
    exact hletter ('t', 9) (by decide)
  split
  · subst n
    exact hletter ('f', 12) (by decide)
  split
  · subst n
    exact hletter ('b', 8) (by decide)
  split
  · rename_i hquote hslash _ _ _ _ _ hplain
    have hnat := toNat_printable hplain
    have hpiece : Piece [Char.ofNat n] (Char.ofNat n).toNat := by
      refine .plain (by omega) ?_ ?_
      · exact fun he => hquote (by rw [← hnat, he]; rfl)
      · exact fun he => hslash (by rw [← hnat, he]; rfl)
    rw [Codes.units_of_lt (by omega)]
    rw [hnat] at hpiece
    exact hpiece.pieces
  · exact pieces_escapedUnits hn

theorem pieces_escaped {s : Codes} (h : IsString s) : Pieces (s.flatMap escapedCode) (s.flatMap units) := by
  induction s with
  | nil => exact .nil
  | cons n s ih =>
    rw [List.flatMap_cons, List.flatMap_cons]
    exact (pieces_escapedCode h.of_cons.1).append (ih h.of_cons.2)

theorem quoted_jsonString {s : Codes} (h : IsString s) : Quoted (jsonString s) (joined s) := by
  have hquoted := Quoted.mk (pieces_escaped h)
  rw [joined_units h] at hquoted
  exact hquoted

/-! ## Characters -/

/-- Only characters of ASCII that are no controls. -/
def Graphic (t : Text) : Prop := Text.Of (fun c => 0x20 ≤ c.toNat ∧ c.toNat < 0x7f) t

instance (t : Text) : Decidable (Graphic t) := inferInstanceAs (Decidable (Text.Of _ t))

theorem Graphic.append {t u : Text} (ht : Graphic t) (hu : Graphic u) : Graphic (t ++ u) := Text.of_append.2 ⟨ht, hu⟩

/-- None of them ends a line. -/
theorem Graphic.unbroken {t : Text} (h : Graphic t) : Text.Unbroken t := by
  intro c hc
  have hgraphic := h c hc
  simp only [Text.isBreak, Bool.or_eq_false_iff, Bool.and_eq_false_iff, decide_eq_false_iff_not, beq_eq_false_iff_ne]
  omega

theorem graphic_escapedCode (n : Nat) : Graphic (escapedCode n) := by
  have hdigit : ∀ m < 16, Graphic [Nat.digitChar m] := by decide
  have hhex : ∀ width m, Graphic (Text.hex width m) := by
    intro width
    induction width with
    | zero => exact fun _ => Text.of_nil
    | succ width ih => exact fun m => (ih (m / 16)).append (hdigit _ (Nat.mod_lt m (by decide)))
  have hunit : ∀ unit, Graphic (escapedUnit unit) := by
    intro unit
    have hstart : Graphic ['\x5c', 'u'] := by decide
    exact hstart.append (hhex 4 unit)
  unfold escapedCode
  iterate 7
    split
    · decide
  split
  · rename_i hplain
    intro c hc
    rw [List.mem_singleton.1 hc, toNat_printable hplain]
    exact hplain
  · intro c hc
    obtain ⟨unit, -, hc⟩ := List.mem_flatMap.1 hc
    exact hunit unit c hc

theorem graphic_jsonString (s : Codes) : Graphic (jsonString s) := by
  have hbody : Graphic (s.flatMap escapedCode) := by
    intro c hc
    obtain ⟨n, -, hc⟩ := List.mem_flatMap.1 hc
    exact graphic_escapedCode n c hc
  have hquote : Graphic ['\x22'] := by decide
  exact (hquote.append hbody).append hquote

/-! ## Objects of strings -/

def strings (ms : List (Codes × Codes)) : List (Codes × Value) := ms.map fun m => (m.1, .str m.2)

theorem jsonMembers_cons (m m' : Codes × Codes) (ms : List (Codes × Codes)) : jsonMembers (strings (m :: m' :: ms)) =
    jsonString m.1 ++ ": ".toList ++ jsonString m.2 ++ ", ".toList ++ jsonMembers (strings (m' :: ms)) := rfl

theorem graphic_members (ms : List (Codes × Codes)) : Graphic (jsonMembers (strings ms)) := by
  have hcolon : Graphic ": ".toList := by decide
  have hcomma : Graphic ", ".toList := by decide
  have hmember : ∀ m : Codes × Codes, Graphic (jsonString m.1 ++ ": ".toList ++ jsonString m.2) :=
    fun m => ((graphic_jsonString m.1).append hcolon).append (graphic_jsonString m.2)
  induction ms with
  | nil => exact Text.of_nil
  | cons m ms ih =>
    cases ms with
    | nil => exact hmember m
    | cons m' ms =>
      rw [jsonMembers_cons]
      exact ((hmember m).append hcomma).append ih

theorem graphic_ofStrings (ms : List (Codes × Codes)) : Graphic (ofStrings ms).json := by
  have hstart : Graphic ['\x7b'] := by decide
  have hend : Graphic ['\x7d'] := by decide
  exact (hstart.append (graphic_members ms)).append hend

section Members

variable {digits depth : Nat} {ms : List (Codes × Codes)}

/-- What is read of a name and its string. -/
def joinedMember (m : Codes × Codes) : Codes × Codes := (joined m.1, joined m.2)

theorem gap_nil : Gap [] := by simp [Gap]

theorem gap_space : Gap [' '] := by simp [Gap, isGap]

theorem writes_member {m : Codes × Codes} (hname : IsString m.1) (hvalue : IsString m.2) :
    WritesMember digits depth (jsonString m.1 ++ ": ".toList ++ jsonString m.2) (joined m.1, .str (joined m.2)) := by
  have hstring : Writes digits depth (jsonString m.2) (.str (joined m.2)) := .str (quoted_jsonString hvalue)
  simpa using WritesMember.mk (quoted_jsonString hname) gap_nil gap_space hstring

theorem writes_members (hne : ms ≠ []) (h : ∀ m ∈ ms, IsString m.1 ∧ IsString m.2) :
    WritesMembers digits depth (jsonMembers (strings ms) ++ ['\x7d']) (strings (ms.map joinedMember)) := by
  induction ms with
  | nil => exact absurd rfl hne
  | cons m ms ih =>
    obtain ⟨⟨hname, hvalue⟩, hrest⟩ := List.forall_mem_cons.1 h
    have hmember : WritesMember digits depth _ _ := writes_member hname hvalue
    cases ms with
    | nil => exact .last hmember gap_nil
    | cons m' ms =>
      have hmore := WritesMembers.more hmember gap_nil gap_space (ih (List.cons_ne_nil _ _) hrest)
      rw [jsonMembers_cons]
      simpa [strings, joinedMember] using hmore

/-- An object of strings is read as it has been written, but for the halves of pairs in it,
    wherever one object can be read. -/
theorem read_ofStrings (hne : ms ≠ []) (h : ∀ m ∈ ms, IsString m.1 ∧ IsString m.2) {bounds : Bounds}
    (hdepth : 0 < bounds.depth) :
    read bounds (ofStrings ms).json = .ok (.object (Entries.ofPairs (strings (ms.map joinedMember)))) := by
  obtain ⟨depth, hdepth⟩ := Nat.exists_eq_add_of_lt hdepth
  have hobject : Writes IntText.maxDigits (depth + 1) ('\x7b' :: ([] ++ (jsonMembers (strings ms) ++ ['\x7d'])))
      (.object (Entries.ofPairs (strings (ms.map joinedMember)))) := .members gap_nil (writes_members hne h)
  have hjson := Json.mk gap_nil hobject gap_nil
  rw [List.nil_append, List.append_nil] at hjson
  rw [Nat.zero_add] at hdepth
  rw [read_eq_ok, hdepth]
  exact hjson

end Members

end Value

end Accessors
