/-
  Accessors.Text.Codes — strings of code points.

  A JSON string can hold one half of a surrogate pair, which is no character, so what
  comes out of one is a list of code points and not a `Text`.

  - `ofCodes_codes`: a text survives as code points.
-/
import Accessors.Text.Basic

namespace Accessors

abbrev Codes := List Nat

namespace Text

def codes (t : Text) : Codes := t.map Char.toNat

/-- A code point that is no character becomes the replacement character. -/
def charOfCode (code : Nat) : Char := if code.isValidChar then Char.ofNat code else '\ufffd'

def ofCodes (s : Codes) : Text := s.map charOfCode

/-- The character of a code point; there is none of other numbers. -/
theorem toNat_ofNat (n : Nat) : (Char.ofNat n).toNat = if n.isValidChar then n else 0 := by
  by_cases h : n.isValidChar
  · rw [if_pos h]
    exact congrArg Char.toNat (dif_pos h)
  · rw [if_neg h]
    exact congrArg Char.toNat (dif_neg h)

@[simp] theorem charOfCode_toNat (c : Char) : charOfCode c.toNat = c := by
  simp [charOfCode, show c.toNat.isValidChar from c.valid]

@[simp] theorem ofCodes_codes (t : Text) : ofCodes t.codes = t := by
  simp only [ofCodes, codes, List.map_map]
  exact (List.map_congr_left fun c _ => charOfCode_toNat c).trans (List.map_id t)

end Text

/-! ## Surrogates -/

namespace Codes

def isHighSurrogate (code : Nat) : Bool := decide (0xd800 ≤ code) && decide (code < 0xdc00)

def isLowSurrogate (code : Nat) : Bool := decide (0xdc00 ≤ code) && decide (code < 0xe000)

/-- The code point that a high and a low surrogate stand for. -/
def joinSurrogates (high low : Nat) : Nat := 0x10000 + (high - 0xd800) * 0x400 + (low - 0xdc00)

/-- The code units of sixteen bits of a code point. -/
def units (code : Nat) : List Nat :=
  if code < 0x10000 then [code] else [0xd800 + (code - 0x10000) / 0x400, 0xdc00 + (code - 0x10000) % 0x400]

end Codes

end Accessors
