/-
  Accessors.Text.Case — upper and lower case of any text.

  The mappings are the full ones of the Unicode standard: a letter may become several
  (a sharp s becomes two), and a capital sigma that ends a word becomes the final form
  of the small one. An ASCII letter maps as usual, without a look into the tables.

  - `upperOf_ascii`, `lowerOf_ascii`: what the mappings do below 128.
-/
import Accessors.Text.CaseTable

namespace Accessors.Text

def CaseRow.covers (row : CaseRow) (code : Nat) : Bool :=
  decide (row.first ≤ code) && decide (code ≤ row.last) && (code - row.first) % row.step == 0

def mapByRows (rows : List CaseRow) (code : Nat) : Nat :=
  match rows.find? (·.covers code) with
  | some row => (code + row.shift).toNat
  | none => code

def inRanges (ranges : List (Nat × Nat)) (c : Char) : Bool :=
  ranges.any (fun r => decide (r.1 ≤ c.toNat) && decide (c.toNat ≤ r.2))

/-- The upper case of one character. -/
def upperOf (c : Char) : Text :=
  if c.toNat < 128 then [c.toUpper]
  else match upperSequences.find? (·.1 == c.toNat) with
    | some row => row.2.map Char.ofNat
    | none => [Char.ofNat (mapByRows upperRows c.toNat)]

/-- The lower case of one character that is not a capital sigma at the end of a word. -/
def lowerOf (c : Char) : Text :=
  if c.toNat < 128 then [c.toLower]
  else if c.toNat = 0x130 then [Char.ofNat 0x69, Char.ofNat 0x307]
  else [Char.ofNat (mapByRows lowerRows c.toNat)]

def upper (t : Text) : Text := t.flatMap upperOf

/-- Whether the characters of `t`, those to be stepped over apart, start with a letter that has a case. -/
def startsCased (t : Text) : Bool :=
  match t.dropWhile (inRanges ignorableRanges) with
  | [] => false
  | c :: _ => inRanges casedRanges c

/-- `before` holds the characters already passed, the nearest first. -/
def lowerAfter (before : Text) : Text → Text
  | [] => []
  | c :: r =>
    (if c.toNat = 0x3a3 then
      [if startsCased before && !startsCased r then Char.ofNat 0x3c2 else Char.ofNat 0x3c3]
    else lowerOf c) ++ lowerAfter (c :: before) r

def lower (t : Text) : Text := lowerAfter [] t

theorem upperOf_ascii {c : Char} (h : c.toNat < 128) : upperOf c = [c.toUpper] := by simp [upperOf, h]

theorem lowerOf_ascii {c : Char} (h : c.toNat < 128) : lowerOf c = [c.toLower] := by simp [lowerOf, h]

theorem lowerAfter_ascii {t : Text} (h : ∀ c ∈ t, c.toNat < 128) (before : Text) :
    lowerAfter before t = t.map Char.toLower := by
  induction t generalizing before with
  | nil => rfl
  | cons c r ih =>
    have hc := h c (by simp)
    have hs : c.toNat ≠ 0x3a3 := by omega
    simp [lowerAfter, hs, lowerOf_ascii hc, ih (fun x hx => h x (by simp [hx]))]

/-- A text of ASCII characters is lowered letter by letter. -/
theorem lower_ascii {t : Text} (h : ∀ c ∈ t, c.toNat < 128) : lower t = t.map Char.toLower :=
  lowerAfter_ascii h []

end Accessors.Text
