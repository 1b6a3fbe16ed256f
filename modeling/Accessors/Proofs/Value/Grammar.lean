/-
  Accessors.Proofs.Value.Grammar — which texts write which values.

  The grammar is that of JSON with three more names of numbers. It says nothing of how a
  text is gone through. A string is a row of characters and escapes, each of which stands
  for a code point; a high and a low surrogate that follow each other are one code point
  together (`joined`). Of members with one name the last has the value. Two numbers bound
  what a text may hold: how many digits a whole number has, and how deep lists and objects
  are nested in each other, where a number that is named takes a level of its own. A text
  is JSON within some bounds or it is not JSON at all.

  `InValue` tells where in a value another one is due: `c` starts where a value is due
  that may be nested `d` deep, and behind it one is that may be nested `e` deep.
-/
import Accessors.Value.Reader

namespace Accessors.Value

def Gap (g : Text) : Prop := ∀ c ∈ g, isGap c = true

/-! ## Strings -/

/-- The digit, in either case, of a number below sixteen. -/
def HexDigit (c : Char) (n : Nat) : Prop := n < 16 ∧ (c = Nat.digitChar n ∨ c = (Nat.digitChar n).toUpper)

/-- The letters of the short escapes and what they stand for. -/
def letterEscapes : List (Char × Nat) :=
  [('\x22', 34), ('\x5c', 92), ('/', 47), ('b', 8), ('f', 12), ('n', 10), ('r', 13), ('t', 9)]

/-- What stands for one code point, or for half of one. -/
inductive Piece : Text → Nat → Prop
  | plain {c : Char} : 0x20 ≤ c.toNat → c ≠ '\x22' → c ≠ '\x5c' → Piece [c] c.toNat
  | letter {c : Char} {n : Nat} : (c, n) ∈ letterEscapes → Piece ['\x5c', c] n
  | digits {a b c d : Char} {i j k l : Nat} : HexDigit a i → HexDigit b j → HexDigit c k → HexDigit d l →
      Piece ['\x5c', 'u', a, b, c, d] (((i * 16 + j) * 16 + k) * 16 + l)

inductive Pieces : Text → Codes → Prop
  | nil : Pieces [] []
  | cons {p t : Text} {n : Nat} {ns : Codes} : Piece p n → Pieces t ns → Pieces (p ++ t) (n :: ns)

/-- Each high surrogate joined to a low one that follows it. -/
def joined : Codes → Codes
  | high :: low :: s =>
    if Codes.isHighSurrogate high && Codes.isLowSurrogate low then Codes.joinSurrogates high low :: joined s
    else high :: joined (low :: s)
  | s => s

inductive Quoted : Text → Codes → Prop
  | mk {t : Text} {ns : Codes} : Pieces t ns → Quoted ('\x22' :: (t ++ ['\x22'])) (joined ns)

/-! ## Numbers -/

def Digits (t : Text) : Prop := t ≠ [] ∧ ∀ c ∈ t, isAsciiDigit c = true

/-- A zero alone, or digits of which the first is no zero. -/
inductive Whole : Text → Prop
  | zero : Whole ['0']
  | other {c : Char} {t : Text} : c ≠ '0' → Digits (c :: t) → Whole (c :: t)

inductive Fraction : Text → Text → Prop
  | none : Fraction [] []
  | some {ds : Text} : Digits ds → Fraction ('.' :: ds) ds

/-- The signs of an exponent, and which of them is that of one below zero. -/
def exponentSigns : List (Text × Bool) := [([], false), (['+'], false), (['-'], true)]

inductive Exponent : Text → Int → Prop
  | none : Exponent [] 0
  | some {c : Char} {sign ds : Text} {negative : Bool} : c = 'e' ∨ c = 'E' → (sign, negative) ∈ exponentSigns →
      Digits ds → Exponent (c :: (sign ++ ds)) (if negative then -asciiValue ds else asciiValue ds)

def signText (negative : Bool) : Text := if negative then ['-'] else []

/-- A number of which the whole ones have so many digits at most. -/
inductive Number (digits : Nat) : Text → Value → Prop
  | int {w : Text} (negative : Bool) : Whole w → w.length ≤ digits →
      Number digits (signText negative ++ w) (.int (if negative then -asciiValue w else asciiValue w))
  | float {w f ds e : Text} {n : Int} (negative : Bool) : Whole w → Fraction f ds → Exponent e n → f ++ e ≠ [] →
      Number digits (signText negative ++ (w ++ (f ++ e)))
        (.float (Binary64.ofDecimal negative (asciiValue (w ++ ds)) (n - ds.length)))

/-- No number goes on in the text: it starts with no digit, no fraction and no exponent. -/
structure Ends (r : Text) : Prop where
  digit : ∀ c ∈ r.head?, isAsciiDigit c = false
  fraction : ∀ f ds, Fraction f ds → f ≠ [] → ¬f <+: r
  exponent : ∀ e n, Exponent e n → e ≠ [] → ¬e <+: r

/-- A whole number of `n` digits, more than so many, before a text in which it does not go on. -/
inductive Overlong (digits : Nat) : Text → Text → Nat → Prop
  | mk {w r : Text} (negative : Bool) : Whole w → digits < w.length → Ends r →
      Overlong digits (signText negative ++ w) r w.length

/-! ## Values -/

mutual

/-- The text is that of a value, with lists and objects nested `depth` deep at most. -/
inductive Writes (digits : Nat) : (depth : Nat) → Text → Value → Prop
  | named {d : Nat} {t : Text} {v : Value} : (t, v) ∈ named → (isFloat v = true → d ≠ 0) → Writes digits d t v
  | number {d : Nat} {t : Text} {v : Value} : Number digits t v → Writes digits d t v
  | str {d : Nat} {t : Text} {s : Codes} : Quoted t s → Writes digits d t (.str s)
  | noItems {d : Nat} {g : Text} : Gap g → Writes digits (d + 1) ('[' :: (g ++ [']'])) (.list [])
  | items {d : Nat} {g t : Text} {vs : List Value} : Gap g → WritesItems digits d t vs →
      Writes digits (d + 1) ('[' :: (g ++ t)) (.list vs)
  | noMembers {d : Nat} {g : Text} : Gap g → Writes digits (d + 1) ('\x7b' :: (g ++ ['\x7d'])) (.object [])
  | members {d : Nat} {g t : Text} {ms : List (Codes × Value)} : Gap g → WritesMembers digits d t ms →
      Writes digits (d + 1) ('\x7b' :: (g ++ t)) (.object (Entries.ofPairs ms))

/-- The text is that of items, from the first one to the closing bracket. -/
inductive WritesItems (digits : Nat) : (depth : Nat) → Text → List Value → Prop
  | last {d : Nat} {p g : Text} {v : Value} : Writes digits d p v → Gap g → WritesItems digits d (p ++ (g ++ [']'])) [v]
  | more {d : Nat} {p g g' t : Text} {v : Value} {vs : List Value} : Writes digits d p v → Gap g → Gap g' →
      WritesItems digits d t vs → WritesItems digits d (p ++ (g ++ ',' :: (g' ++ t))) (v :: vs)

/-- A name, a colon and a value. -/
inductive WritesMember (digits : Nat) : (depth : Nat) → Text → Codes × Value → Prop
  | mk {d : Nat} {q g g' p : Text} {name : Codes} {v : Value} : Quoted q name → Gap g → Gap g' → Writes digits d p v →
      WritesMember digits d (q ++ (g ++ ':' :: (g' ++ p))) (name, v)

/-- The text is that of members, from the first one to the closing brace. -/
inductive WritesMembers (digits : Nat) : (depth : Nat) → Text → List (Codes × Value) → Prop
  | last {d : Nat} {p g : Text} {m : Codes × Value} : WritesMember digits d p m → Gap g →
      WritesMembers digits d (p ++ (g ++ ['\x7d'])) [m]
  | more {d : Nat} {p g g' t : Text} {m : Codes × Value} {ms : List (Codes × Value)} : WritesMember digits d p m →
      Gap g → Gap g' → WritesMembers digits d t ms → WritesMembers digits d (p ++ (g ++ ',' :: (g' ++ t))) (m :: ms)

end

/-- A value with nothing but blanks around it. -/
inductive Json (digits depth : Nat) : Text → Value → Prop
  | mk {g p g' : Text} {v : Value} : Gap g → Writes digits depth p v → Gap g' → Json digits depth (g ++ (p ++ g')) v

/-! ## Where a value is due -/

mutual

inductive InValue (digits : Nat) : (d e : Nat) → Text → Prop
  | here {d : Nat} : InValue digits d d []
  | items {d e : Nat} {g c : Text} : Gap g → InItems digits d e c → InValue digits (d + 1) e ('[' :: (g ++ c))
  | members {d e : Nat} {g c : Text} : Gap g → InMembers digits d e c → InValue digits (d + 1) e ('\x7b' :: (g ++ c))

inductive InItems (digits : Nat) : (d e : Nat) → Text → Prop
  | here {d e : Nat} {c : Text} : InValue digits d e c → InItems digits d e c
  | more {d e : Nat} {p g g' c : Text} {v : Value} : Writes digits d p v → Gap g → Gap g' → InItems digits d e c →
      InItems digits d e (p ++ (g ++ ',' :: (g' ++ c)))

inductive InMembers (digits : Nat) : (d e : Nat) → Text → Prop
  | here {d e : Nat} {q g g' c : Text} {name : Codes} : Quoted q name → Gap g → Gap g' → InValue digits d e c →
      InMembers digits d e (q ++ (g ++ ':' :: (g' ++ c)))
  | more {d e : Nat} {p g g' c : Text} {m : Codes × Value} : WritesMember digits d p m → Gap g → Gap g' →
      InMembers digits d e c → InMembers digits d e (p ++ (g ++ ',' :: (g' ++ c)))

end

/-- Before the rest of a text, a value is due that may be nested `e` deep. -/
inductive Due (digits depth : Nat) : (e : Nat) → (t rest : Text) → Prop
  | mk {e : Nat} {g c r : Text} : Gap g → InValue digits depth e c → Due digits depth e (g ++ (c ++ r)) r

end Accessors.Value
