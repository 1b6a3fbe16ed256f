/-
  Accessors.Text.Quoted — the quoted form in which messages show a string.

  The string stands between single quotes, or between double quotes if it holds a
  single quote and no double one. Inside, the quote and the backslash are escaped, tab,
  line feed and carriage return have their letters, and whatever else is not printable
  is written with the fewest of two, four or eight hexadecimal digits that hold it. The
  same is done to a text that has to be ASCII.
-/
import Accessors.Text.Codes
import Accessors.Text.Printable

namespace Accessors.Text

def quoteFor (s : Codes) : Nat :=
  if s.contains singleQuote.toNat && !s.contains doubleQuote.toNat then doubleQuote.toNat else singleQuote.toNat

/-- A code point by its hexadecimal digits. -/
def hexEscape (code : Nat) : Text :=
  if code < 0x100 then backslash :: 'x' :: hex 2 code
  else if code < 0x10000 then backslash :: 'u' :: hex 4 code
  else backslash :: 'U' :: hex 8 code

def quotedCode (quote code : Nat) : Text :=
  if code = quote ∨ code = backslash.toNat then [backslash, charOfCode code]
  else if code = 9 then [backslash, 't']
  else if code = 10 then [backslash, 'n']
  else if code = 13 then [backslash, 'r']
  else if isPrintable code then [charOfCode code]
  else hexEscape code

def quotedCodes (s : Codes) : Text :=
  let quote := quoteFor s
  charOfCode quote :: s.flatMap (quotedCode quote) ++ [charOfCode quote]

def quoted (t : Text) : Text := quotedCodes t.codes

/-- The text with each character outside of ASCII escaped. -/
def ascii (t : Text) : Text := t.flatMap fun c => if c.toNat < 0x80 then [c] else hexEscape c.toNat

example : quoted "it's".toList = "\"it's\"".toList := by decide
example : quoted "\t\x00".toList = "'\\t\\x00'".toList := by decide

end Accessors.Text
