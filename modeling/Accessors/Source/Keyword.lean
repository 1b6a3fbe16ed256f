/-
  Accessors.Source.Keyword — the words that tell a declaration from a statement.

  Keywords are recognised in any letter case. A pseudo-type stands in comments only and
  is no hint that a parameter could carry, nullable or not.
-/
import Accessors.Text.Case

namespace Accessors.Keyword

def modifiers : List Text := [
  "public".toList, "private".toList, "protected".toList, "static".toList, "var".toList, "readonly".toList]

def pseudoTypes : List Text := [
  "mixed".toList, "number".toList, "callback".toList, "object".toList, "void".toList]

def statementWords : List Text := [
  "return".toList, "echo".toList, "print".toList, "global".toList, "unset".toList, "throw".toList,
  "yield".toList, "new".toList, "clone".toList, "include".toList, "include_once".toList,
  "require".toList, "require_once".toList, "case".toList, "else".toList, "elseif".toList,
  "const".toList, "function".toList, "fn".toList, "use".toList, "namespace".toList, "goto".toList,
  "abstract".toList, "final".toList, "class".toList, "interface".toList, "trait".toList, "enum".toList]

/-- Whether a word gives visibility or storage. -/
def isModifier (word : Text) : Bool := modifiers.contains (Text.lower word)

def isPseudoType (type : Text) : Bool := pseudoTypes.contains (Text.lower (type.dropWhile (· = '?')))

/-- Whether a word starts a statement and so no declaration. -/
def isStatementWord (word : Text) : Bool := statementWords.contains (Text.lower word)

end Accessors.Keyword
