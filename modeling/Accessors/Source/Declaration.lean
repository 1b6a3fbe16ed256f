/-
  Accessors.Source.Declaration — a line read as a declaration.

  A declaration is a run of modifiers, a type hint or none, a variable, and then the end
  of the statement, a comma, or an assignment of a default value. Modifiers and the hint
  each stand in a word of their own. A statement ends at the first semicolon or comment
  outside of a string; within a string a backslash takes the character behind it along.
-/
import Accessors.Source.Keyword
import Accessors.Text.Chunk

namespace Accessors

/-- A name, which has a first character at least. -/
structure Name where
  first : Char
  rest : Text
  deriving DecidableEq, Repr

def Name.text (n : Name) : Text := n.first :: n.rest

def Name.ofText? : Text → Option Name
  | c :: r => some ⟨c, r⟩
  | [] => none

/-! ## Identifiers and type hints -/

def isNameStart (c : Char) : Bool :=
  (decide ('A' ≤ c) && decide (c ≤ 'Z')) || (decide ('a' ≤ c) && decide (c ≤ 'z')) || c = '_'

def isNameChar (c : Char) : Bool := isNameStart c || (decide ('0' ≤ c) && decide (c ≤ '9'))

/-- The name that a text starts with, and what follows it. -/
def Name.take? : Text → Option (Name × Text)
  | c :: r => if isNameStart c then some (⟨c, r.takeWhile isNameChar⟩, r.dropWhile isNameChar) else none
  | [] => none

/-- The text without `c`, if it starts with that. -/
def dropOne (c : Char) : Text → Text
  | d :: r => if d = c then r else d :: r
  | [] => []

/-- A name that may be nullable and may be qualified by backslashes. -/
def isTypeName (t : Text) : Bool :=
  match dropOne '\x5c' (dropOne '?' t) with
  | c :: r => isNameStart c && r.all fun d => isNameChar d || d = '\x5c'
  | [] => false

/-- One type name, or several with bars between them. -/
def isTypeUnion (word : Text) : Bool := (Text.splitOn '|' word).all isTypeName

/-- A type hint without the marks before its first name. -/
def bareHint (hint : Text) : Text := hint.dropWhile fun c => c = '?' || c = '\x5c'

def isHint (word : Text) : Bool :=
  isTypeUnion word && !Keyword.isModifier (bareHint word) && !Keyword.isStatementWord (bareHint word)

/-! ## The end of a statement -/

inductive Quoting where
  | outside
  | inside (quote : Char)
  /-- Behind a backslash in a string. -/
  | escaped (quote : Char)
  deriving DecidableEq, Repr

def Quoting.next : Quoting → Char → Quoting
  | .outside, c => if c = '\x27' ∨ c = '\x22' then .inside c else .outside
  | .inside q, c => if c = '\x5c' then .escaped q else if c = q then .outside else .inside q
  | .escaped q, _ => .inside q

/-- Whether a statement ends where `t` starts. -/
def endsStatement (t : Text) : Bool :=
  match t with
  | c :: r => c = ';' || c = '#' || (c = '/' && (r.head? == some '/' || r.head? == some '*'))
  | [] => true

/-- What comes before the end of the statement under way. -/
def beforeEnd : Quoting → Text → Text
  | _, [] => []
  | q, c :: r => if q = .outside ∧ endsStatement (c :: r) then [] else c :: beforeEnd (q.next c) r

/-- The statement that a text starts with. -/
def statement (t : Text) : Text := Text.trimEnd (beforeEnd .outside t)

/-! ## Declarations -/

structure Declaration where
  name : Name
  hint : Option Text
  default : Option Text
  deriving DecidableEq, Repr

namespace Declaration

/-- What a statement says behind the variable: nothing more, or a default value; `none`
    if it is no declaration. -/
def default? : Text → Option (Option Text)
  | [] => some none
  | ',' :: _ => some none
  | '=' :: '=' :: _ => none
  | '=' :: r => some (some (Text.trim r))
  | _ => none

/-- The declaration that goes on with the variable at the start of `t`. -/
def ofVariable? (hint : Option Text) : Text → Option Declaration
  | '$' :: r =>
    match Name.take? r with
    | some (name, r) => (default? (statement (Text.trimStart r))).map fun d => ⟨name, hint, d⟩
    | none => none
  | _ => none

/-- The declaration in the words that are left behind the modifiers. -/
def ofChunks? (ks : List Text.Chunk) : Option Declaration :=
  if (ks.flatMap Text.Chunk.text).head? = some '$' then ofVariable? none (ks.flatMap Text.Chunk.text)
  else match ks with
    | k :: ks => if isHint k.word then ofVariable? (some k.word) (ks.flatMap Text.Chunk.text) else none
    | [] => none

/-- The declaration that a line without blanks around it holds. -/
def scan? (t : Text) : Option Declaration :=
  ofChunks? ((Text.chunks t).dropWhile fun k => Keyword.isModifier k.word)

end Declaration

end Accessors
