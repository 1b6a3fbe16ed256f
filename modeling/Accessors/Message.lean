/-
  Accessors.Message — what users are shown, under the name of the tool.

  The markup of an icon, `$(` and a name and `)` with two blanks behind it, means nothing
  to a user; the first of a message is left out.
-/
import Accessors.Text.Blank

namespace Accessors.Message

def toolName : Text := "phpGettersSetters".toList

def afterTwoBlanks? : Text → Option Text
  | a :: b :: r => if Text.isBlank a && Text.isBlank b then some r else none
  | _ => none

/-- What follows the markup whose name is under way; `fresh` says that the name has no
    character yet. -/
def afterName? (fresh : Bool) : Text → Option Text
  | [] => none
  | c :: r =>
    match if c = ')' ∧ fresh = false then afterTwoBlanks? r else none with
    | some r' => some r'
    | none => if c = '\n' then none else afterName? false r

/-- What follows the markup that a text starts with. -/
def afterMarkup? : Text → Option Text
  | '$' :: '(' :: r => afterName? true r
  | _ => none

/-- A message without its first markup. -/
def clean : Text → Text
  | [] => []
  | c :: r =>
    match afterMarkup? (c :: r) with
    | some r' => r'
    | none => c :: clean r

def error (t : Text) : Text := toolName ++ " error: ".toList ++ clean t

def info (t : Text) : Text := toolName ++ " info: ".toList ++ clean t

end Accessors.Message
