/-
  Accessors.Render.Template — the texts of the accessors, with marks to be filled in.

  A mark is a key between percent signs. Marks are filled one key after the other, so
  that a mark in a text that was filled in is filled by a later key.
-/
import Accessors.Text.Basic

namespace Accessors.Template

def getter : Text := "/**
 * %description%
 *
 * @return %type%
 */
public function %getter_name%()
\x7b
    return $this->%name%;
\x7d

".toList

def setter : Text := "/**
 * %description%
 *
 * @param type $%name%
 *
 * @return self
 */
public function %setter_name%(%type_hint%$%name%)
\x7b
    $this->%name% = $%name%;

    return $this;
\x7d

".toList

def mark (key : Text) : Text := '%' :: key ++ ['%']

def fill (template : Text) (texts : List (Text × Text)) : Text :=
  texts.foldl (fun t e => Text.replaceAll (mark e.1) e.2 t) template

def indentLine (indentation line : Text) : Text := if line.isEmpty then [] else indentation ++ line

/-- Every line that is not empty behind an indentation. -/
def indent (indentation t : Text) : Text :=
  Text.joinWith ['\n'] ((Text.splitOn '\n' t).map (indentLine indentation))

end Accessors.Template
