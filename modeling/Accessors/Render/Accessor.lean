/-
  Accessors.Render.Accessor — a property's getter and setter.

  What the property does not say is made up from its name. The spacing behind the tags
  of the comment follows the settings: it is put in after the first tag of each kind, once
  the marks are filled.
-/
import Accessors.Render.Template
import Accessors.Settings
import Accessors.Source.Property

namespace Accessors

/-- Which accessors a command generates. -/
inductive AccessorKind where
  | getter
  | setter
  | both
  deriving DecidableEq, Repr

/-- The name of an accessor: the property's with a capital, behind `head`. -/
def Name.method (head : Text) (n : Name) : Text := head ++ Text.upperOf n.first ++ n.rest

namespace Render

abbrev Rendering := Settings.Reading

def given (t : Option Text) (otherwise : Text) : Text := (t.filter fun t => !t.isEmpty).getD otherwise

def defaultType : Text := "mixed".toList

def typeText (p : Property) : Text := given p.type defaultType

/-- The hint of a parameter, with a space behind it if there is one. -/
def hintText (p : Property) : Text :=
  match p.hint.filter fun t => !t.isEmpty with
  | some h => h ++ [' ']
  | none => []

def paramTag : Text := "@param ".toList

def returnTag : Text := "@return ".toList

/-- The tag of the template in which the type is still to be put. -/
def typedParamTag : Text := "@param type ".toList

/-- A tag with the given blanks behind it instead of one space. -/
def spacedTag (tag blanks : Text) : Text := tag.dropLast ++ blanks

def rendered (what : String) (method : Text) : Log.Notice :=
  .ofText Log.Level.debug (Log.logger "template_renderer") ("Rendered ".toList ++ what.toList ++ ' ' :: method)

def getterTexts (p : Property) : List (Text × Text) := [
  ("description".toList, given p.description ("Get the value of ".toList ++ p.name.text)),
  ("type".toList, typeText p),
  ("getter_name".toList, p.name.method "get".toList),
  ("name".toList, p.name.text)]

def setterTexts (p : Property) : List (Text × Text) := [
  ("description".toList, given p.description ("Set the value of ".toList ++ p.name.text)),
  ("setter_name".toList, p.name.method "set".toList),
  ("type_hint".toList, hintText p),
  ("name".toList, p.name.text)]

/-- The getter with `afterReturn` behind its tag. -/
def getterText (p : Property) (afterReturn : Text) : Text :=
  Template.indent p.indentation
    (Text.replaceFirst returnTag (spacedTag returnTag afterReturn) (Template.fill Template.getter (getterTexts p)))

/-- The setter with its three blanks behind the tags and the type. -/
def setterText (p : Property) (afterParam afterVar afterReturn : Text) : Text :=
  let filled := Template.fill Template.setter (setterTexts p)
  let typed := Text.replaceFirst typedParamTag (paramTag ++ typeText p ++ afterVar) filled
  let spaced := Text.replaceFirst paramTag (spacedTag paramTag afterParam) typed
  Template.indent p.indentation (Text.replaceFirst returnTag (spacedTag returnTag afterReturn) spaced)

def getter (s : Settings) (p : Property) : Rendering Text := do
  let afterReturn ← s.spaces Settings.spacesAfterReturn
  Traced.emit (rendered "getter" (p.name.method "get".toList))
  pure (getterText p afterReturn)

def setter (s : Settings) (p : Property) : Rendering Text := do
  let afterParam ← s.spaces Settings.spacesAfterParam
  let afterVar ← s.spaces Settings.spacesAfterParamVar
  let afterReturn ← s.spaces Settings.spacesAfterReturn
  Traced.emit (rendered "setter" (p.name.method "set".toList))
  pure (setterText p afterParam afterVar afterReturn)

def accessors (s : Settings) (p : Property) : AccessorKind → Rendering Text
  | .getter => getter s p
  | .setter => setter s p
  | .both => do
    let g ← getter s p
    let t ← setter s p
    pure (g ++ t)

end Render

end Accessors
