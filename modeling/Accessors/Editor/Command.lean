/-
  Accessors.Editor.Command — inserting accessors into a document.

  For each cursor, from the top, the declaration at or above it is rendered; a cursor
  without one is reported and passed over. What was rendered goes in before the last line
  that starts with a closing brace, and the cursor follows it there if it should. What
  stands in the way is shown to the user, and the command then answers no.
-/
import Accessors.Editor.Document
import Accessors.Message
import Accessors.Render.Accessor

namespace Accessors

/-- What a command does for all to see. -/
inductive Event where
  | notice (notice : Log.Notice)
  | error (message : Text)
  | info (message : Text)
  | insert (insertion : Insertion)
  | goTo (line : Int)
  deriving DecidableEq, Repr

/-- Why a command does not come to an insertion. -/
inductive Obstacle where
  | nothingToInsert
  | noClosingBrace
  deriving DecidableEq, Repr

def Obstacle.message : Obstacle → Text
  | .nothingToInsert => "Missing template to render.".toList
  | .noClosingBrace => "Unable to detect insert line for template.".toList

namespace Command

abbrev Step := Traced Event Fault

def languageId : Text := "php".toList

def notApplicable : Text := "Not a PHP file.".toList

def noProperty : Text := "No property found. Please select a property to use this extension.".toList

/-- An error as the user is shown it. -/
def tell (t : Text) : Step Unit := Traced.emit (.error (Message.error t))

def note (level : Int) (part : String) (message : Text) : Step Unit :=
  Traced.emit (.notice (.ofText level (Log.logger part) message))

def quietly {α : Type} (x : Settings.Reading α) : Step α := x.mapTrace .notice

/-! ## Where -/

def closes (line : Text) : Bool := (Text.trimStart line).head? == some '\x7d'

/-- The last line that starts with a closing brace. -/
def closingLine? (lines : List Text) : Option Nat :=
  (lines.reverse.findIdx? closes).map fun i => lines.length - 1 - i

/-! ## What -/

/-- The accessors of the declaration at or above one cursor. -/
def renderAt (s : Settings) (kind : AccessorKind) (lines : List Text) (cursor : Int) : Step Text :=
  match Property.find? lines cursor with
  | some found => do
    note Log.Level.debug "property_parser"
      ("Found property $".toList ++ found.property.name.text ++ " on line ".toList ++ Text.ofNat found.line)
    quietly (Render.accessors s found.property kind)
  | none => do
    note Log.Level.warning "resolver"
      ("Skipping selection on line ".toList ++ Text.ofInt cursor ++ ": ".toList ++ noProperty)
    tell noProperty
    pure []

def renderAll (s : Settings) (kind : AccessorKind) (lines : List Text) : List Int → Step Text
  | [] => pure []
  | cursor :: more => do
    let t ← renderAt s kind lines cursor
    let ts ← renderAll s kind lines more
    pure (t ++ ts)

def collect (s : Settings) (d : Document) (kind : AccessorKind) : Step Text := renderAll s kind d.lines d.ordered

def build (s : Settings) (d : Document) (kind : AccessorKind) : Step (Except Obstacle Insertion) := do
  let text ← collect s d kind
  if text.isEmpty then pure (.error .nothingToInsert)
  else match closingLine? d.lines with
    | some line => pure (.ok ⟨line, text⟩)
    | none => pure (.error .noClosingBrace)

/-- The insertion, or nothing once the user is told why. -/
def prepare (s : Settings) (d : Document) (kind : AccessorKind) : Step (Option Insertion) := do
  match ← build s d kind with
  | .ok i => pure (some i)
  | .error o => do
    tell o.message
    pure none

/-! ## The command -/

def rejected : Text := "the edit was rejected".toList

def generationError (reason : Text) : Text := "Error generating functions: ".toList ++ reason

def reportFailure (reason : Text) : Step Bool := do
  note Log.Level.warning "resolver" ("Edit failed: ".toList ++ reason)
  tell (generationError reason)
  pure false

/-- Insert the accessors by way of an editor. Answers whether the document was changed. -/
def runIn (s : Settings) (d : Document) (kind : AccessorKind) (editor : Insertion → Reply) : Step Bool := do
  match ← prepare s d kind with
  | none => pure false
  | some i => do
    Traced.emit (.insert i)
    match editor i with
    | .broken fault => Traced.stop fault
    | .failed reason => reportFailure reason
    | .refused => reportFailure rejected
    | .accepted => do
      if (← quietly s.redirect).isTrue then Traced.emit (.goTo i.redirectLine)
      pure true

/-- The command on any document; in one of another language nothing is inserted. -/
def run (s : Settings) (d : Document) (kind : AccessorKind) (editor : Insertion → Reply) : Step Bool :=
  if d.languageId = languageId then runIn s d kind editor
  else do
    tell notApplicable
    pure false

end Command

end Accessors
