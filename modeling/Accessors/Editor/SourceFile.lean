/-
  Accessors.Editor.SourceFile — a file as the document, and as its editor.

  The file is read anew for every insertion, so that the lines counted are those that
  are there now. Text goes in before a line with the breaks of the file: if it has a line
  feed behind a carriage return anywhere, the text gets one behind each of its own. In a
  dry run the text is shown and the file left alone.
-/
import Accessors.Disk.Fault
import Accessors.Disk.Path
import Accessors.Editor.Command

namespace Accessors

structure SourceFile where
  path : Path
  dryRun : Bool
  deriving DecidableEq, Repr

namespace SourceFile

def ofPath (path : Text) (dryRun : Bool) : SourceFile := ⟨Path.ofText path, dryRun⟩

def suffixes : List Text := [".php".toList, ".phtml".toList, ".inc".toList]

def languageId (f : SourceFile) : Text :=
  let suffix := Text.lower f.path.suffix
  if suffixes.contains suffix then Command.languageId else suffix.dropWhile (· = '.')

/-- The text of the file, or why it cannot be read. -/
def text (f : SourceFile) (opening : Opening) : Except Fault (Except Text Text) :=
  if Text.contains ['\x00'] f.path.text then .error .nullInPath
  else match opening f.path.text with
    | .error e => .ok (.error ("Could not read ".toList ++ f.path.text ++ ": ".toList ++ e.message f.path.text))
    | .ok bytes =>
      match Utf8.decode bytes with
      | .error e => .error (.undecodable e)
      | .ok t => .ok (.ok t)

/-- The document in the file, with cursors on the given lines; `folder` is the address of
    the current folder. -/
def document (f : SourceFile) (opening : Opening) (folder : Text) (selections : List Int) :
    Except Fault (Except Text Document) :=
  (f.text opening).map fun r => r.map fun t => Document.ofText t selections f.languageId (some (f.path.uri folder).codes)

/-! ## Insertions -/

/-- The text before and from a line on; a negative line counts from the end. -/
def cut (lines : List Text) (line : Int) : Text × Text :=
  let index := if line < 0 then (lines.length + line).toNat else line.toNat
  ((lines.take index).flatten, (lines.drop index).flatten)

/-- The text with the breaks of the file's text. -/
def adapted (content text : Text) : Text :=
  if Text.contains ['\r', '\n'] content then Text.replaceAll ['\n'] ['\r', '\n'] text else text

/-- What an insertion makes of a file: the text as it goes in, between what was there. -/
structure Edited where
  before : Text
  inserted : Text
  behind : Text
  deriving DecidableEq, Repr

def Edited.content (e : Edited) : Text := e.before ++ e.inserted ++ e.behind

/-- The complaint about a line past the end of the file. -/
def pastEnd (f : SourceFile) (line : Int) : Except Fault Text :=
  match IntText.write line with
  | .ok number => .ok ("Line ".toList ++ number ++ " is past the end of ".toList ++ f.path.text)
  | .error fault => .error (.wholeNumber fault)

/-- The file with the insertion, or why it is refused. -/
def edited (f : SourceFile) (opening : Opening) (i : Insertion) : Except Fault (Except Text Edited) := do
  match ← f.text opening with
  | .error reason => pure (.error reason)
  | .ok t =>
    let lines := Text.linesKept t
    if (lines.length : Int) < i.line then
      let reason ← f.pastEnd i.line
      pure (.error reason)
    else
      let parts := cut lines i.line
      pure (.ok ⟨parts.1, adapted t i.text, parts.2⟩)

/-- The file's reply to an insertion. -/
def reply (f : SourceFile) (opening : Opening) (i : Insertion) : Reply :=
  match f.edited opening i with
  | .error fault => .broken fault
  | .ok (.error reason) => .failed reason
  | .ok (.ok _) => .accepted

/-! ## What is seen of it -/

/-- What a command shows or changes outside. -/
inductive Output where
  | out (text : Text)
  | err (text : Text)
  | notice (notice : Log.Notice)
  | write (path : Text) (bytes : Bytes)
  deriving DecidableEq, Repr

def line (t : Text) : Text := t ++ ['\n']

def cursorMoved (line : Int) : Log.Notice :=
  .ofText Log.Level.info (Log.logger "file_writer") ("Cursor moved to line ".toList ++ Text.ofInt (line + 1))

def editedOutputs (f : SourceFile) (e : Edited) : List Output :=
  if f.dryRun then [.out e.inserted]
  else [.write f.path.text (Utf8.encode e.content),
    .out (line ("Accessors generated and saved to ".toList ++ f.path.text))]

/-- What is seen of an event. -/
def outputs (f : SourceFile) (opening : Opening) : Event → List Output
  | .notice n => [.notice n]
  | .error t => [.err (line t)]
  | .info t => [.out (line t)]
  | .insert i =>
    match f.edited opening i with
    | .ok (.ok e) => editedOutputs f e
    | _ => []
  | .goTo l => [.notice (cursorMoved l)]

/-- The line on which the cursor was left, if it was moved. -/
def cursorAfter (events : List Event) : Option Int :=
  events.foldl (fun c e => match e with | .goTo l => some l | _ => c) none

/-- The errors that were shown. -/
def errorsOf (events : List Event) : List Text :=
  events.filterMap fun e => match e with | .error t => some t | _ => none

/-- The command on a document with this file as its editor. -/
def run (f : SourceFile) (opening : Opening) (s : Settings) (d : Document) (kind : AccessorKind) :
    Command.Step Bool :=
  Command.run s d kind (f.reply opening)

end SourceFile

end Accessors
