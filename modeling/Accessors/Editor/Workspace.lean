/-
  Accessors.Editor.Workspace — work on the files of a folder, step by step.

  One file at a time is open; what is done through it, from its opening on, gives where
  its cursor is and which errors it has shown. A document is read from the file at one
  time and used at later times, when the file may hold something else. Every step sees the
  folder as it then is, and what it writes is there for the next.

  - `folderAfter_append`: outputs write one after the other.
-/
import Accessors.Disk.Folder
import Accessors.Editor.SourceFile

namespace Accessors

structure Workspace where
  folder : Folder
  file : Option SourceFile
  document : Option Document
  /-- What was done through the open file. -/
  events : List Event

namespace Workspace

open SourceFile (Output)

def ofFolder (d : Folder) : Workspace := ⟨d, none, none, []⟩

/-- Where the cursor was left, if it was moved. -/
def cursor (w : Workspace) : Option Int := SourceFile.cursorAfter w.events

def errors (w : Workspace) : List Text := SourceFile.errorsOf w.events

inductive Action where
  | put (names : List Text) (item : Item)
  | remove (names : List Text)
  | openFile (path : Text) (dryRun : Bool)
  /-- Make a document of the open file, with cursors on some lines. -/
  | read (selections : List Int)
  | insert (insertion : Insertion)
  | goTo (line : Int)
  | info (text : Text)
  | error (text : Text)
  /-- The command on the document last read. -/
  | run (settings : Settings) (kind : AccessorKind)

inductive Answer where
  | done
  | language (id : Text)
  | document (document : Document)
  | changed (yes : Bool)
  | refused (reason : Text)
  | stopped (fault : Fault)
  /-- There is no open file, or no document. -/
  | nothingOpen
  deriving DecidableEq, Repr

structure Done where
  after : Workspace
  outputs : List Output
  answer : Answer

/-! ## What outputs write -/

def written (d : Folder) : Output → Folder
  | .write path bytes => d.write path bytes
  | _ => d

def folderAfter (d : Folder) (outputs : List Output) : Folder := outputs.foldl written d

theorem folderAfter_append (d : Folder) (a b : List Output) :
    folderAfter d (a ++ b) = folderAfter (folderAfter d a) b := List.foldl_append

/-! ## Steps -/

/-- A step that shows nothing. -/
def quiet (w : Workspace) (answer : Answer) : Done := ⟨w, [], answer⟩

/-- What events of the open file come to. -/
def through (w : Workspace) (f : SourceFile) (events : List Event) (answer : Answer) : Done :=
  let outputs := events.flatMap (f.outputs w.folder.read)
  ⟨{ w with folder := folderAfter w.folder outputs, events := w.events ++ events }, outputs, answer⟩

def ofReply : Reply → Answer
  | .accepted => .changed true
  | .refused => .changed false
  | .failed reason => .refused reason
  | .broken fault => .stopped fault

def ofOutcome : Except Fault Bool → Answer
  | .ok yes => .changed yes
  | .error fault => .stopped fault

def readDocument (w : Workspace) (address : Text) (f : SourceFile) (selections : List Int) : Done :=
  match f.document w.folder.read address selections with
  | .ok (.ok d) => ⟨{ w with document := some d }, [], .document d⟩
  | .ok (.error reason) => w.quiet (.refused reason)
  | .error fault => w.quiet (.stopped fault)

def runCommand (w : Workspace) (f : SourceFile) (s : Settings) (kind : AccessorKind) : Done :=
  match w.document with
  | some d =>
    let step := f.run w.folder.read s d kind
    w.through f step.trace (ofOutcome step.outcome)
  | none => w.quiet .nothingOpen

/-- A step through the open file. -/
def performIn (w : Workspace) (address : Text) (f : SourceFile) : Action → Done
  | .read selections => w.readDocument address f selections
  | .insert i => w.through f [.insert i] (ofReply (f.reply w.folder.read i))
  | .goTo line => w.through f [.goTo line] .done
  | .info t => w.through f [.info (Message.info t)] .done
  | .error t => w.through f [.error (Message.error t)] .done
  | .run s kind => w.runCommand f s kind
  | _ => w.quiet .nothingOpen

/-- One step, where `address` is that of the folder. -/
def perform (w : Workspace) (address : Text) (action : Action) : Done :=
  match action, w.file with
  | .put names item, _ => ({ w with folder := w.folder.put names item } : Workspace).quiet .done
  | .remove names, _ => ({ w with folder := w.folder.remove names } : Workspace).quiet .done
  | .openFile path dryRun, _ =>
    let f := SourceFile.ofPath path dryRun
    ({ w with file := some f, events := [] } : Workspace).quiet (.language f.languageId)
  | action, some f => w.performIn address f action
  | _, none => w.quiet .nothingOpen

end Workspace

end Accessors
