/-
  Accessors.Server.Session — a command for a client.

  The client is asked for its settings, is sent the insertion as an edit, and is asked to
  show the line that the cursor goes to. A request that fails is no more than that: for
  settings there are defaults, an edit that comes to nothing is reported to the user, and
  a line that is not shown is passed over. What is sent is made of the types of the
  protocol, which are given (`Protocol`): a command stops at what they do not take.
-/
import Accessors.Editor.SourceFile
import Accessors.Server.Arguments

namespace Accessors.Server

/-- What a client is asked and told. -/
inductive Event where
  | notice (notice : Log.Notice)
  | configuration (address : Codes) (sectionName : Text)
  | edit (label : Text) (address : Codes) (insertion : Insertion)
  | error (message : Text)
  | info (message : Text)
  | showLine (address : Codes) (line : Int)
  deriving DecidableEq, Repr

/-- Whether an edit was applied, or why not. -/
structure EditAnswer where
  applied : Bool
  reason : Option Text
  deriving DecidableEq, Repr

/-- How a client answers; a request that fails does so with a text. -/
structure Client where
  configuration : Except Text (List Value)
  applyEdit : Except Text EditAnswer
  showFailure : Option Text

/-- The types of the protocol, as far as a command makes values of them. What they do not
    take they refuse with a text. -/
structure Protocol where
  /-- A position on a line. -/
  position : Int → Except Text Unit
  /-- The address that settings are asked for. -/
  scope : Value → Except Text Codes

abbrev Step := Traced Event Fault

def note (level : Int) (message : Codes) : Step Unit :=
  Traced.emit (.notice ⟨level, Log.logger "lsp_server", message⟩)

def tell (t : Text) : Step Unit := Traced.emit (.error (Message.error t))

def editLabel : Text := "Insert accessors".toList

/-- An event of the command as a client sees it. -/
def Event.ofCommand (address : Codes) : Accessors.Event → Event
  | .notice n => .notice n
  | .error t => .error t
  | .info t => .info t
  | .insert i => .edit editLabel address i
  | .goTo line => .showLine address line

/-! ## Documents -/

/-- The language that a client names, or that the address shows. -/
def languageOf (named : Option Text) (address : Codes) : Text :=
  match named.filter fun t => !t.isEmpty with
  | some t => t
  | none =>
    -- A code point that is no character has no letter case, nor does what stands for it here.
    if Text.endsWith ".php".toList (Text.lower (Text.ofCodes address)) then Command.languageId else []

/-- An open document by its text. -/
structure OpenDocument where
  text : Text
  languageId : Option Text
  deriving DecidableEq, Repr

def OpenDocument.document (d : OpenDocument) (address : Codes) (selections : List Int) : Document where
  lines := (Text.linesKept d.text).map Text.dropBreak
  languageId := languageOf d.languageId address
  selections := selections
  uri := some address

/-- The document once an insertion is in it. -/
def OpenDocument.insert (d : OpenDocument) (i : Insertion) : OpenDocument :=
  let parts := SourceFile.cut (Text.linesKept d.text) i.line
  { d with text := parts.1 ++ i.text ++ parts.2 }

/-! ## Requests -/

/-- The settings in an answer: the first of its values, if that is an object. -/
def settingsOfAnswer : List Value → Settings
  | .object members :: _ => Settings.ofEntries members
  | _ => Settings.defaults

def fetchSettings (client : Client) (address : Codes) : Step Settings := do
  Traced.emit (.configuration address (Text.ofCodes Settings.sectionName))
  match client.configuration with
  | .ok answer => pure (settingsOfAnswer answer)
  | .error t => do
    note Log.Level.warning (Text.codes ("Configuration request failed, using defaults: ".toList ++ t))
    pure Settings.defaults

section Requests

variable (protocol : Protocol) (client : Client) (address : Codes)

/-- A line as the client is told it. -/
def toldLine (line : Int) : Step Unit :=
  match protocol.position line with
  | .ok () => pure ()
  | .error t => Traced.stop (.lineRefused t)

/-- Whether the edit was applied; if not, the user has been told. -/
def requestEdit (i : Insertion) : Step Bool := do
  toldLine protocol i.line
  Traced.emit (.edit editLabel address i)
  match client.applyEdit with
  | .error t => do
    tell (Command.generationError t)
    pure false
  | .ok answer =>
    if answer.applied then pure true
    else do
      let reason := (answer.reason.filter fun t => !t.isEmpty).getD Command.rejected
      note Log.Level.warning (Text.codes "Edit rejected for ".toList ++ address ++ Text.codes (": ".toList ++ reason))
      tell (Command.generationError reason)
      pure false

def requestLine (line : Int) : Step Unit := do
  toldLine protocol line
  Traced.emit (.showLine address line)
  match client.showFailure with
  | some t => note Log.Level.debug (Text.codes ("Cursor redirect failed: ".toList ++ t))
  | none => pure ()

end Requests

/-! ## Commands -/

def commands : List (Text × AccessorKind) := [
  ("phpGettersSetters.insertGetter".toList, .getter), ("phpGettersSetters.insertSetter".toList, .setter),
  ("phpGettersSetters.insertGetterAndSetter".toList, .both)]

def toAddress (protocol : Protocol) (v : Value) : Step Codes :=
  match protocol.scope v with
  | .ok address => pure address
  | .error t => Traced.stop (.addressRefused t)

/-- A fault of the arguments that is not foreseen stops the command. -/
def unforeseen? : ArgumentFault → Option Fault
  | .infiniteNumber => some .infiniteNumber
  | .noMembers => some .noMembers
  | _ => none

def executeIn (protocol : Protocol) (client : Client) (s : Settings) (d : Document) (address : Codes)
    (kind : AccessorKind) : Step Bool := do
  match ← (Command.prepare s d kind).mapTrace (Event.ofCommand address) with
  | none => pure false
  | some i => do
    if ← requestEdit protocol client address i then
      if (← s.redirect.mapTrace .notice).isTrue then requestLine protocol client address i.redirectLine
      pure true
    else pure false

/-- A command with its arguments. Answers whether the document was changed. -/
def execute (protocol : Protocol) (client : Client) (d : OpenDocument) (kind : AccessorKind) (args : List Value) :
    Step Bool := do
  match Arguments.ofList args with
  | .error f =>
    match unforeseen? f with
    | some fault => Traced.stop fault
    | none => do
      tell ("Invalid command arguments: ".toList ++ f.message)
      pure false
  | .ok arguments => do
    let address ← toAddress protocol arguments.address
    let settings ← fetchSettings client address
    let document := d.document address arguments.lines
    if document.languageId = Command.languageId then executeIn protocol client settings document address kind
    else do
      tell Command.notApplicable
      pure false

/-! ## One command after the other -/

/-- Whether the client puts into the document what it is sent. -/
def Client.applies (client : Client) : Bool :=
  match client.applyEdit with
  | .ok answer => answer.applied
  | .error _ => false

/-- The document after what the client has seen. -/
def OpenDocument.after (d : OpenDocument) (client : Client) (events : List Event) : OpenDocument :=
  events.foldl (fun d e =>
    match e with
    | .edit _ _ i => if client.applies then d.insert i else d
    | _ => d) d

end Accessors.Server
