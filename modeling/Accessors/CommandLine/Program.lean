/-
  Accessors.CommandLine.Program — the program from its arguments to its exit code.

  What a run shows comes out in order: generated code and confirmations on one stream,
  errors and the log on the other. A run that generates ends with zero if the accessors
  went in and no error was shown, and with one otherwise; one that serves ends by starting
  the server. Settings are read within bounds that are given.
-/
import Accessors.CommandLine.Options
import Accessors.Editor.SourceFile
import Accessors.Log.Setup
import Accessors.Server.Transport
import Accessors.Settings.File

namespace Accessors.CommandLine

open SourceFile (Output)

/-- How a run ends. -/
inductive Ending where
  /-- The command came to its end with a code. -/
  | finished (code : Nat)
  /-- The arguments ended the run with a code. -/
  | refused (code : Nat)
  /-- The server was started. -/
  | serving (transport : Transport)
  | stopped (fault : Fault)
  deriving DecidableEq, Repr

structure Run where
  outputs : List Output
  ending : Ending
  deriving DecidableEq, Repr

/-! ## Generating -/

def configurationOf (bounds : Value.Bounds) (opening : Opening) : Option Text → Except Fault (Except Text Settings)
  | some path =>
    if path.isEmpty then .ok (.ok Settings.defaults)
    else (Settings.ofFile bounds opening path).map fun r => r.mapError (Settings.FileFault.message path)
  | none => .ok (.ok Settings.defaults)

/-- A run that shows an error and ends. -/
def Run.failing (reason : Text) : Run := ⟨[.err (SourceFile.line (Message.error reason))], .finished 1⟩

def continueAt (path : Text) (line : Int) : Log.Notice :=
  .ofText Log.Level.info (Log.logger "cli") ("Continue editing at ".toList ++ path ++ ':' :: Text.ofInt (line + 1))

/-- Where to go on, if the cursor was moved in a file that was changed. -/
def goingOn (path : Text) (dryRun ok : Bool) (cursor : Option Int) : List Output :=
  match cursor with
  | some line => if ok && !dryRun then [.notice (continueAt path line)] else []
  | none => []

/-- The run of the command on a document. -/
def Run.generateIn (opening : Opening) (path : Text) (file : SourceFile) (s : Settings) (d : Document)
    (kind : AccessorKind) : Run :=
  let step := file.run opening s d kind
  let outputs := step.trace.flatMap (file.outputs opening)
  match step.outcome with
  | .error fault => ⟨outputs, .stopped fault⟩
  | .ok ok =>
    { outputs := outputs ++ goingOn path file.dryRun ok (SourceFile.cursorAfter step.trace)
      ending := .finished (if ok && (SourceFile.errorsOf step.trace).isEmpty then 0 else 1) }

/-- The document with its cursors; lines count from one. -/
def documentOf (opening : Opening) (folder : Text) (file : SourceFile) (lines : List (Option Int)) :
    Except Fault (Except Text Document) :=
  match lines.mapM id with
  | some lines => file.document opening folder (lines.map (· - 1))
  | none => .error .lineWithoutNumber

/-- Accessors for the properties on lines that count from one. The settings are read
    first, then the file; the kind is asked for last. -/
def Run.generate (bounds : Value.Bounds) (opening : Opening) (folder path : Text) (lines : List (Option Int))
    (kind : Option AccessorKind) (config : Option Text) (dryRun : Bool) : Run :=
  let file := SourceFile.ofPath path dryRun
  match configurationOf bounds opening config with
  | .error fault => ⟨[], .stopped fault⟩
  | .ok (.error reason) => .failing reason
  | .ok (.ok s) =>
    match documentOf opening folder file lines, kind with
    | .error fault, _ => ⟨[], .stopped fault⟩
    | .ok (.error reason), _ => .failing reason
    | .ok (.ok _), none => ⟨[], .stopped .kindWithoutName⟩
    | .ok (.ok d), some kind => .generateIn opening path file s d kind

/-! ## Serving -/

/-- The transport that the address of the flag is written as. -/
def transportText : Option Text → Text
  | some address => if address.isEmpty then "stdio".toList else "tcp:".toList ++ address
  | none => "stdio".toList

def Run.serving (t : Transport) : Run := ⟨[], .serving t⟩

def Run.serve (tcp : Option Text) : Run :=
  match Transport.ofText (transportText tcp) with
  | .ok t => .serving t
  | .error fault => ⟨[], .stopped fault⟩

/-! ## The program -/

def Request.run (bounds : Value.Bounds) (opening : Opening) (folder : Text) : Request → Run
  | .generate path lines kind config dryRun => .generate bounds opening folder path lines kind config dryRun
  | .serve tcp => .serve tcp

def Refusal.run (r : Refusal) : Run :=
  if r.isHelp then ⟨[.out r.text], .refused 0⟩ else ⟨[.err r.text], .refused 2⟩

def Options.setup? (o : Options) : Option Log.Setup := o.logLevel.map fun level => .ofNames level o.logFormat

/-- A run with the log setup that it was asked for; without a level there is none. -/
def run (bounds : Value.Bounds) (opening : Opening) (folder : Text) (args : List Text) : Option Log.Setup × Run :=
  match Options.ofArguments args with
  | .error r => (none, r.run)
  | .ok o =>
    match o.setup? with
    | some setup => (some setup, o.request.run bounds opening folder)
    | none => (none, ⟨[], .stopped .levelWithoutName⟩)

/-! ## The streams -/

def outText : Output → Text
  | .out t => t
  | _ => []

/-- What comes out on the stream of errors at a moment. -/
def errText (setup : Option Log.Setup) (moment : Log.Moment) : Output → Text
  | .err t => t
  | .notice n => Text.ofCodes (Log.Setup.written setup ⟨n, [], moment, none⟩)
  | _ => []

end Accessors.CommandLine
