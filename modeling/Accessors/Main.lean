/-
  Accessors.Main — the program on a real disk, at the present time.

  The files that the arguments name are read first; what the run then shows is printed
  and what it writes is written, in its order. A run that starts the server ends here: the
  protocol is not spoken by this program.
-/
import Accessors.CommandLine.Program
import Std.Time.DateTime.Timestamp

namespace Accessors.Main

open SourceFile (Output)

/-- Some codes come as negative numbers of 32 bits. -/
def faultOfCode (code : UInt32) (details : String) : DiskFault :=
  let code := if code < 0x80000000 then code.toNat else (0 - code).toNat
  if code = 2 then .missing
  else if code = 20 then .notFolder
  else if code = 21 then .isFolder
  else if code = 36 then .nameTooLong
  else .other code details.toList

def faultOf : IO.Error → DiskFault
  | .noFileOrDirectory _ _ _ => .missing
  | .inappropriateType _ code details => faultOfCode code details
  | .permissionDenied _ code details => faultOfCode code details
  | .invalidArgument _ code details => faultOfCode code details
  | .resourceExhausted _ code details => faultOfCode code details
  | .otherError code details => faultOfCode code details
  | e => .other 5 e.toString.toList

def readFile (path : Text) : IO (Except DiskFault Bytes) := do
  try
    let bytes ← IO.FS.readBinFile (String.ofList path)
    pure (.ok bytes.toList)
  catch e => pure (.error (faultOf e))

/-- The paths that a request reads, as they are opened. -/
def pathsOf : CommandLine.Request → List Text
  | .generate path _ _ config _ => (Path.ofText path).text :: config.toList
  | .serve _ => []

/-- The disk as far as the request looks at it. -/
def openingFor (args : List Text) : IO Opening := do
  match CommandLine.Options.ofArguments args with
  | .error _ => pure fun _ => .error .missing
  | .ok o => do
    let found ← (pathsOf o.request).mapM fun path => do pure (path, ← readFile path)
    pure fun path => (Entries.find? path found).getD (.error .missing)

/-- How deep the values of a settings file may be nested. -/
def bounds : Value.Bounds := ⟨990, 3⟩

def now : IO Log.Moment := do
  let t ← Std.Time.Timestamp.now
  let nanoseconds := t.toNanosecondsSinceUnixEpoch.val
  pure ⟨nanoseconds.fdiv 1000000000, nanoseconds.fdiv 1000⟩

def putOut (t : Text) : IO Unit := do (← IO.getStdout).putStr (String.ofList t)

def putErr (t : Text) : IO Unit := do (← IO.getStderr).putStr (String.ofList t)

/-- Answers whether nothing went wrong. -/
def perform (setup : Option Log.Setup) (output : Output) : IO Bool := do
  match output with
  | .write path bytes =>
    try
      IO.FS.writeBinFile (String.ofList path) (ByteArray.mk bytes.toArray)
      pure true
    catch e =>
      let reason := "Could not write ".toList ++ path ++ ": ".toList ++ (faultOf e).message path
      putErr (SourceFile.line (Message.error (Command.generationError reason)))
      pure false
  | .out t => do
    putOut t
    pure true
  | output => do
    putErr (CommandLine.errText setup (← now) output)
    pure true

/-- Performs the outputs up to the first that goes wrong. -/
def performAll (setup : Option Log.Setup) : List Output → IO Bool
  | [] => pure true
  | output :: outputs => do
    if ← perform setup output then performAll setup outputs else pure false

end Accessors.Main

open Accessors in
def main (args : List String) : IO UInt32 := do
  let args := args.map String.toList
  let opening ← Main.openingFor args
  let (setup, run) := CommandLine.run Main.bounds opening "file://".toList args
  if ← Main.performAll setup run.outputs then
    match run.ending with
    | .finished code | .refused code => pure code.toUInt32
    | .serving _ => pure 0
    | .stopped fault => do
      Main.putErr (SourceFile.line fault.message)
      pure 1
  else pure 1
