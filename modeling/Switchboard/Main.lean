import Switchboard.Command.Run
import Switchboard.Command.Usage
import Switchboard.Disk.Store

/-!
The program: reads its arguments, runs the command they make against the file system, and prints the
outcome. Requests are handed to the file system one by one; nothing is decided here.
-/

namespace Switchboard.Main

open Disk

/-- The number and the words of an error of the system. -/
def errorParts : IO.Error → Option (UInt32 × String)
  | .alreadyExists _ code text | .otherError code text | .resourceBusy code text
  | .resourceVanished code text | .unsupportedOperation code text | .hardwareFault code text
  | .unsatisfiedConstraints code text | .illegalOperation code text | .protocolError code text
  | .timeExpired code text | .interrupted _ code text | .noFileOrDirectory _ code text
  | .invalidArgument _ code text | .permissionDenied _ code text | .resourceExhausted _ code text
  | .inappropriateType _ code text | .noSuchThing _ code text => some (code, text)
  | .unexpectedEof | .userError _ => none

/-- The cause with a number of the system. Some requests report the number negated. -/
def causeOfNumber (number : UInt32) (text : String) : Cause :=
  match if 0x80000000 ≤ number then 0 - number else number with
  | 2 => .missing
  | 6 => .noDevice
  | 17 => .taken
  | 20 => .notDirectory
  | 21 => .isDirectory
  | 36 => .nameTooLong
  | 40 => .tooManyLinks
  | code => .other (text ++ " (os error " ++ toString code ++ ")")

def causeOfError (error : IO.Error) : Cause :=
  match errorParts error with
  | some (number, text) => causeOfNumber number text
  | none => .other (toString error)

def kindOfType : IO.FS.FileType → Kind
  | .dir => .directory
  | .file => .file
  | .symlink => .link
  | .other => .special

def asked {α : Type} (path : Path) (action : IO α) : IO (Except Cause α) := do
  match checkPath path with
  | .error cause => return .error cause
  | .ok () =>
    match ← action.toBaseIO with
    | .ok value => return .ok value
    | .error error => return .error (causeOfError error)

/-- Makes an empty file in a directory under a name that is not in use. -/
def createTemporary (directory : Path) : IO Path := do
  let entries ← ((← IO.currentDir) / directory.text).readDir
  let some name := Store.freshName? (entries.toList.map (·.fileName))
    | throw (IO.userError "too many temporary files exist")
  let path := directory.join name
  let _ ← IO.FS.Handle.mk path.text .writeNew
  return path

def listDirectory (directory : Path) : IO (List (String × Kind)) := do
  let entries ← ((← IO.currentDir) / directory.text).readDir
  entries.toList.mapM fun entry => do
    return (entry.fileName, kindOfType (← entry.path.symlinkMetadata).type)

def inspectPath (path : Path) : IO Kind := do
  return kindOfType (← ((← IO.currentDir) / path.text).metadata).type

def answer : (request : Request) → IO (Answer request)
  | .inspect path => asked path (inspectPath path)
  | .read path => asked path (IO.FS.readBinFile path.text)
  | .list path => asked path (listDirectory path)
  | .makeDirectory path => asked path (IO.FS.createDir path.text)
  | .createTemporary directory => asked directory (createTemporary directory)
  | .write path bytes => asked path (IO.FS.writeBinFile path.text bytes)
  | .rename source target => asked target (IO.FS.rename source.text target.text)
  | .remove path => asked path (IO.FS.removeFile path.text)

def outcome (arguments : List String) : IO Command.Outcome := do
  let terminal := (← (← IO.getStdout).isTty) && (← (← IO.getStderr).isTty)
  match Command.parse arguments with
  | .error fault => return fault.outcome
  | .ok command => (command.run terminal).run answer

end Switchboard.Main

def main (arguments : List String) : IO UInt32 := do
  let outcome ← Switchboard.Main.outcome arguments
  (← IO.getStdout).putStr outcome.output
  (← IO.getStderr).putStr outcome.diagnostics
  return UInt32.ofNat outcome.exit
