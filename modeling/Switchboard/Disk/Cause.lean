import Switchboard.Path

/-!
What a request to the file system is for, and why one is refused. The texts are those a Linux
system gives.
-/

namespace Switchboard.Disk

inductive Cause
  /-- A name on the way, or the last one, does not exist. -/
  | missing
  | taken
  /-- Something that is not a directory is used as one. -/
  | notDirectory
  /-- A directory is used as a file. -/
  | isDirectory
  /-- A file is opened that nothing stands behind. -/
  | noDevice
  | nameTooLong
  | tooManyLinks
  /-- The bytes of a file are not the encoding of a text. -/
  | notText
  | nulInPath
  /-- Anything else, in the words of the system. -/
  | other (text : String)
deriving DecidableEq, Repr

def Cause.message : Cause → String
  | missing => "No such file or directory (os error 2)"
  | taken => "File exists (os error 17)"
  | notDirectory => "Not a directory (os error 20)"
  | isDirectory => "Is a directory (os error 21)"
  | noDevice => "No such device or address (os error 6)"
  | nameTooLong => "File name too long (os error 36)"
  | tooManyLinks => "Too many levels of symbolic links (os error 40)"
  | notText => "stream did not contain valid UTF-8"
  | nulInPath => "file name contained an unexpected NUL byte"
  | other text => text

inductive Action
  | inspect
  | read
  | list
  | makeDirectory
  | createTemporary
  | write
  | remove
deriving DecidableEq, Repr

def Action.name : Action → String
  | inspect => "inspect"
  | read => "read"
  | list => "read directory"
  | makeDirectory => "create directory"
  | createTemporary => "create temporary file in"
  | write => "write"
  | remove => "remove"

def pathLimit : Nat := 4095

/-- Refuses a text that no file system takes for a path. -/
def checkPath (path : Path) : Except Cause Unit :=
  if path.text.toList.contains '\x00' then .error .nulInPath
  else if path.text = "" then .error .missing
  else if pathLimit < path.text.utf8ByteSize then .error .nameTooLong
  else .ok ()

end Switchboard.Disk
