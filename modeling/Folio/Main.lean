import Folio.Command.Run

/-!
# The command

Runs on the files of the machine.
-/

namespace Folio.Command

def reasonOf : IO.Error → Files.Reason
  | .noFileOrDirectory _ _ _ => .missing
  | .alreadyExists _ code description | .inappropriateType _ code description
  | .permissionDenied _ code description | .resourceExhausted _ code description
  | .invalidArgument _ code description =>
      if code = 17 then .alreadyExists
      else if code = 20 then .notDirectory
      else if code = 21 then .isDirectory
      else if code = 36 then .nameTooLong
      else .other code.toNat description
  | error => .other 5 (toString error)

/-- Do something with the text of a path, and find out why it is refused. -/
def attempt {α : Type} (path : Files.Path) (operation : String → IO α) :
    IO (Except Files.Fault α) :=
  if path.holdsNull then return .error .nullInPath
  else
    try return .ok (← operation path.text)
    catch error => return .error (.refused (reasonOf error) path)

def isReadable (name : String) : IO Bool := do
  try
    let _ ← IO.FS.Handle.mk name .read
    return true
  catch _ => return false

/-- The file operations of the machine.  Only a directory holds itself. -/
def machineFiles : Files.Access IO where
  isFile path :=
    if path.holdsNull then return .ok false
    else
      try
        if ← isReadable (path.text ++ "/.") then return .ok false
        let _ ← IO.FS.Handle.mk path.text .read
        return .ok true
      catch error =>
        match reasonOf error with
        | .missing | .notDirectory => return .ok false
        | .nameTooLong => return .error (.refused .nameTooLong path)
        | _ => return .ok true
  isDirectory path :=
    if path.holdsNull then return false else isReadable (path.text ++ "/.")
  read path := attempt path fun name => do return (← IO.FS.readBinFile name).toList
  makeDirectory path := attempt path fun name => IO.FS.createDir name
  write path content := attempt path fun name => IO.FS.writeBinFile name ⟨content.toArray⟩

/-- Show what a run printed, and give its exit code. -/
def finish (outcome : Outcome) : IO UInt32 := do
  IO.print outcome.stdout
  IO.eprint outcome.stderr
  match outcome.ending with
  | .finished code | .stopped code => return code.toUInt32
  | .broken trouble =>
      IO.eprintln trouble.message
      return 1

end Folio.Command

def main (words : List String) : IO UInt32 := do
  Folio.Command.finish (← Folio.Command.run Folio.Command.machineFiles words)
