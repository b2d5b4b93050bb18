/-
The program: the command on the system's files.
-/
import EscrowFeed.Command

set_option autoImplicit false

namespace EscrowFeed

/-- The number and the text with which the system refuses. -/
def refusalOf? : IO.Error → Option (UInt32 × String)
  | .alreadyExists _ number reason | .noFileOrDirectory _ number reason
  | .invalidArgument _ number reason | .permissionDenied _ number reason
  | .resourceExhausted _ number reason | .inappropriateType _ number reason
  | .noSuchThing _ number reason | .interrupted _ number reason
  | .otherError number reason | .resourceBusy number reason | .resourceVanished number reason
  | .unsupportedOperation number reason | .hardwareFault number reason
  | .unsatisfiedConstraints number reason | .illegalOperation number reason
  | .protocolError number reason | .timeExpired number reason => some (number, reason)
  | .unexpectedEof | .userError _ => none

/-- The system's refusals, of which some have a name here. -/
def FileError.ofSystem (error : IO.Error) : FileError :=
  match refusalOf? error with
  | some (2, _) => .noEntry
  | some (17, _) => .exists
  | some (20, _) => .notDirectory
  | some (21, _) => .isDirectory
  | some (28, _) => .noSpace
  | some (36, _) => .nameTooLong
  | some (number, reason) => .other (reason ++ " (os error " ++ number.toNat.repr ++ ")")
  | none => .other (toString error)

/-- An action on files, with its refusal as a value. -/
def attemptOnFiles {α : Type} (path : String) (action : IO α) : IO (Except FileError α) := do
  if path.toList.contains '\x00' then return .error .invalidName
  try
    return .ok (← action)
  catch error =>
    return .error (.ofSystem error)

instance : FileAccess IO where
  read path := attemptOnFiles path do
    let handle ← IO.FS.Handle.mk path IO.FS.Mode.read
    return (← handle.readBinToEnd).data.toList
  createDirectory path := attemptOnFiles path (IO.FS.createDir path)
  create path := attemptOnFiles path (IO.FS.writeBinFile path ByteArray.empty)
  append path bytes := attemptOnFiles path do
    let handle ← IO.FS.Handle.mk path IO.FS.Mode.append
    handle.write ⟨bytes.toArray⟩
    handle.flush

end EscrowFeed

/-- Runs the command with the program's arguments. -/
def main (args : List String) : IO UInt32 := do
  let report ← EscrowFeed.Command.run args
  (← IO.getStdout).write ⟨report.output.toArray⟩
  (← IO.getStderr).putStr report.errorText
  return report.exitCode.toUInt32
