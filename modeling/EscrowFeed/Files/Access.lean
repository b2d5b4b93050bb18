/-
What the program needs of a file system, and the ways in which it is refused.
-/
import EscrowFeed.Bytes
import EscrowFeed.Files.Path

set_option autoImplicit false

namespace EscrowFeed

/-- Why a file system refuses. -/
inductive FileError where
  | noEntry
  | exists
  | notDirectory
  | isDirectory
  | nameTooLong
  /-- There is no room for what is written. -/
  | noSpace
  /-- A path holds a character that no file name can. -/
  | invalidName
  /-- A file that is to be read as text is none. -/
  | notText
  /-- Anything else, as the system puts it. -/
  | other (reason : String)
deriving DecidableEq

/-- The text of the error. -/
def FileError.message : FileError → String
  | .noEntry => "No such file or directory (os error 2)"
  | .exists => "File exists (os error 17)"
  | .notDirectory => "Not a directory (os error 20)"
  | .isDirectory => "Is a directory (os error 21)"
  | .nameTooLong => "File name too long (os error 36)"
  | .noSpace => "No space left on device (os error 28)"
  | .invalidName => "file name contained an unexpected NUL byte"
  | .notText => "stream did not contain valid UTF-8"
  | .other reason => reason

/-- File systems as the program uses them. -/
class FileAccess (m : Type → Type) where
  /-- The content of a file. -/
  read : String → m (Except FileError Bytes)
  /-- Makes one directory, in one that is there. -/
  createDirectory : String → m (Except FileError Unit)
  /-- Makes a file, or empties the one that is there. -/
  create : String → m (Except FileError Unit)
  /-- Adds to the end of a file. -/
  append : String → Bytes → m (Except FileError Unit)

namespace FileAccess

variable {m : Type → Type} [Monad m] [FileAccess m]

/-- The content of a file that is a text. -/
def readText (path : String) : m (Except FileError String) := do
  match ← read path with
  | .error error => return .error error
  | .ok bytes =>
    match Utf8.decode? bytes with
    | none => return .error .notText
    | some text => return .ok text

/-- The path leads to a directory, which is what cannot be read for being
one. -/
def isDirectory (path : String) : m Bool := do
  match ← read path with
  | .error .isDirectory => return true
  | _ => return false

/-- A directory that is there already counts as made. -/
def settle (path : String) (result : Except FileError Unit) : m (Except FileError Unit) := do
  match result with
  | .ok () => return .ok ()
  | .error error => if ← isDirectory path then return .ok () else return .error error

/-- Makes the first of some directories, each of which is in the next. Those
above it are made only if it is refused for want of one of them. -/
def createInnermost : List String → m (Except FileError Unit)
  | [] => return .ok ()
  | path :: above => do
    if path = "" then return .ok ()
    match ← createDirectory path with
    | .error .noEntry =>
      match ← createInnermost above with
      | .error error => return .error error
      | .ok () => settle path (← createDirectory path)
    | result => settle path result

/-- Makes a directory and those above it that are not there. -/
def createDirectories (path : String) : m (Except FileError Unit) :=
  createInnermost (path :: (Path.ancestors path).tail)

end FileAccess

end EscrowFeed
