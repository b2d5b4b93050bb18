/-
A file system as a value: directories, files, and one working directory.

A path is followed segment by segment from the working directory or the root,
and every step but the last has to end in a directory. So a path through `..`
needs the directory that it leaves again, and a slash after the name of a file
is an error. Names and whole paths have a greatest length in bytes; a name is
measured when it is looked up, so a path that fails before it gets to an overlong
name fails for the earlier reason.
-/
import EscrowFeed.Files.Access

set_option autoImplicit false

namespace EscrowFeed

/-- A place in the tree: the names on the way from the root. -/
abbrev Place := List String

/-- What is at a place. -/
inductive Node where
  | directory
  | file (content : Bytes)
  /-- A device that holds nothing and takes everything. -/
  | nullDevice
  /-- A device that holds nothing and has room for nothing. -/
  | fullDevice
deriving DecidableEq

/-- A file system. The root is a directory whatever the nodes say. -/
structure FileTree where
  nodes : List (Place × Node) := []
  workingDirectory : Place := []
deriving DecidableEq

namespace FileTree

/-- What is at a place, if anything is. -/
def node? (tree : FileTree) (place : Place) : Option Node :=
  if place = [] then some .directory
  else (tree.nodes.find? fun node => node.1 = place).map Prod.snd

/-- Puts a node at a place. -/
def put (place : Place) (node : Node) (tree : FileTree) : FileTree :=
  { tree with nodes := (place, node) :: tree.nodes.filter fun other => other.1 ≠ place }

/-! ## Following paths -/

/-- The greatest length of a name in bytes. -/
def nameLimit : Nat := 255

/-- The greatest length of a path in bytes. -/
def pathLimit : Nat := 4095

/-- Follows segments from a place on. -/
def follow (tree : FileTree) (place : Place) : List String → Except FileError Place
  | [] => .ok place
  | segment :: rest =>
    if tree.node? place ≠ some .directory then .error .notDirectory
    else if segment = "" ∨ segment = "." then tree.follow place rest
    else if segment = ".." then tree.follow place.dropLast rest
    else if nameLimit < segment.utf8ByteSize then .error .nameTooLong
    else if (tree.node? (place ++ [segment])).isNone then .error .noEntry
    else tree.follow (place ++ [segment]) rest

/-- The place that a path starts from. -/
def start (tree : FileTree) (path : String) : Place :=
  if Path.isRooted path then [] else tree.workingDirectory

/-- Paths that name nothing, whatever is there. -/
def checkName (path : String) : Except FileError Unit :=
  if path.toList.contains '\x00' then .error .invalidName
  else if path = "" then .error .noEntry
  else if pathLimit < path.utf8ByteSize then .error .nameTooLong
  else .ok ()

/-- The place of a path that something is at. -/
def locate (tree : FileTree) (path : String) : Except FileError Place := do
  checkName path
  tree.follow (tree.start path) (Path.segments path)

/-- The directory and the name in it that a path ends with. -/
inductive Target where
  | entry (directory : Place) (name : String)
  /-- A path that can only be a directory: one that ends with a slash and names
  nothing beyond it. -/
  | slash (directory : Place) (name : String)
  /-- A path that ends with `.` or `..`, or the root. -/
  | existing

/-- Where something can be made. -/
def target (tree : FileTree) (path : String) : Except FileError Target := do
  checkName path
  let parts := (Path.segments path).reverse
  match parts.dropWhile (· = "") with
  | [] => return .existing
  | name :: above =>
    let directory ← tree.follow (tree.start path) above.reverse
    if tree.node? directory ≠ some .directory then throw .notDirectory
    if name = "." ∨ name = ".." then return .existing
    return if parts.head? = some "" then .slash directory name else .entry directory name

/-! ## Operations -/

/-- The content of a file. -/
def read (tree : FileTree) (path : String) : Except FileError Bytes := do
  match tree.node? (← tree.locate path) with
  | some (.file content) => return content
  | some .nullDevice | some .fullDevice => return []
  | some .directory => throw .isDirectory
  | none => throw .noEntry

/-- Makes one directory. -/
def createDirectory (path : String) (tree : FileTree) : Except FileError Unit × FileTree :=
  match tree.target path with
  | .error error => (.error error, tree)
  | .ok .existing => (.error .exists, tree)
  | .ok (.entry directory name) | .ok (.slash directory name) =>
    let place := directory ++ [name]
    if nameLimit < name.utf8ByteSize then (.error .nameTooLong, tree)
    else if (tree.node? place).isSome then (.error .exists, tree)
    else (.ok (), tree.put place .directory)

/-- Opens a file for writing, and says what its content becomes. -/
def write (path : String) (change : Bytes → Bytes) (tree : FileTree) :
    Except FileError Unit × FileTree :=
  match tree.target path with
  | .error error => (.error error, tree)
  | .ok .existing | .ok (.slash ..) => (.error .isDirectory, tree)
  | .ok (.entry directory name) =>
    let place := directory ++ [name]
    if nameLimit < name.utf8ByteSize then (.error .nameTooLong, tree)
    else
      match tree.node? place with
      | some .directory => (.error .isDirectory, tree)
      | some .nullDevice => (.ok (), tree)
      | some .fullDevice => (if change [] = [] then .ok () else .error .noSpace, tree)
      | some (.file content) => (.ok (), tree.put place (.file (change content)))
      | none => (.ok (), tree.put place (.file (change [])))

instance : FileAccess (StateM FileTree) where
  read path := return (← get).read path
  createDirectory path := modifyGet (createDirectory path)
  create path := modifyGet (write path fun _ => [])
  append path bytes := modifyGet (write path (· ++ bytes))

end FileTree

end EscrowFeed
