/-
Paths as texts: their segments, joining, and the directories above them.

A path is never normalised. It is shown to the user as it was put together, and
what `.` and `..` mean is up to the files that are there. Only where the
directories above a path are listed do the segments count that stand for a step:
an empty one does not, nor does `.`, except at the very beginning of a relative
path.
-/
set_option autoImplicit false

namespace EscrowFeed.Path

/-- The parts between the slashes, empty ones included. -/
def split : List Char → List (List Char)
  | [] => [[]]
  | c :: rest =>
    if c = '/' then [] :: split rest
    else
      match split rest with
      | [] => [[c]]
      | part :: parts => (c :: part) :: parts

/-- The segments of a path. -/
def segments (path : String) : List String := (split path.toList).map String.ofList

/-- The path starts at the root. -/
def isRooted (path : String) : Bool := path.toList.head? = some '/'

/-- A path as seen from a base directory. A rooted path stays as it is, and an
empty base adds nothing. -/
def join (base path : String) : String :=
  if isRooted path ∨ base = "" then path
  else if base.toList.getLast? = some '/' then base ++ path
  else base ++ "/" ++ path

/-- The segment at a place stands for a step. -/
def isStep (place : Nat) (segment : String) : Bool :=
  segment ≠ "" && (segment ≠ "." || place = 0)

/-- The path without its trailing slashes, the directory that it is in, the
directory above that, and so on outward. -/
def ancestors (path : String) : List String :=
  let parts := segments path
  let steps := (List.range parts.length).filter fun place => isStep place (parts[place]?.getD "")
  let above := steps.map fun place => "/".intercalate (parts.take (place + 1))
  ((if isRooted path then "/" else "") :: above).reverse

/-- The directory that a path is in. The root is in none, nor is the empty
path. -/
def parent? (path : String) : Option String := (ancestors path)[1]?

end EscrowFeed.Path
