/-
The field tree of an event description, and typed lookups in it.

A description is JSON, but the feed reads only two things out of JSON: texts
and objects of them. `Field.ofJson` keeps those and drops the rest. A whole
number counts as a text, namely the one it is written with, so that a sender
may quote an amount or not and lose no digit either way. Everything else, a
number with a fraction or an exponent among it, reads as if it were not there.

Every lookup is total. It finds a value of the type it was asked for, or says
which of two things is wrong: nothing usable is under the key, or a text is and
does not convert.
-/
import EscrowFeed.WideInt
import EscrowFeed.Json.Reader

set_option autoImplicit false

namespace EscrowFeed

/-- A node of a field tree. -/
inductive Field where
  | object (members : List (String × Field))
  | text (content : String)
  | absent

namespace Field

mutual

/-- The tree of a JSON value. -/
def ofJson : Json → Field
  | .string content => .text content
  | .number literal => if Json.isWhole literal then .text literal else .absent
  | .object members => .object (ofMembers members)
  | .null | .bool _ | .array _ => .absent

/-- The trees of an object's members, key by key. -/
def ofMembers : List (String × Json) → List (String × Field)
  | [] => []
  | (key, value) :: rest => (key, ofJson value) :: ofMembers rest

end

/-- The node under a key. A node that is no object has nothing under any key. -/
def child (key : String) : Field → Field
  | .object members => (Members.find? key members).getD .absent
  | .text _ | .absent => .absent

/-- The content of a text node, unless it is empty. -/
def nonempty? : Field → Option String
  | .text content => if content = "" then none else some content
  | .object _ | .absent => none

end Field

/-- Why a description has no field tree. -/
inductive DescriptionError where
  | empty
  | notAnObject
deriving DecidableEq

/-- Why a field has no value of the type it is read as. -/
inductive Fault where
  /-- Nothing is under the key, or no text, or an empty one. -/
  | absent
  /-- A text is under the key that does not convert. -/
  | malformed
deriving DecidableEq

/-- A parsed description, by the fields of its root. -/
structure Description where
  members : List (String × Field)

namespace Description

/-- Reads a description. -/
def parse (text : String) : Except DescriptionError Description :=
  if text = "" then .error .empty
  else
    match (Json.read? text).map Field.ofJson with
    | some (.object members) => .ok ⟨members⟩
    | _ => .error .notAnObject

/-- The root of the tree. -/
def root (d : Description) : Field := .object d.members

/-- The node under a key of the root. -/
def field (d : Description) (key : String) : Field := d.root.child key

end Description

/-! ## Typed lookups -/

/-- The types that a field can be read as. -/
inductive FieldType where
  | text
  | integer
  | bytes
deriving DecidableEq

namespace FieldType

/-- The values of a type. -/
abbrev Value : FieldType → Type
  | .text => String
  | .integer => WideInt
  | .bytes => Bytes

/-- The bytes of a text of hex digits, with or without a leading `0x`. -/
def bytes? (content : String) : Option Bytes :=
  match content.toList with
  | '0' :: 'x' :: digits => Hex.decode? digits
  | digits => Hex.decode? digits

/-- The value that a text converts to. -/
def convert? : (type : FieldType) → String → Option type.Value
  | .text, content => some content
  | .integer, content => WideInt.parse? content
  | .bytes, content => bytes? content

end FieldType

/-- Reads a node as a value of a type. -/
def Field.read (node : Field) (type : FieldType) : Except Fault type.Value :=
  match node.nonempty? with
  | none => .error .absent
  | some content =>
    match type.convert? content with
    | none => .error .malformed
    | some value => .ok value

/-- Reads the field under a key as a value of a type. -/
def Description.lookup (d : Description) (type : FieldType) (key : String) :
    Except Fault type.Value :=
  (d.field key).read type

end EscrowFeed
