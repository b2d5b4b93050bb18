/-
Upserts: the one operation a store understands.

An upsert names a table, gives values to columns, and says which columns make
the row's key and which are to be overwritten when a row with that key is there
already. Columns and values are two lists, and an upsert that comes from
outside the library may have more of one than of the other, or name a column
twice. What it then means is fixed by two readings. `value?` is for one column:
the first of the name, if a value stands at its place. `fields` is for all
columns at once: names and values are paired from the front, key columns are
left out, and of one name the last value stands. On an upsert with distinct
columns the two agree.
-/
import EscrowFeed.WideInt
import EscrowFeed.Bytes
import EscrowFeed.Json.Basic

set_option autoImplicit false

namespace EscrowFeed

/-- A value of a column. -/
inductive Cell where
  /-- Text, such as the identity of a record. -/
  | text (content : String)
  /-- A number by its decimal text. -/
  | numeric (decimal : String)
  /-- Bytes, such as an address or a hash. -/
  | bytes (content : Bytes)
deriving DecidableEq

namespace Cell

/-- The cell of an integer. -/
def integer (n : WideInt) : Cell := .numeric n.text

/-- The cell as a part of a key: text and numbers as they are, bytes in hex. -/
def keyText : Cell → String
  | .text content => content
  | .numeric decimal => decimal
  | .bytes content => Hex.text content

/-- The cell in a written row: numbers stay decimal text, and bytes are marked
as hex. -/
def toJson : Cell → Json
  | .text content => .string content
  | .numeric decimal => .string decimal
  | .bytes content => .string ("0x" ++ Hex.text content)

end Cell

/-- A row to be inserted, or to overwrite the row with its key. -/
structure Upsert where
  table : String
  columns : List String
  values : List Cell
  /-- The columns that make the key. -/
  conflict : List String
  /-- The columns to overwrite in a row that is there. -/
  update : List String
deriving DecidableEq

namespace Upsert

/-- The value of a column. -/
def value? (op : Upsert) (column : String) : Option Cell := do
  let place ← op.columns.idxOf? column
  op.values[place]?

/-- The values of the key columns that have one, in their order. -/
def conflictKey (op : Upsert) : List Cell := op.conflict.filterMap op.value?

/-- The key as texts. -/
def rowKey (op : Upsert) : List String := op.conflictKey.map Cell.keyText

/-- The columns outside the key, as the members of an object. -/
def fields (op : Upsert) : List (String × Json) :=
  Members.ofList
    (((op.columns.zip op.values).filter fun column => column.1 ∉ op.conflict).map
      fun column => (column.1, column.2.toJson))

end Upsert

end EscrowFeed
