/-
A store that writes every upsert as a line of JSON: the table, the key as one
text, and the fields.

Nothing is looked up and nothing is overwritten. Whoever loads the lines applies
them in order, each to the row of its table and key, and arrives at the last
upsert of every row. A key of several columns is joined with dashes.

The text of a line and the line feed behind it are written one after the other,
and a failure says in which of the two it happened.
-/
import EscrowFeed.Json.Printer
import EscrowFeed.Store.Basic
import EscrowFeed.Store.Outlet

set_option autoImplicit false

namespace EscrowFeed

/-- The upsert's key as one text. -/
def Upsert.lineId (op : Upsert) : String := "-".intercalate op.rowKey

/-- The row of an upsert as an object. -/
def Upsert.toJson (op : Upsert) : Json :=
  .object [("fields", .object op.fields), ("id", .string op.lineId), ("table", .string op.table)]

/-- The line of an upsert, without its line feed. -/
def Upsert.line (op : Upsert) : String := op.toJson.text

/-- A writer of lines. -/
structure LineStore where
  outlet : Outlet := {}
  /-- How many lines are complete. -/
  written : Nat := 0
deriving DecidableEq

namespace LineStore

/-- Writes an upsert as a line. It needs a key. -/
def save (op : Upsert) (store : LineStore) : Except StoreError Unit × LineStore :=
  if op.rowKey = [] then (.error (.missingKey op.table), store)
  else
    match store.outlet.write (Utf8.encode op.line) with
    | (.error error, outlet) => (.error (.rowText error.message), { store with outlet })
    | (.ok (), outlet) =>
      match outlet.write (Utf8.encode "\n") with
      | (.error error, outlet) => (.error (.medium error.message), { store with outlet })
      | (.ok (), outlet) => (.ok (), ⟨outlet, store.written + 1⟩)

/-- Flushes the outlet. -/
def flush (store : LineStore) : Except StoreError Unit × LineStore :=
  (store.outlet.flush.mapError fun error => .medium error.message, store)

instance : RowStore LineStore where
  save := save
  flush := flush

end LineStore

end EscrowFeed
